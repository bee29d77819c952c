/-! TOML values. Tables remember how they came about, because that decides who may add to them. -/

namespace Retest

/-- How a table came about: by its own header, as a step of a longer header, as a step of a dotted
key, or between braces. -/
inductive TableKind where
  | header
  | implied
  | dotted
  | inline
  deriving Repr, DecidableEq

/-- A TOML value. Of floats and dates it is only known that they are well formed. -/
inductive Toml where
  | string (s : String)
  | integer (n : Int)
  | float
  | boolean (b : Bool)
  | date
  | array (items : List Toml)
  | table (kind : TableKind) (entries : List (String × Toml))
  | tables (items : List (List (String × Toml)))
  deriving Repr, Inhabited

namespace Toml

/-- Keys with their values, in the order of the text. No key occurs twice. -/
abbrev Entries := List (String × Toml)

def find? (es : Entries) (key : String) : Option Toml :=
  (es.find? fun e => e.1 = key).map (·.2)

def replace (es : Entries) (key : String) (v : Toml) : Entries :=
  es.map fun e => if e.1 = key then (key, v) else e

end Toml

end Retest
