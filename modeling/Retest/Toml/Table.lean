import Retest.Toml.Value

/-! Who may add what to which table. A header opens a table once; a dotted key adds to tables that
dotted keys made, and to no others; a table between braces is closed. -/

namespace Retest.Toml

/-- Changes the table at the end of a path and makes the tables that are missing on the way. A name
that stands for an array of tables leads to the last of them. A dotted key must not pass through a
table that has its own header. -/
def descend (dotted : Bool) (change : TableKind → Entries → Option Entries) :
    List String → TableKind → Entries → Option Entries
  | [], kind, es => change kind es
  | key :: rest, _, es =>
    match find? es key with
    | none =>
      let kind : TableKind := if dotted then .dotted else .implied
      (descend dotted change rest kind []).map fun sub => es ++ [(key, .table kind sub)]
    | some (.table kind sub) =>
      if kind = .inline ∨ (dotted ∧ kind = .header) then none
      else (descend dotted change rest kind sub).map fun sub => replace es key (.table kind sub)
    | some (.tables items) =>
      match items.getLast? with
      | none => none
      | some last =>
        (descend dotted change rest .header last).map fun last =>
          replace es key (.tables (items.dropLast ++ [last]))
    | some _ => none

/-- Adds a value at the end of a dotted path: a lone key goes into a table that no dotted key made,
a longer one into a table that dotted keys made. -/
def insertValue (path : List String) (key : String) (v : Toml) (kind : TableKind) (es : Entries) :
    Option Entries :=
  descend true (fun kind es =>
    if (kind = .dotted) = (path = []) then none
    else if (find? es key).isSome then none
    else some (es ++ [(key, v)])) path kind es

/-- Opens a table under its own header. Only a longer header may have named it before. -/
def openTable (key : String) (es : Entries) : Option Entries :=
  match find? es key with
  | none => some (es ++ [(key, .table .header [])])
  | some (.table .implied sub) => some (replace es key (.table .header sub))
  | some _ => none

def openElement (key : String) (es : Entries) : Option Entries :=
  match find? es key with
  | none => some (es ++ [(key, .tables [[]])])
  | some (.tables items) => some (replace es key (.tables (items ++ [[]])))
  | some _ => none

def splitLast : List String → Option (List String × String)
  | [] => none
  | [key] => some ([], key)
  | key :: rest => (splitLast rest).map fun r => (key :: r.1, r.2)

/-- A document that is being read: what it holds so far, and the table that keys go to. -/
structure Draft where
  root : Entries := []
  place : List String := []
  deriving Repr

namespace Draft

def addValue (d : Draft) (path : List String) (v : Toml) : Option Draft := do
  let (path, key) ← splitLast path
  let root ← descend false (insertValue path key v) d.place .header d.root
  return { d with root }

def addHeader (d : Draft) (element : Bool) (path : List String) : Option Draft := do
  let (parents, key) ← splitLast path
  let root ← descend false (fun _ es => if element then openElement key es else openTable key es)
    parents .header d.root
  return { root, place := path }

end Draft

end Retest.Toml
