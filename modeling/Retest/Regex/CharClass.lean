import Retest.Unicode.Age
import Retest.Unicode.Category
import Retest.Unicode.Folding
import Retest.Unicode.Property
import Retest.Unicode.Script
import Retest.Unicode.Segment

namespace Retest.Regex

/-- How a name of a property is compared: case, blanks, hyphens and underscores say nothing, nor
does a leading `is`, unless only a `c` is left. Characters beyond ASCII are passed over. -/
def normalName (s : List Char) : String :=
  let plain (t : List Char) : List Char :=
    (t.filter fun c => c ≠ ' ' && c ≠ '_' && c ≠ '-' && c.toNat < 0x80).map Char.toLower
  match s with
  | a :: b :: rest =>
    if a.toLower = 'i' ∧ b.toLower = 's' then
      (if plain rest = ['c'] then "isc" else String.ofList (plain rest))
    else String.ofList (plain s)
  | _ => String.ofList (plain s)

/-- The set that a lone name stands for. A property comes before a category, and a category before
a script. -/
def setOfName? (name : List Char) : Option CharSet :=
  let n := normalName name
  match Unicode.property? n with
  | some s => some s
  | none =>
    match Unicode.category? n with
    | some s => some s
    | none => (Unicode.script? n).map (·.chars)

def setOfValue? (property value : List Char) : Option CharSet :=
  let p := normalName property
  let v := normalName value
  if p = "gc" ∨ p = "generalcategory" then Unicode.category? v
  else if p = "sc" ∨ p = "script" then (Unicode.script? v).map (·.chars)
  else if p = "scx" ∨ p = "scriptextensions" then Unicode.scriptExtension? v
  else if p = "age" then Unicode.age? v
  else if p = "gcb" ∨ p = "graphemeclusterbreak" then Unicode.charsNamed? Unicode.clusterTable v
  else if p = "wb" ∨ p = "wordbreak" then Unicode.charsNamed? Unicode.wordTable v
  else if p = "sb" ∨ p = "sentencebreak" then Unicode.charsNamed? Unicode.sentenceTable v
  else none

inductive Shorthand where
  | digit
  | space
  | word
  deriving Repr, DecidableEq

def Shorthand.chars (wide : Bool) : Shorthand → CharSet
  | .digit => if wide then Unicode.decimalDigit else .range 48 57
  | .space => if wide then Unicode.whiteSpace else .ofRanges [(9, 13), (32, 32)]
  | .word => if wide then Unicode.wordChar else .ofRanges [(48, 57), (65, 90), (95, 95), (97, 122)]

def asciiClass? (name : List Char) : Option CharSet :=
  match String.ofList name with
  | "alnum" => some (.ofRanges [(48, 57), (65, 90), (97, 122)])
  | "alpha" => some (.ofRanges [(65, 90), (97, 122)])
  | "ascii" => some (.range 0 127)
  | "blank" => some (.ofRanges [(9, 9), (32, 32)])
  | "cntrl" => some (.ofRanges [(0, 31), (127, 127)])
  | "digit" => some (.range 48 57)
  | "graph" => some (.range 33 126)
  | "lower" => some (.range 97 122)
  | "print" => some (.range 32 126)
  | "punct" => some (.ofRanges [(33, 47), (58, 64), (91, 96), (123, 126)])
  | "space" => some (.ofRanges [(9, 13), (32, 32)])
  | "upper" => some (.range 65 90)
  | "word" => some (.ofRanges [(48, 57), (65, 90), (95, 95), (97, 122)])
  | "xdigit" => some (.ofRanges [(48, 57), (65, 70), (97, 102)])
  | _ => none

end Retest.Regex
