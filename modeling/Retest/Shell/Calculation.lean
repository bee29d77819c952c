import Retest.Shell.Regexp

/-! Calculations whose numbers and signs are words of their own. A value is a text, which may be a
number. -/

namespace Retest.Shell.Calculation

abbrev Result := Option (List Char × List (List Char))

def number? (t : List Char) : Option Int :=
  match t with
  | '-' :: rest => if rest ≠ [] ∧ rest.all Char.isDigit then some (-(Sum.ofDigits 10 rest : Int))
    else none
  | rest => if rest ≠ [] ∧ rest.all Char.isDigit then some (Sum.ofDigits 10 rest) else none

def isNull (t : List Char) : Bool :=
  match t with
  | [] => true
  | '-' :: rest => rest ≠ [] && rest.all (· = '0')
  | rest => rest.all (· = '0')

def truth (b : Bool) : List Char := if b then ['1'] else ['0']

/-- What an expression matches at the front of a text: the text of its group, or how long the match
is. -/
def fit? (text pattern : List Char) : Option (List Char) := do
  let r ← Regexp.ofText? {} pattern
  let grouped := (List.range pattern.length).any fun i => ['\\', '('].isPrefixOf (pattern.drop i)
  match r.longest ⟨none, text, []⟩ with
  | none => return if grouped then [] else ['0']
  | some place =>
    if grouped then return ((place.groups.find? fun e => e.1 = 1).map (·.2)).getD []
    else return decimal (text.length - place.rest.length : Nat)

def compare_ (sign : List Char) (a b : List Char) : Option (List Char) :=
  let o := match number? a, number? b with
    | some m, some n => compare m n
    | _, _ => compare a b
  match String.ofList sign with
  | "=" | "==" => some (truth o.isEq)
  | "!=" => some (truth !o.isEq)
  | "<" => some (truth o.isLT)
  | "<=" => some (truth o.isLE)
  | ">" => some (truth o.isGT)
  | ">=" => some (truth o.isGE)
  | _ => none

def combine (sign : List Char) (a b : List Char) : Option (List Char) :=
  match sign with
  | ['|'] => some (if isNull a then (if isNull b then ['0'] else b) else a)
  | ['&'] => some (if isNull a ∨ isNull b then ['0'] else a)
  | [':'] => fit? a b
  | _ =>
    match compare_ sign a b with
    | some v => some v
    | none => do
      let m ← number? a
      let n ← number? b
      return decimal (← Sum.combine (String.ofList sign) m n)

def levels : List (List (List Char)) :=
  [["|"], ["&"], ["=", "==", "!=", "<", "<=", ">", ">="], ["+", "-"], ["*", "/", "%"], [":"]].map
    fun l => l.map String.toList

mutual

def readLevel : Nat → List (List (List Char)) → List (List Char) → Result
  | 0, _, _ => none
  | fuel + 1, [], words => readValue fuel words
  | fuel + 1, signs :: tighter, words => do
    let (first, rest) ← readLevel fuel tighter words
    readRest fuel signs tighter first rest

def readRest : Nat → List (List Char) → List (List (List Char)) → List Char →
    List (List Char) → Result
  | 0, _, _, _, _ => none
  | fuel + 1, signs, tighter, first, words =>
    match words with
    | sign :: rest =>
      if signs.contains sign then do
        let (second, rest) ← readLevel fuel tighter rest
        let value ← combine sign first second
        readRest fuel signs tighter value rest
      else some (first, words)
    | [] => some (first, [])

def readValue : Nat → List (List Char) → Result
  | 0, _ => none
  | _, [] => none
  | fuel + 1, word :: rest =>
    match String.ofList word with
    | "(" =>
      match readLevel fuel levels rest with
      | some (v, [')'] :: rest) => some (v, rest)
      | _ => none
    | "length" => do
      let (v, rest) ← readValue fuel rest
      return (decimal v.length, rest)
    | "match" => do
      let (v, rest) ← readValue fuel rest
      let (p, rest) ← readValue fuel rest
      return (← fit? v p, rest)
    | "index" => do
      let (v, rest) ← readValue fuel rest
      let (set, rest) ← readValue fuel rest
      return (decimal ((v.findIdx? set.contains).elim 0 (· + 1) : Nat), rest)
    | "substr" => do
      let (v, rest) ← readValue fuel rest
      let (first, rest) ← readValue fuel rest
      let (size, rest) ← readValue fuel rest
      match number? first, number? size with
      | some m, some n =>
        return (if m < 1 ∨ n < 1 then [] else (v.drop (m.toNat - 1)).take n.toNat, rest)
      | _, _ => return ([], rest)
    | _ => some (word, rest)

end

def value? (words : List (List Char)) : Option (List Char) :=
  match readLevel (16 * words.length + 16) levels words with
  | some (v, []) => some v
  | _ => none

end Retest.Shell.Calculation
