/-! Patterns for file names and paths. A star stands for any text, a question mark for any
character, brackets for one of some characters, and a path step of two stars for any way down. -/

namespace Retest.Glob

inductive Range where
  | one (c : Char)
  | between (low high : Char)
  deriving Repr, DecidableEq

def Range.contains (c : Char) : Range → Bool
  | .one d => c = d
  | .between low high => low ≤ c && c ≤ high

inductive Token where
  | char (c : Char)
  | anyChar
  | anyText
  | within (ranges : List Range)
  | except (ranges : List Range)
  deriving Repr, DecidableEq

def Token.accepts (c : Char) : Token → Bool
  | .char d => c = d
  | .anyChar => true
  | .anyText => false
  | .within ranges => ranges.any (Range.contains c)
  | .except ranges => !ranges.any (Range.contains c)

def fits : List Token → List Char → Bool
  | [], s => s.isEmpty
  | .anyText :: ts, [] => fits ts []
  | .anyText :: ts, c :: s => fits ts (c :: s) || fits (.anyText :: ts) s
  | _ :: _, [] => false
  | t :: ts, c :: s => t.accepts c && fits ts s
termination_by ts s => ts.length + s.length

inductive Step where
  | anywhere
  | name (tokens : List Token)
  deriving Repr, DecidableEq

def readRanges : List Char → List Range
  | low :: '-' :: high :: rest => .between low high :: readRanges rest
  | c :: rest => .one c :: readRanges rest
  | [] => []

/-- What stands before a closing bracket, and what follows it. The first character is no closing
bracket. -/
def takeClass : List Char → Option (List Char × List Char)
  | [] => none
  | first :: rest =>
    let more := rest.takeWhile (· ≠ ']')
    match rest.drop more.length with
    | [] => none
    | _ :: after => some (first :: more, after)

/-- The tokens of a name pattern. Two stars side by side are not taken, nor is a bracket that
nothing closes. -/
def readTokens : Nat → List Char → Option (List Token)
  | 0, _ => none
  | _, [] => some []
  | _ + 1, '*' :: '*' :: _ => none
  | fuel + 1, '*' :: rest => (readTokens fuel rest).map (.anyText :: ·)
  | fuel + 1, '?' :: rest => (readTokens fuel rest).map (.anyChar :: ·)
  | fuel + 1, '[' :: '!' :: rest =>
    match takeClass rest with
    | none => none
    | some (inside, after) => (readTokens fuel after).map (.except (readRanges inside) :: ·)
  | fuel + 1, '[' :: rest =>
    match takeClass rest with
    | none => none
    | some (inside, after) => (readTokens fuel after).map (.within (readRanges inside) :: ·)
  | fuel + 1, c :: rest => (readTokens fuel rest).map (.char c :: ·)

def tokensOf? (s : List Char) : Option (List Token) := readTokens (s.length + 1) s

def Step.ofText? (s : List Char) : Option Step :=
  if s = ['*', '*'] then some .anywhere else (tokensOf? s).map .name

def plainText? (tokens : List Token) : Option (List Char) :=
  tokens.mapM fun t =>
    match t with
    | .char c => some c
    | _ => none

def isPattern (s : List Char) : Bool := s.any fun c => c = '*' || c = '?' || c = '['

end Retest.Glob
