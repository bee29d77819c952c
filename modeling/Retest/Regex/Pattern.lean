import Retest.Unicode.Property

/-! Patterns over text and where their matches end. A match is a path from one spot of a text to a
later one, and a pattern is read as what it does to a set of spots. -/

namespace Retest.Regex

/-- What can be asserted about a spot. Word assertions know letters of all scripts or of ASCII
only. -/
inductive Assertion where
  | textStart
  | textEnd
  | lineStart
  | lineEnd
  | wideLineStart
  | wideLineEnd
  | wordBoundary (wide : Bool)
  | notWordBoundary (wide : Bool)
  | wordStart (wide : Bool)
  | wordEnd (wide : Bool)
  | wordStartHalf (wide : Bool)
  | wordEndHalf (wide : Bool)
  deriving Repr, DecidableEq

/-- What a text is matched with. The brackets of a group change nothing about its matches, but a
group can ask for what it matched to be kept. -/
inductive Pattern where
  | empty
  | oneOf (s : CharSet)
  | assertion (a : Assertion)
  | group (captures : Bool) (p : Pattern)
  | seq (p q : Pattern)
  | alt (p q : Pattern)
  | times (p : Pattern) (min : Nat) (max : Option Nat)
  deriving Repr, DecidableEq, Inhabited

/-- A spot between the characters of a text: the character before it and the text behind it. -/
structure Spot where
  before : Option Char
  rest : List Char
  deriving Repr, DecidableEq

namespace Spot

def start (s : List Char) : Spot := ⟨none, s⟩

def after (p : Spot) : Option Char := p.rest.head?

def onward : Option Char → List Char → List Spot
  | before, [] => [⟨before, []⟩]
  | before, c :: rest => ⟨before, c :: rest⟩ :: onward (some c) rest

end Spot

def isWord (wide : Bool) (c : Char) : Bool :=
  if wide then
    (if c.toNat < 0x80 then c.isAlphanum || c = '_' else Unicode.wordChar.contains c)
  else c.isAlphanum || c = '_'

namespace Assertion

/-- Whether an assertion holds between two characters, of which the ends of the text have none. A
wide line ends at a carriage return, a line feed, or both in this order. -/
def holds : Assertion → Option Char → Option Char → Bool
  | .textStart, before, _ => before.isNone
  | .textEnd, _, after => after.isNone
  | .lineStart, before, _ => before.isNone || before = some '\n'
  | .lineEnd, _, after => after.isNone || after = some '\n'
  | .wideLineStart, before, after =>
    before.isNone || before = some '\n' || (before = some '\r' && after ≠ some '\n')
  | .wideLineEnd, before, after =>
    after.isNone || after = some '\r' || (after = some '\n' && before ≠ some '\r')
  | .wordBoundary w, before, after => before.any (isWord w) != after.any (isWord w)
  | .notWordBoundary w, before, after => before.any (isWord w) == after.any (isWord w)
  | .wordStart w, before, after => !before.any (isWord w) && after.any (isWord w)
  | .wordEnd w, before, after => before.any (isWord w) && !after.any (isWord w)
  | .wordStartHalf w, before, _ => !before.any (isWord w)
  | .wordEndHalf w, _, after => !after.any (isWord w)

end Assertion

def distinct (l : List Spot) : List Spot :=
  (l.foldl (fun acc p => if acc.contains p then acc else p :: acc) []).reverse

/-- Applies a step over and over, for so many rounds at most, and gathers all that is reached. Only
spots that are new take part in the next round. -/
def spread (step : List Spot → List Spot) : Nat → List Spot → List Spot → List Spot
  | 0, seen, _ => seen
  | _ + 1, seen, [] => seen
  | rounds + 1, seen, fresh =>
    let next := (step fresh).filter fun p => !seen.contains p
    spread step rounds (seen ++ next) next

def iterate (step : List Spot → List Spot) : Nat → List Spot → List Spot
  | 0, s => s
  | _ + 1, [] => []
  | n + 1, s => iterate step n (step s)

/-- More rounds than this reach no further spot: every match that is not empty uses up a character,
and empty ones can be repeated at will. -/
def roundsFor (s : List Spot) : Nat := s.foldl (fun n p => max n (p.rest.length + 1)) 0

def Pattern.advance : Pattern → List Spot → List Spot
  | .empty, s => s
  | .oneOf cs, s =>
    s.filterMap fun p =>
      match p.rest with
      | [] => none
      | c :: rest => if cs.contains c then some ⟨some c, rest⟩ else none
  | .assertion a, s => s.filter fun p => a.holds p.before p.after
  | .group _ p, s => p.advance s
  | .seq p q, s => q.advance (p.advance s)
  | .alt p q, s => distinct (p.advance s ++ q.advance s)
  | .times p min max, s =>
    let rounds := roundsFor s
    let first := iterate (fun t => distinct (p.advance t)) (Nat.min min rounds) s
    let more := match max with
      | none => rounds
      | some m => Nat.min (m - min) rounds
    spread (fun t => distinct (p.advance t)) more first first

def Pattern.matchesIn (p : Pattern) (text : List Char) : Bool :=
  !(p.advance (Spot.onward none text)).isEmpty

def Pattern.matchesAtStart (p : Pattern) (text : List Char) : Bool :=
  !(p.advance [Spot.start text]).isEmpty

end Retest.Regex
