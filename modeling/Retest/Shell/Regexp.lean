import Retest.Shell.Expand
import Retest.Shell.Format

/-! Regular expressions of line editors, in their basic and their extended form. Of all matches that
begin first, the longest counts. -/

namespace Retest.Shell

inductive Edge where
  | start
  | finish
  | word
  | inWord
  | wordStart
  | wordFinish
  deriving Repr, DecidableEq, Inhabited

inductive Regexp where
  | empty
  | within (negated : Bool) (ranges : List Glob.Range)
  | edge (e : Edge)
  | back (n : Nat)
  | group (n : Nat) (r : Regexp)
  | sequence (a b : Regexp)
  | either (a b : Regexp)
  | repeated (r : Regexp) (least : Nat) (most : Option Nat)
  deriving Repr, DecidableEq, Inhabited

namespace Regexp

structure Place where
  before : Option Char
  rest : List Char
  groups : List (Nat × List Char) := []
  deriving Repr, DecidableEq, Inhabited

def isWordChar (c : Char) : Bool := c.isAlphanum || c = '_'

def Edge.holds (p : Place) : Edge → Bool
  | .start => p.before.isNone
  | .finish => p.rest.isEmpty
  | .word => (p.before.any isWordChar) != (p.rest.head?.any isWordChar)
  | .inWord => (p.before.any isWordChar) == (p.rest.head?.any isWordChar)
  | .wordStart => !p.before.any isWordChar && p.rest.head?.any isWordChar
  | .wordFinish => p.before.any isWordChar && !p.rest.head?.any isWordChar

def distinct (l : List Place) : List Place :=
  l.foldl (fun kept p =>
    if kept.any fun q => q.rest.length = p.rest.length then kept else kept ++ [p]) []

def Place.skip (p : Place) (t : List Char) : Option Place :=
  if t.isPrefixOf p.rest then
    some { p with before := t.getLast?.or p.before, rest := p.rest.drop t.length }
  else none

def steps (step : Place → List Place) (least : Nat) (most : Option Nat) :
    Nat → Nat → Place → List Place
  | 0, _, p => [p]
  | fuel + 1, taken, p =>
    let further := if most.any fun n => n ≤ taken then []
      else distinct ((step p).flatMap fun q =>
        if q.rest.length < p.rest.length ∨ taken < least then
          steps step least most fuel (taken + 1) q
        else [])
    if least ≤ taken then distinct (further ++ [p]) else further

def ends : Regexp → Place → List Place
  | .empty, p => [p]
  | .within negated ranges, p =>
    match p.rest with
    | [] => []
    | c :: rest =>
      if (ranges.any (Glob.Range.contains c)) != negated then
        [{ p with before := some c, rest }]
      else []
  | .edge e, p => if Edge.holds p e then [p] else []
  | .back n, p =>
    match p.groups.find? fun e => e.1 = n with
    | some (_, t) => (p.skip t).toList
    | none => []
  | .group n r, p =>
    (ends r p).map fun q =>
      let taken := p.rest.take (p.rest.length - q.rest.length)
      { q with groups := (n, taken) :: q.groups.filter fun e => e.1 ≠ n }
  | .sequence a b, p => distinct ((ends a p).flatMap (ends b))
  | .either a b, p => distinct (ends a p ++ ends b p)
  | .repeated r least most, p => steps (ends r) least most (p.rest.length + least + 1) 0 p

def longest (r : Regexp) (p : Place) : Option Place :=
  (r.ends p).foldl (fun best q =>
    match best with
    | none => some q
    | some b => if q.rest.length < b.rest.length then some q else best) none

/-- The first match at a place or after it: what stands before it, and where it begins and ends. -/
def search (r : Regexp) (before : Option Char) (s : List Char) :
    Option (List Char × List Char × Place) :=
  match r.longest ⟨before, s, []⟩ with
  | some q => some ([], s.take (s.length - q.rest.length), q)
  | none =>
    match s with
    | [] => none
    | c :: rest => (r.search (some c) rest).map fun m => (c :: m.1, m.2)

def occurs (r : Regexp) (s : List Char) : Bool := (r.search none s).isSome

structure Style where
  extended : Bool := false
  ignoresCase : Bool := false
  deriving Repr, DecidableEq, Inhabited

def otherCase (c : Char) : Char := if c.isLower then Format.upper c else Format.lower c

def Style.ranges (style : Style) (l : List Glob.Range) : List Glob.Range :=
  if style.ignoresCase then
    l ++ l.flatMap fun r =>
      match r with
      | .one c => [.one (otherCase c)]
      | .between low high =>
        if low.isAlpha ∧ high.isAlpha then [.between (otherCase low) (otherCase high)] else []
  else l

def Style.literal (style : Style) (c : Char) : Regexp := .within false (style.ranges [.one c])

def wordRanges : List Glob.Range :=
  [.between 'a' 'z', .between 'A' 'Z', .between '0' '9', .one '_']

def spaceRanges : List Glob.Range := [.one ' ', .between '\t' '\r']

def escape (style : Style) (c : Char) : Regexp :=
  match c with
  | 'n' => style.literal '\n'
  | 't' => style.literal '\t'
  | 'w' => .within false wordRanges
  | 'W' => .within true wordRanges
  | 's' => .within false spaceRanges
  | 'S' => .within true spaceRanges
  | 'b' => .edge .word
  | 'B' => .edge .inWord
  | '<' => .edge .wordStart
  | '>' => .edge .wordFinish
  | c => if '1' ≤ c ∧ c ≤ '9' then .back (c.toNat - 48) else style.literal c

def takeBounds (close : List Char) (s : List Char) : Option (Nat × Option Nat × List Char) :=
  let low := s.takeWhile Char.isDigit
  let rest := s.drop low.length
  let (high, rest) : Option Nat × List Char := match rest with
    | ',' :: rest =>
      let digits := rest.takeWhile Char.isDigit
      (if digits.isEmpty then none else some (Sum.ofDigits 10 digits), rest.drop digits.length)
    | rest => (some (Sum.ofDigits 10 low), rest)
  if close.isPrefixOf rest ∧ (low ≠ [] ∨ s.head? = some ',') then
    some (Sum.ofDigits 10 low, high, rest.drop close.length)
  else none

def takeRepetition (style : Style) (s : List Char) : Option (Nat × Option Nat × List Char) :=
  match style.extended, s with
  | _, '*' :: rest => some (0, none, rest)
  | true, '+' :: rest => some (1, none, rest)
  | true, '?' :: rest => some (0, some 1, rest)
  | true, '{' :: rest => takeBounds ['}'] rest
  | false, '\\' :: '+' :: rest => some (1, none, rest)
  | false, '\\' :: '?' :: rest => some (0, some 1, rest)
  | false, '\\' :: '{' :: rest => takeBounds ['\\', '}'] rest
  | _, _ => none

def readRepetitions (style : Style) : Nat → Regexp → List Char → Regexp × List Char
  | 0, r, s => (r, s)
  | fuel + 1, r, s =>
    match takeRepetition style s with
    | some (least, most, rest) => readRepetitions style fuel (.repeated r least most) rest
    | none => (r, s)

def afterBar? (style : Style) (s : List Char) : Option (List Char) :=
  match style.extended, s with
  | true, '|' :: rest => some rest
  | false, '\\' :: '|' :: rest => some rest
  | _, _ => none

def afterOpen? (style : Style) (s : List Char) : Option (List Char) :=
  match style.extended, s with
  | true, '(' :: rest => some rest
  | false, '\\' :: '(' :: rest => some rest
  | _, _ => none

def afterClose? (style : Style) (s : List Char) : Option (List Char) :=
  match style.extended, s with
  | true, ')' :: rest => some rest
  | false, '\\' :: ')' :: rest => some rest
  | _, _ => none

def readBracket (style : Style) (s : List Char) : Option (Regexp × List Char) :=
  let (negated, inside) := match s with
    | '^' :: inside => (true, inside)
    | inside => (false, inside)
  (takeRanges (inside.length + 1) true (inside.map fun c => (c, false))).map fun r =>
    (.within negated (style.ranges r.1), r.2.map (·.1))

mutual

def readEither (style : Style) : Nat → Nat → List Char → Option (Regexp × Nat × List Char)
  | 0, _, _ => none
  | fuel + 1, n, s => do
    let (first, n, rest) ← readSequence style fuel true n s
    match afterBar? style rest with
    | none => return (first, n, rest)
    | some rest =>
      let (second, n, rest) ← readEither style fuel n rest
      return (.either first second, n, rest)

def readSequence (style : Style) :
    Nat → Bool → Nat → List Char → Option (Regexp × Nat × List Char)
  | 0, _, _, _ => none
  | fuel + 1, atStart, n, s =>
    if s.isEmpty || (afterBar? style s).isSome || (afterClose? style s).isSome && n ≠ 1 then
      some (.empty, n, s)
    else
      match s with
      | '^' :: rest =>
        if atStart || style.extended then do
          let (more, n, rest) ← readSequence style fuel true n rest
          return (.sequence (.edge .start) more, n, rest)
        else readItem style fuel atStart n s
      | '$' :: rest =>
        if style.extended || rest.isEmpty || (afterBar? style rest).isSome
            || (afterClose? style rest).isSome then do
          let (more, n, rest) ← readSequence style fuel false n rest
          return (.sequence (.edge .finish) more, n, rest)
        else readItem style fuel atStart n s
      | _ => readItem style fuel atStart n s

def readItem (style : Style) :
    Nat → Bool → Nat → List Char → Option (Regexp × Nat × List Char)
  | 0, _, _, _ => none
  | fuel + 1, atStart, n, s => do
    let (first, n, rest) ← match afterOpen? style s with
      | some inside => do
        let (r, m, rest) ← readEither style fuel (n + 1) inside
        match afterClose? style rest with
        | some rest => some (.group n r, m, rest)
        | none => none
      | none =>
        match s with
        | [] => none
        | '.' :: rest => some (.within true [], n, rest)
        | '[' :: rest => (readBracket style rest).map fun r => (r.1, n, r.2)
        | ['\\'] => none
        | '\\' :: c :: rest =>
          if !style.extended && (c = '{' || c = ')') && !atStart then none
          else some (escape style c, n, rest)
        | c :: rest =>
          if style.extended && (c = '*' || c = '+' || c = '?') then
            if atStart && c = '*' then some (style.literal c, n, rest) else none
          else some (style.literal c, n, rest)
    let (first, rest) := readRepetitions style rest.length first rest
    let (more, n, rest) ← readSequence style fuel false n rest
    return (.sequence first more, n, rest)

end

def ofText? (style : Style) (s : List Char) : Option Regexp :=
  match readEither style (8 * s.length + 16) 1 s with
  | some (r, _, []) => some r
  | _ => none

end Regexp

end Retest.Shell
