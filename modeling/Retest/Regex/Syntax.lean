import Retest.Regex.Bracket
import Retest.Regex.Room
import Retest.Unicode.Letter

namespace Retest.Regex

/-- A finished piece of a pattern and how deep groups, repetitions and lists are nested in it. Flags
that stand alone are pieces that cannot be repeated. -/
structure Piece where
  pattern : Pattern
  depth : Nat
  repeatable : Bool := true
  deriving Repr, DecidableEq

/-- The alternatives of an open group: those that are complete, and the pieces of the current one,
each list with its last element first. -/
structure Alternatives where
  complete : List Piece := []
  pieces : List Piece := []
  deriving Repr, DecidableEq

def deepest (l : List Piece) : Nat := l.foldl (fun d p => max d p.depth) 0

def sequence : List Piece → Piece
  | [] => ⟨.empty, 0, true⟩
  | [p] => p
  | ps => ⟨ps.foldl (fun acc p => .seq p.pattern acc) .empty, 1 + deepest ps, true⟩

namespace Alternatives

def add (a : Alternatives) (p : Piece) : Alternatives := { a with pieces := p :: a.pieces }

def next (a : Alternatives) : Alternatives := ⟨sequence a.pieces :: a.complete, []⟩

def close (a : Alternatives) : Piece :=
  let last := sequence a.pieces
  match a.complete with
  | [] => last
  | ps =>
    ⟨ps.foldl (fun acc p => .alt p.pattern acc) last.pattern, 1 + deepest (last :: ps), true⟩

end Alternatives

/-- An open group with what surrounds it: the alternatives outside and the mode that comes back when
it closes. -/
structure OpenGroup where
  outside : Alternatives
  mode : Mode
  captures : Bool
  deriving Repr, DecidableEq

/-- Where a reader stands: the mode, the alternatives of the innermost group, the groups that are
open, and the group names in use. -/
structure Progress where
  mode : Mode := {}
  here : Alternatives := {}
  groups : List OpenGroup := []
  names : List (List Char) := []
  deriving Repr, DecidableEq

namespace Progress

def add (g : Progress) (p : Piece) : Progress := { g with here := g.here.add p }

def openGroup (g : Progress) (inside : Mode) (captures : Bool) : Progress :=
  { g with mode := inside, here := {}, groups := ⟨g.here, g.mode, captures⟩ :: g.groups }

def closeGroup (g : Progress) : Except SyntaxError Progress :=
  match g.groups with
  | [] => .error .groupUnopened
  | o :: more =>
    let inner := g.here.close
    .ok { g with
      mode := o.mode
      here := o.outside.add ⟨.group o.captures inner.pattern, 1 + inner.depth, true⟩
      groups := more }

def repeatLast (g : Progress) (min : Nat) (max : Option Nat) : Except SyntaxError Progress :=
  match g.here.pieces with
  | [] => .error .nothingToRepeat
  | p :: more =>
    if p.repeatable then
      .ok { g with here := { g.here with
        pieces := ⟨.times p.pattern min max, 1 + p.depth, true⟩ :: more } }
    else .error .nothingToRepeat

end Progress

/-- Letters, in the wide sense, and underscores begin a group name; numbers, dots and brackets can
follow. -/
def isNameChar (leading : Bool) (c : Char) : Bool :=
  c = '_' || Unicode.letter.contains c ||
    (!leading && (c = '.' || c = '[' || c = ']' || Unicode.number.contains c))

def groupName : List Char → List Char → Except SyntaxError (List Char × List Char)
  | _, [] => .error .unexpectedEnd
  | acc, c :: rest =>
    if c = '>' then (if acc = [] then .error .badGroupName else .ok (acc.reverse, rest))
    else if isNameChar acc.isEmpty c then groupName (c :: acc) rest
    else .error .badGroupName

def namedGroup (g : Progress) (s : List Char) : Except SyntaxError (Progress × List Char) := do
  let (name, rest) ← groupName [] s
  if g.names.contains name then .error .badGroupName
  else return ({ g with names := name :: g.names }.openGroup g.mode true, rest)

/-- What follows an opening parenthesis. Flags without a colon hold from here to the end of the
group around them. -/
def readGroup (g : Progress) (s : List Char) : Except SyntaxError (Progress × List Char) :=
  match g.mode.skip s with
  | '?' :: '=' :: _ | '?' :: '!' :: _ | '?' :: '<' :: '=' :: _ | '?' :: '<' :: '!' :: _ =>
    .error .lookAround
  | '?' :: 'P' :: '<' :: rest => namedGroup g rest
  | '?' :: '<' :: rest => namedGroup g rest
  | '?' :: rest => do
    let (mode, used, ending, more) ← readFlags g.mode [] false false rest
    match ending with
    | .group => return (g.openGroup mode false, more)
    | .alone =>
      if used = [] then .error .nothingToRepeat
      else return ({ g with mode := mode }.add ⟨.empty, 0, false⟩, more)
  | s => .ok (g.openGroup g.mode true, s)

/-- A count of a repetition: decimal digits with blanks around them, below 2 to the 32. -/
def decimalLoop (m : Mode) : Nat → Option Nat → List Char → Option Nat × List Char
  | 0, n, s => (n, s)
  | _ + 1, n, [] => (n, [])
  | fuel + 1, n, c :: rest =>
    if c.isDigit then decimalLoop m fuel (some (n.getD 0 * 10 + (c.toNat - 48))) (m.skip rest)
    else (n, c :: rest)

def countOf (m : Mode) (s : List Char) : Except SyntaxError Nat × List Char :=
  let s := s.dropWhile isBlank
  let (n, s) := decimalLoop m (s.length + 1) none s
  let s := s.dropWhile isBlank
  let s := if m.spaced then m.skip s else s
  match n with
  | none => (.error .badRepetition, s)
  | some k => (if k < 0x100000000 then .ok k else .error .badRepetition, s)

def skipPreference : List Char → List Char
  | '?' :: rest => rest
  | s => s

def readCounts (m : Mode) (s : List Char) :
    Except SyntaxError ((Nat × Option Nat) × List Char) :=
  match m.skip s with
  | [] => .error .badRepetition
  | s =>
    match countOf m s with
    | (first, ',' :: rest) =>
      match m.skip rest with
      | '}' :: rest => do return ((← first, none), rest)
      | [] => .error .badRepetition
      | rest =>
        match countOf m rest with
        | (second, '}' :: rest) => do
          let low ← first
          let high ← second
          if high < low then .error .badRepetition else return ((low, some high), rest)
        | _ => .error .badRepetition
    | (first, '}' :: rest) => do
      let n ← first
      return ((n, some n), rest)
    | _ => .error .badRepetition

def readStep (g : Progress) (c : Char) (rest : List Char) :
    Except SyntaxError (Progress × List Char) :=
  match c with
  | '(' => readGroup g rest
  | ')' => do return (← g.closeGroup, rest)
  | '|' => .ok ({ g with here := g.here.next }, rest)
  | '[' => do
    let (n, rest) ← bracketClass g.mode rest
    return (g.add ⟨.oneOf n.chars, n.depth, true⟩, rest)
  | '?' => do return (← g.repeatLast 0 (some 1), skipPreference rest)
  | '*' => do return (← g.repeatLast 0 none, skipPreference rest)
  | '+' => do return (← g.repeatLast 1 none, skipPreference rest)
  | '{' =>
    match g.here.pieces with
    | [] => .error .nothingToRepeat
    | _ => do
      let ((min, max), rest) ← readCounts g.mode rest
      return (← g.repeatLast min max, skipPreference (g.mode.skip rest))
  | '\\' => do
    let (atom, rest) ← escape g.mode rest
    return (g.add ⟨← atom.pattern g.mode, 0, true⟩, rest)
  | c => do return (g.add ⟨← (plainAtom g.mode c).pattern g.mode, 0, true⟩, rest)

def readAll : Nat → Progress → List Char → Except SyntaxError Progress
  | 0, g, _ => .ok g
  | fuel + 1, g, s =>
    match g.mode.skip s with
    | [] => .ok g
    | c :: rest => do
      let (g, rest) ← readStep g c rest
      readAll fuel g rest

def maxDepth : Nat := 250

def Pattern.ofText (s : List Char) : Except SyntaxError Pattern := do
  let g ← readAll (s.length + 1) {} s
  match g.groups with
  | _ :: _ => .error .groupUnclosed
  | [] =>
    let p := g.here.close
    if maxDepth < p.depth then .error .nestedTooDeep
    else if p.pattern.fits then return p.pattern
    else .error .tooLarge

end Retest.Regex
