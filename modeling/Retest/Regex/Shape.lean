import Retest.Regex.Pattern

/-! The normal form of a pattern from which its automaton is built: neighbouring literals are one
literal, alternatives of single characters are one class, and what all alternatives begin with
stands before them. -/

namespace Retest.Regex

/-- A pattern in normal form. Sequences and alternatives lean to the right: neither is the left part
of one of its own kind. -/
inductive Shape where
  | empty
  | literal (text : List Char)
  | oneOf (ranges : List (Nat × Nat))
  | assertion (a : Assertion)
  | capture (s : Shape)
  | times (s : Shape) (min : Nat) (max : Option Nat)
  | seq (s t : Shape)
  | alt (s t : Shape)
  deriving Repr, DecidableEq

def surrogates : CharSet := .range 0xD800 0xDFFF

namespace Shape

def ofSet (s : CharSet) : Shape :=
  match (s.diff surrogates).ranges with
  | [(low, high)] =>
    if low = high then .literal [Char.ofNat low] else .oneOf [(low, high)]
  | ranges => .oneOf ranges

/-- The least number of bytes that matches consist of, or none if that is not known because a part
never matches. Only whether it is zero matters. -/
def least : Shape → Option Nat
  | .empty | .assertion _ => some 0
  | .literal text => some text.length
  | .oneOf ranges => if ranges = [] then none else some 1
  | .capture s => s.least
  | .times s min _ => s.least.map (min * ·)
  | .seq s t => do return (← s.least) + (← t.least)
  | .alt s t => do return Nat.min (← s.least) (← t.least)

/-- The greatest number of bytes that matches consist of, or none if there is none or it is not
known. Only whether it is zero matters. -/
def most : Shape → Option Nat
  | .empty | .assertion _ => some 0
  | .literal text => some text.length
  | .oneOf ranges => if ranges = [] then none else some 1
  | .capture s => s.most
  | .times s _ max => do return (← s.most) * (← max)
  | .seq s t => do return (← s.most) + (← t.most)
  | .alt s t => do return Nat.max (← s.most) (← t.most)

def isHollow (s : Shape) : Bool := s.most = some 0

/-- Whether every match begins with an assertion. What comes behind hollow parts counts, too. -/
def beginsWith (a : Assertion) : Shape → Bool
  | .assertion b => a = b
  | .capture s => s.beginsWith a
  | .times s min _ => 0 < min && s.beginsWith a
  | .seq s t => s.beginsWith a || (s.isHollow && t.beginsWith a)
  | .alt s t => s.beginsWith a && t.beginsWith a
  | _ => false

def endsWith (a : Assertion) : Shape → Bool
  | .assertion b => a = b
  | .capture s => s.endsWith a
  | .times s min _ => 0 < min && s.endsWith a
  | .seq s t => t.endsWith a || (t.isHollow && s.endsWith a)
  | .alt s t => s.endsWith a && t.endsWith a
  | _ => false

def append : Shape → Shape → Shape
  | .empty, t => t
  | .seq s rest, t => .seq s (rest.append t)
  | s, .empty => s
  | .literal a, .literal b => .literal (a ++ b)
  | .literal a, .seq (.literal b) rest => .seq (.literal (a ++ b)) rest
  | s, t => .seq s t

def concat (l : List Shape) : Shape := l.foldr append .empty

def parts : Shape → List Shape
  | .seq s t => s :: t.parts
  | s => [s]

def branches : Shape → List Shape
  | .alt s t => s :: t.branches
  | s => [s]

def ofBranches : List Shape → Shape
  | [] => .oneOf []
  | [s] => s
  | s :: rest => .alt s (ofBranches rest)

def classSet? : Shape → Option CharSet
  | .oneOf ranges => some (.ofRanges ranges)
  | _ => none

def charSet? : Shape → Option CharSet
  | .literal [c] => some (.single c)
  | _ => none

/-- Whether a shape keeps what it matched. Two such shapes are never the same. -/
def keeps : Shape → Bool
  | .capture _ => true
  | .times s _ _ => s.keeps
  | .seq s t | .alt s t => s.keeps || t.keeps
  | _ => false

def commonParts : List Shape → List Shape → List Shape
  | s :: ss, t :: ts => if s = t ∧ !s.keeps then s :: commonParts ss ts else []
  | _, _ => []

def isSequence : Shape → Bool
  | .seq _ _ => true
  | _ => false

/-- The parts with which all of some shapes begin. They have to be sequences. -/
def sharedParts : List Shape → List Shape
  | [] => []
  | s :: rest =>
    if (s :: rest).all isSequence then rest.foldl (fun l t => commonParts l t.parts) s.parts else []

/-- One shape for some alternatives. Each step in which the fuel is used moves a part in front of
the alternatives. -/
def choose : Nat → List Shape → Shape
  | 0, l => ofBranches l
  | _ + 1, [s] => s
  | fuel + 1, l =>
    let l := l.flatMap branches
    match l.mapM charSet?, l.mapM classSet? with
    | some sets, _ | none, some sets => ofSet (.unions sets)
    | none, none =>
      match sharedParts l with
      | [] => ofBranches l
      | shared =>
        concat (shared ++ [choose fuel (l.map fun s => concat (s.parts.drop shared.length))])

def repeated (s : Shape) (min : Nat) (max : Option Nat) : Shape :=
  let (min, max) :=
    if s.isHollow then (Nat.min min 1, some ((max.map fun n => Nat.min n 1).getD 1))
    else (min, max)
  if min = 0 ∧ max = some 0 then .empty
  else if min = 1 ∧ max = some 1 then s
  else .times s min max

end Shape

def Pattern.partCount : Pattern → Nat
  | .empty | .oneOf _ | .assertion _ => 1
  | .group _ p | .times p _ _ => p.partCount + 1
  | .seq p q | .alt p q => p.partCount + q.partCount + 1

def Pattern.alternatives : Pattern → List Shape
  | .empty => [.empty]
  | .oneOf s => [.ofSet s]
  | .assertion a => [.assertion a]
  | .group captures p =>
    let s := Shape.choose p.partCount p.alternatives
    [if captures then .capture s else s]
  | .times p min max => [(Shape.choose p.partCount p.alternatives).repeated min max]
  | .seq p q =>
    [(Shape.choose p.partCount p.alternatives).append (Shape.choose q.partCount q.alternatives)]
  | .alt p q => Shape.choose p.partCount p.alternatives :: q.alternatives

def Pattern.shape (p : Pattern) : Shape := Shape.choose p.partCount p.alternatives

end Retest.Regex
