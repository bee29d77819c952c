/-! Sets of characters, kept as the code points at which membership changes. -/

namespace Retest

/-- A set of characters: the code points at which membership changes, in increasing order. Below the
first of them nothing is in the set. -/
structure CharSet where
  edges : List Nat
  deriving Repr, DecidableEq, Inhabited

namespace CharSet

def within (inside : Bool) : List Nat → Nat → Bool
  | [], _ => inside
  | e :: edges, n => if n < e then inside else within (!inside) edges n

def hasCode (s : CharSet) (n : Nat) : Bool := within false s.edges n

def contains (s : CharSet) (c : Char) : Bool := s.hasCode c.toNat

def none : CharSet := ⟨[]⟩

def all : CharSet := ⟨[0, 0x110000]⟩

def range (low high : Nat) : CharSet := if high < low then none else ⟨[low, high + 1]⟩

def single (c : Char) : CharSet := .range c.toNat c.toNat

/-- The edges of a combination of two sets: those edges at which the combined membership changes.
The flags say whether what is before the edges belongs to each of the two. -/
def combineEdges (op : Bool → Bool → Bool) (inA inB : Bool) : List Nat → List Nat → List Nat
  | [], [] => []
  | a :: as, [] =>
    let rest := combineEdges op (!inA) inB as []
    if op inA inB = op (!inA) inB then rest else a :: rest
  | [], b :: bs =>
    let rest := combineEdges op inA (!inB) [] bs
    if op inA inB = op inA (!inB) then rest else b :: rest
  | a :: as, b :: bs =>
    if a < b then
      let rest := combineEdges op (!inA) inB as (b :: bs)
      if op inA inB = op (!inA) inB then rest else a :: rest
    else if b < a then
      let rest := combineEdges op inA (!inB) (a :: as) bs
      if op inA inB = op inA (!inB) then rest else b :: rest
    else
      let rest := combineEdges op (!inA) (!inB) as bs
      if op inA inB = op (!inA) (!inB) then rest else a :: rest
  termination_by as bs => as.length + bs.length

def combine (op : Bool → Bool → Bool) (a b : CharSet) : CharSet :=
  ⟨combineEdges op false false a.edges b.edges⟩

def union (a b : CharSet) : CharSet := combine (· || ·) a b

def inter (a b : CharSet) : CharSet := combine (· && ·) a b

def diff (a b : CharSet) : CharSet := combine (fun x y => x && !y) a b

def symmDiff (a b : CharSet) : CharSet := combine (· != ·) a b

def negate (s : CharSet) : CharSet := .diff .all s

def negateIf (negated : Bool) (s : CharSet) : CharSet := if negated then s.negate else s

def unions (l : List CharSet) : CharSet := l.foldr union .none

/-- The set of the ranges in a list. They are closed and given by code point. -/
def ofRanges (l : List (Nat × Nat)) : CharSet := unions (l.map fun r => range r.1 r.2)

def rangesBetween : List Nat → List (Nat × Nat)
  | low :: high :: edges => (low, high - 1) :: rangesBetween edges
  | _ => []

def ranges (s : CharSet) : List (Nat × Nat) := rangesBetween s.edges

end CharSet

namespace Unicode

def numbersOf (s : List Char) : List Nat :=
  let step (acc : List Nat × Nat) (c : Char) : List Nat × Nat :=
    if c = ' ' then (acc.2 :: acc.1, 0) else (acc.1, acc.2 * 10 + (c.toNat - 48))
  let last := s.foldl step ([], 0)
  (last.2 :: last.1).reverse

def readNumbers (lines : List String) : List Nat := lines.flatMap fun s => numbersOf s.toList

def runningSums (sum : Nat) : List Nat → List Nat
  | [] => []
  | n :: rest => (sum + n) :: runningSums (sum + n) rest

/-- The set that some lines write down by how many characters are skipped, how many are taken, how
many are skipped again, and so on. -/
def readSet (lines : List String) : CharSet := ⟨runningSums 0 (readNumbers lines)⟩

structure NamedSet where
  names : List String
  lines : List String

def NamedSet.chars (s : NamedSet) : CharSet := readSet s.lines

def charsNamed? (table : List NamedSet) (name : String) : Option CharSet :=
  (table.find? fun s => s.names.contains name).map (·.chars)

end Unicode

end Retest
