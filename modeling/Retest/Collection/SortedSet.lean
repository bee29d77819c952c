namespace Retest

universe u

/-- A finite set. `insert` keeps the members in increasing order. -/
structure SortedSet (α : Type u) where
  toList : List α := []
  deriving Repr, DecidableEq

namespace SortedSet

variable {α : Type u}

def empty : SortedSet α := ⟨[]⟩

instance : Inhabited (SortedSet α) := ⟨empty⟩

def size (s : SortedSet α) : Nat := s.toList.length

def isEmpty (s : SortedSet α) : Bool := s.toList.isEmpty

def filter (p : α → Bool) (s : SortedSet α) : SortedSet α := ⟨s.toList.filter p⟩

variable [Ord α]

def contains (s : SortedSet α) (a : α) : Bool := s.toList.any fun b => (compare a b).isEq

/-- A member that is already there stays as it is spelled. -/
def insertMember (a : α) : List α → List α
  | [] => [a]
  | b :: rest =>
    match compare a b with
    | .lt => a :: b :: rest
    | .eq => b :: rest
    | .gt => b :: insertMember a rest

def insert (s : SortedSet α) (a : α) : SortedSet α := ⟨insertMember a s.toList⟩

def erase (s : SortedSet α) (a : α) : SortedSet α :=
  ⟨s.toList.filter fun b => !(compare a b).isEq⟩

def ofList (l : List α) : SortedSet α := l.foldl insert empty

def union (s t : SortedSet α) : SortedSet α := t.toList.foldl insert s

end SortedSet

end Retest
