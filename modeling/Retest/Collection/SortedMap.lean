/-! Finite maps as entry lists in increasing key order, so that every map is read in one order.
Two keys that compare as equal are one key, and the first of them stays. -/

namespace Retest

universe u v w

/-- A finite map. `insert` keeps the entries in increasing key order. -/
structure SortedMap (κ : Type u) (α : Type v) where
  entries : List (κ × α) := []
  deriving Repr, DecidableEq

namespace SortedMap

variable {κ : Type u} {α : Type v} {β : Type w}

def empty : SortedMap κ α := ⟨[]⟩

instance : Inhabited (SortedMap κ α) := ⟨empty⟩

def keys (m : SortedMap κ α) : List κ := m.entries.map (·.1)

def values (m : SortedMap κ α) : List α := m.entries.map (·.2)

def size (m : SortedMap κ α) : Nat := m.entries.length

def isEmpty (m : SortedMap κ α) : Bool := m.entries.isEmpty

def mapValues (f : α → β) (m : SortedMap κ α) : SortedMap κ β :=
  ⟨m.entries.map fun e => (e.1, f e.2)⟩

def filter (p : κ → α → Bool) (m : SortedMap κ α) : SortedMap κ α :=
  ⟨m.entries.filter fun e => p e.1 e.2⟩

variable [Ord κ]

def lookup (k : κ) : List (κ × α) → Option α
  | [] => none
  | (j, a) :: rest => if (compare k j).isEq then some a else lookup k rest

def find? (m : SortedMap κ α) (k : κ) : Option α := lookup k m.entries

def contains (m : SortedMap κ α) (k : κ) : Bool := (m.find? k).isSome

/-- A key that is already there keeps its spelling and its place; only the value is replaced. -/
def insertEntry (k : κ) (a : α) : List (κ × α) → List (κ × α)
  | [] => [(k, a)]
  | (j, b) :: rest =>
    match compare k j with
    | .lt => (k, a) :: (j, b) :: rest
    | .eq => (j, a) :: rest
    | .gt => (j, b) :: insertEntry k a rest

def insert (m : SortedMap κ α) (k : κ) (a : α) : SortedMap κ α := ⟨insertEntry k a m.entries⟩

def erase (m : SortedMap κ α) (k : κ) : SortedMap κ α :=
  ⟨m.entries.filter fun e => !(compare k e.1).isEq⟩

def modify (m : SortedMap κ α) (k : κ) (f : α → α) : SortedMap κ α :=
  ⟨m.entries.map fun e => if (compare k e.1).isEq then (e.1, f e.2) else e⟩

/-- Later pairs win over earlier ones. -/
def ofList (l : List (κ × α)) : SortedMap κ α := l.foldl (fun m e => m.insert e.1 e.2) empty

/-- Entries of the second map win. -/
def union (m n : SortedMap κ α) : SortedMap κ α :=
  n.entries.foldl (fun acc e => acc.insert e.1 e.2) m

end SortedMap

end Retest
