import Retest.Collection.SortedMap

namespace Retest

/-- One step of a path. Steps are ordered as the constructors are listed, names by their text. -/
inductive Component where
  | root
  | current
  | parent
  | normal (name : String)
  deriving Repr, DecidableEq, Inhabited

namespace Component

def rank : Component → Nat
  | .root => 0
  | .current => 1
  | .parent => 2
  | .normal _ => 3

def order : Component → Component → Ordering
  | .normal a, .normal b => compare a b
  | c, d => compare c.rank d.rank

instance : Ord Component := ⟨order⟩

end Component

/-- A path keeps its spelling. Two spellings of the same components are the same path. Names are
text: one that is not valid UTF-8 has no path here. -/
structure Path where
  text : String
  deriving Repr, DecidableEq, Inhabited

namespace Path

def pieces : List Char → List (List Char)
  | [] => [[]]
  | c :: rest =>
    if c = '/' then [] :: pieces rest
    else
      match pieces rest with
      | [] => [[c]]
      | piece :: more => (c :: piece) :: more

def isAbsolute (p : Path) : Bool := p.text.toList.head? == some '/'

def component? (piece : List Char) : Option Component :=
  if piece = [] ∨ piece = ['.'] then none
  else if piece = ['.', '.'] then some .parent
  else some (.normal (String.ofList piece))

/-- The components of a path. A leading dot counts only on a relative path. -/
def components (p : Path) : List Component :=
  match pieces p.text.toList with
  | [] => []
  | head :: rest =>
    let start : List Component :=
      if p.isAbsolute then [.root]
      else if head = ['.'] then [.current]
      else (component? head).toList
    start ++ rest.filterMap component?

def compareComponents : List Component → List Component → Ordering
  | [], [] => .eq
  | [], _ :: _ => .lt
  | _ :: _, [] => .gt
  | c :: cs, d :: ds => (compare c d).then (compareComponents cs ds)

instance : Ord Path := ⟨fun p q => compareComponents p.components q.components⟩

def same (p q : Path) : Bool := (compare p q).isEq

def isUnder (p dir : Path) : Bool := dir.components.isPrefixOf p.components

/-- An absolute path stands for itself; a relative one is appended, with a slash unless the first
path is empty or ends in one. -/
def join (base : Path) (tail : String) : Path :=
  if tail.toList.head? = some '/' then ⟨tail⟩
  else if base.text.toList = [] ∨ base.text.toList.getLast? = some '/' then ⟨base.text ++ tail⟩
  else ⟨base.text ++ "/" ++ tail⟩

def fileName (p : Path) : Option String :=
  match p.components.getLast? with
  | some (.normal name) => some name
  | _ => none

/-- Cuts a file name at its last dot. A name whose only dot leads it has no extension. -/
def splitExtension (name : List Char) : List Char × Option (List Char) :=
  let tail := (name.reverse.takeWhile (· ≠ '.')).reverse
  let stem := name.take (name.length - tail.length - 1)
  if tail.length = name.length ∨ stem = [] then (name, none) else (stem, some tail)

def fileStem (p : Path) : Option String :=
  p.fileName.map fun name => String.ofList (splitExtension name.toList).1

def extension (p : Path) : Option String :=
  p.fileName.bind fun name => (splitExtension name.toList).2.map String.ofList

/-- Drops slashes, and dots that stand alone, from the end of a reversed text; what begins the path
stays. -/
def trimTail : List Char → List Char
  | [] => []
  | ['/'] => ['/']
  | '/' :: rest => trimTail rest
  | ['.'] => ['.']
  | ['.', '/'] => ['/']
  | '.' :: '/' :: rest => trimTail rest
  | s => s

def parent (p : Path) : Option Path :=
  match p.components.getLast? with
  | none => none
  | some .root => none
  | some _ =>
    let back := trimTail p.text.toList.reverse
    let rest := back.dropWhile (· ≠ '/')
    some ⟨String.ofList (trimTail rest).reverse⟩

end Path

end Retest
