import Retest.Proofs.PathLookup
import Retest.Proofs.Relisting
import Retest.Proofs.Scan

namespace Retest
open Std

inductive WatchMove where
  | setRoots (roots : List Path)
  | clear
  | scan (tree : FileTree) (opens : Path → Bool)
  deriving Inhabited

def WatchMove.Tidy : WatchMove → Prop
  | .setRoots _ | .clear => True
  | .scan tree _ => tree.root.Tidy

namespace Watchlist

def act (w : Watchlist) : WatchMove → Watchlist
  | .setRoots roots => w.setRoots roots
  | .clear => w.clear
  | .scan tree opens => (w.scan tree opens).1

/-- The watchlist that some moves lead to. Nothing is tracked before the first of them. -/
def after (roots : List Path) (moves : List WatchMove) : Watchlist := moves.foldl act { roots }

section Named

variable (w : Watchlist)

end Named

section Scan

variable (w : Watchlist) (t : FileTree) (opens : Path → Bool)

end Scan

namespace Sample

def file (second : Int) : FileNode := .file [] ⟨second, 0⟩

def before : FileTree :=
  ⟨.directory [("c", .directory [("A.class", file 1), ("B.class", file 1)])], []⟩

def entries : List (String × FileNode) :=
  [("p", .directory [("C.class", file 2)]), ("B.class", file 2)]

def later : FileTree := ⟨.directory [("c", .directory entries)], []⟩

def relisted : FileTree := ⟨.directory [("c", .directory entries.reverse)], []⟩

def roots : List Path := [⟨"c"⟩, ⟨"c/p"⟩, ⟨"d"⟩]

def moves : List WatchMove := [.scan before FileTree.fits]

end Sample

namespace Sample

def dotted (n : Nat) : List Char := (List.replicate n ['/', '.']).flatten

def longName (n : Nat) : String := String.ofList (List.replicate n '_')

def bottom : FileNode := .directory [("B.class", file 1)]

def deep : FileTree := ⟨.directory [("c", .directory [(longName 255, bottom)])], []⟩

end Sample

end Watchlist

end Retest
