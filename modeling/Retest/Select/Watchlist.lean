import Retest.Collection.SortedMap
import Retest.Collection.SortedSet
import Retest.FileTree
import Retest.Unicode.Letter

namespace Retest

structure Changes where
  changed : SortedSet Path := .empty
  removed : SortedSet Path := .empty
  deriving Repr, DecidableEq, Inhabited

namespace Changes

def isEmpty (c : Changes) : Bool := c.changed.isEmpty && c.removed.isEmpty

def all (c : Changes) : List Path := c.changed.toList ++ c.removed.toList

end Changes

def Path.isClassFile (p : Path) : Bool := p.extension = some "class"

/-- Directories of packages begin like an identifier: with a letter, an underscore or a dollar
sign. Others are not entered. -/
def isPackageName (name : String) : Bool :=
  match name.toList with
  | [] => false
  | c :: _ => Unicode.letter.contains c || c = '_' || c = '$'

mutual

/-- The class files below a directory, each with the time of its last change. A directory that
cannot be opened is skipped. -/
def FileNode.classFiles (opens : Path → Bool) (dir : Path) : FileNode → List (Path × Timestamp)
  | .file .. => []
  | .directory entries => if opens dir then classFilesIn opens dir entries else []

def classFilesIn (opens : Path → Bool) (dir : Path) :
    List (String × FileNode) → List (Path × Timestamp)
  | [] => []
  | (name, node) :: rest => classFilesAt opens dir name node ++ classFilesIn opens dir rest

def classFilesAt (opens : Path → Bool) (dir : Path) (name : String) :
    FileNode → List (Path × Timestamp)
  | .file _ modified =>
    if (dir.join name).isClassFile then [(dir.join name, modified)] else []
  | .directory entries =>
    if isPackageName name && opens (dir.join name) then classFilesIn opens (dir.join name) entries
    else []

end

structure Watchlist where
  roots : List Path := []
  tracked : SortedMap Path Timestamp := .empty
  deriving Repr, Inhabited

namespace Watchlist

/-- Other roots make everything forgotten. -/
def setRoots (_ : Watchlist) (roots : List Path) : Watchlist := { roots }

def clear (w : Watchlist) : Watchlist := { w with tracked := .empty }

/-- The class files under all roots. A root that is no directory holds none. Which directories can
be opened is up to the system; a path that is too long is the one reason to refuse that the tree
knows. -/
def visible (w : Watchlist) (tree : FileTree) (opens : Path → Bool := FileTree.fits) :
    List (Path × Timestamp) :=
  w.roots.flatMap fun root =>
    match tree.node? root with
    | none => []
    | some node => node.classFiles opens root

def note (s : SortedMap Path Timestamp × SortedSet Path) (e : Path × Timestamp) :
    SortedMap Path Timestamp × SortedSet Path :=
  let changed := if s.1.find? e.1 = some e.2 then s.2 else s.2.insert e.1
  (s.1.insert e.1 e.2, changed)

def scan (w : Watchlist) (tree : FileTree) (opens : Path → Bool := FileTree.fits) :
    Watchlist × Changes :=
  let files := w.visible tree opens
  let (tracked, changed) := files.foldl note (w.tracked, .empty)
  let seen : SortedSet Path := .ofList (files.map (·.1))
  let gone := tracked.keys.filter fun p => !seen.contains p && !tree.pathExists p
  ({ w with tracked := gone.foldl SortedMap.erase tracked }, { changed, removed := .ofList gone })

/-- Whether some tracked file is gone. Nothing is noted. -/
def anyRemoved (w : Watchlist) (tree : FileTree) : Bool :=
  w.tracked.keys.any fun p => !tree.pathExists p

end Watchlist

end Retest
