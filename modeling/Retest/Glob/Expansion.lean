import Retest.FileTree
import Retest.Glob.Pattern

namespace Retest

/-- The paths of all that stands below a directory, each one before what stands below it, and equals
by name. -/
def FileNode.pathsFrom (at_ : Path) : FileNode → List Path
  | .file .. => []
  | .directory entries => flatten (listings at_ entries)
where
  /-- For each entry its name and the paths from it on. -/
  listings (at_ : Path) : List (String × FileNode) → List (String × List Path)
    | [] => []
    | (name, node) :: rest =>
      (name, at_.join name :: FileNode.pathsFrom (at_.join name) node) :: listings at_ rest
  flatten (l : List (String × List Path)) : List Path :=
    (l.mergeSort fun a b => (compare a.1 b.1).isLE).flatMap (·.2)

namespace FileTree

def names (t : FileTree) (p : Path) : List String :=
  match t.node? p with
  | none => []
  | some node => (node.entries.map (·.1)).mergeSort fun a b => (compare a b).isLE

end FileTree

namespace Glob

/-- A name below a directory. Below the place where relative paths start, a lone dot, it stands
alone. -/
def stepInto (p : Path) (name : String) : Path :=
  if p.same ⟨"."⟩ then ⟨name⟩ else p.join name

def pathsBelow (t : FileTree) (p : Path) : List Path :=
  match t.node? p with
  | none => []
  | some node => node.pathsFrom (if p.same ⟨"."⟩ then ⟨""⟩ else p)

/-- The two dots of a directory that a pattern asks for by a leading dot, the parent first. -/
def dotNames (tokens : List Token) : List String :=
  if tokens.head? = some (.char '.') then
    ["..", "."].filter fun name => fits tokens name.toList
  else []

/-- Whether a path goes on under a plain name. The two dots go on from every directory. -/
def goesOn (t : FileTree) (p : Path) (name : List Char) : Bool :=
  if name = ['.'] ∨ name = ['.', '.'] then t.isDir p
  else t.pathExists (stepInto p (String.ofList name))

/-- The paths that some steps lead to from a path. Steps that say to go down anywhere are one such
step if they stand side by side. -/
def follow (t : FileTree) (dirsOnly : Bool) : List Step → Path → List Path
  | [], p => if !dirsOnly || t.isDir p then [p] else []
  | .anywhere :: .anywhere :: rest, p => follow t dirsOnly (.anywhere :: rest) p
  | [.anywhere], p => (pathsBelow t p).filter t.isDir
  | .anywhere :: .name tokens :: rest, p =>
    (pathsBelow t p).flatMap fun q =>
      if fits tokens ((q.fileName.map String.toList).getD []) then follow t dirsOnly rest q else []
  | .name tokens :: rest, p =>
    match plainText? tokens with
    | some name =>
      if goesOn t p name then follow t dirsOnly rest (stepInto p (String.ofList name)) else []
    | none =>
      if t.isDir p then
        ((dotNames tokens).flatMap fun name => follow t dirsOnly rest (p.join name)) ++
          (t.names p).flatMap fun name =>
            if fits tokens name.toList then follow t dirsOnly rest (stepInto p name) else []
      else []

def dropLastEmpty (l : List (List Char)) : List (List Char) :=
  if l.getLast? = some [] then l.dropLast else l

/-- The paths of a tree that a pattern stands for, or nothing if it is no pattern. With a slash at
its end it stands for directories only. -/
def expand? (t : FileTree) (pattern : Path) : Option (List Path) :=
  let text := pattern.text.toList
  let body := if pattern.isAbsolute then text.drop 1 else text
  let start : Path := if pattern.isAbsolute then ⟨"/"⟩ else ⟨"."⟩
  ((dropLastEmpty (Path.pieces body)).mapM Step.ofText?).map fun steps =>
    follow t (text.getLast? = some '/') steps start

end Glob

end Retest
