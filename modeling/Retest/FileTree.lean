import Retest.Path

/-! A directory tree as a value: files with their bytes and modification times, directories with
their entries in listing order, and one directory that relative paths start from. -/

namespace Retest

/-- A moment as whole seconds since the epoch and nanoseconds into the second. -/
structure Timestamp where
  seconds : Int
  nanos : Nat
  deriving Repr, DecidableEq, Inhabited

/-- A file or a directory. Every entry has a text for its name, so a tree has no names that are not
valid UTF-8, and no links. -/
inductive FileNode where
  | file (data : List UInt8) (modified : Timestamp)
  | directory (entries : List (String × FileNode))
  deriving Inhabited

inductive FileError where
  | notFound
  | denied
  | notDirectory
  | isDirectory
  | nameTooLong
  | nulByte
  | notText
  deriving Repr, DecidableEq

def FileError.message : FileError → String
  | .notFound => "No such file or directory (os error 2)"
  | .denied => "Permission denied (os error 13)"
  | .notDirectory => "Not a directory (os error 20)"
  | .isDirectory => "Is a directory (os error 21)"
  | .nameTooLong => "File name too long (os error 36)"
  | .nulByte => "file name contained an unexpected NUL byte"
  | .notText => "stream did not contain valid UTF-8"

namespace FileNode

def isDirectory : FileNode → Bool
  | .directory _ => true
  | .file .. => false

def isFile (n : FileNode) : Bool := !n.isDirectory

def entries : FileNode → List (String × FileNode)
  | .directory es => es
  | .file .. => []

def child? (n : FileNode) (name : String) : Option FileNode :=
  (n.entries.find? fun e => e.1 = name).map (·.2)

def descend : FileNode → List String → Option FileNode
  | n, [] => some n
  | n, name :: rest => (n.child? name).bind fun c => c.descend rest

/-- Replaces the entry of a name, or appends one. -/
def setEntry (name : String) (node : FileNode) :
    List (String × FileNode) → List (String × FileNode)
  | [] => [(name, node)]
  | e :: rest => if e.1 = name then (name, node) :: rest else e :: setEntry name node rest

/-- Puts a node at the end of a chain of names. Directories on the way are made where nothing
stands, and a file on the way stays. -/
def place (node : FileNode) : List String → FileNode → FileNode
  | [], _ => node
  | _ :: _, .file data time => .file data time
  | name :: rest, .directory es =>
    let below := ((es.find? fun e => e.1 = name).map (·.2)).getD (.directory [])
    .directory (setEntry name (place node rest below) es)

def remove : List String → FileNode → FileNode
  | [name], .directory es => .directory (es.filter fun e => e.1 ≠ name)
  | name :: rest, .directory es =>
    .directory (es.map fun e => if e.1 = name then (e.1, remove rest e.2) else e)
  | _, n => n

end FileNode

/-- A whole tree and the names that lead from its root to the working directory. -/
structure FileTree where
  root : FileNode
  workingDir : List String
  deriving Inhabited

namespace FileTree

def empty (workingDir : List String) : FileTree :=
  ⟨FileNode.place (.directory []) workingDir (.directory []), workingDir⟩

def nameLimit : Nat := 255

/-- A path with this many bytes is too long. -/
def pathLimit : Nat := 4096

def fits (p : Path) : Bool := p.text.utf8ByteSize < pathLimit

/-- Follows the pieces of a path from a directory, given by its chain of names in reverse. Every
piece, the empty one behind a trailing slash too, asks for a directory to stand in. -/
def follow (t : FileTree) : List String → List (List Char) → Except FileError (List String)
  | here, [] => .ok here
  | here, piece :: rest =>
    match t.root.descend here.reverse with
    | none => .error .notFound
    | some node =>
      if node.isFile then .error .notDirectory
      else if piece = [] ∨ piece = ['.'] then t.follow here rest
      else if piece = ['.', '.'] then t.follow here.tail rest
      else if nameLimit < (String.ofList piece).utf8ByteSize then .error .nameTooLong
      else
        match node.child? (String.ofList piece) with
        | none => .error .notFound
        | some _ => t.follow (String.ofList piece :: here) rest

def locate (t : FileTree) (p : Path) : Except FileError (List String) :=
  if p.text.toList = [] then .error .notFound
  else if p.text.toList.contains '\x00' then .error .nulByte
  else if pathLimit ≤ p.text.utf8ByteSize then .error .nameTooLong
  else
    let start := if p.isAbsolute then [] else t.workingDir.reverse
    (t.follow start (Path.pieces p.text.toList)).map List.reverse

def node? (t : FileTree) (p : Path) : Option FileNode :=
  match t.locate p with
  | .error _ => none
  | .ok names => t.root.descend names

def pathExists (t : FileTree) (p : Path) : Bool := (t.node? p).isSome

def isFile (t : FileTree) (p : Path) : Bool := (t.node? p).any FileNode.isFile

def isDir (t : FileTree) (p : Path) : Bool := (t.node? p).any FileNode.isDirectory

def read (t : FileTree) (p : Path) : Except FileError (List UInt8) :=
  match t.locate p with
  | .error e => .error e
  | .ok names =>
    match t.root.descend names with
    | some (.file data _) => .ok data
    | some (.directory _) => .error .isDirectory
    | none => .error .notFound

def canonical (t : FileTree) (p : Path) : Except FileError Path :=
  (t.locate p).map fun names => ⟨"/" ++ "/".intercalate names⟩

def currentDir (t : FileTree) : Path := ⟨"/" ++ "/".intercalate t.workingDir⟩

def spelledNames (t : FileTree) (p : Path) : List String :=
  let start := if p.isAbsolute then [] else t.workingDir.reverse
  let step (here : List String) (piece : List Char) : List String :=
    if piece = [] ∨ piece = ['.'] then here
    else if piece = ['.', '.'] then here.tail
    else String.ofList piece :: here
  ((Path.pieces p.text.toList).foldl step start).reverse

def writeFile (t : FileTree) (p : Path) (data : List UInt8) (modified : Timestamp) : FileTree :=
  { t with root := FileNode.place (.file data modified) (t.spelledNames p) t.root }

def makeDir (t : FileTree) (p : Path) : FileTree :=
  if t.pathExists p then t
  else { t with root := FileNode.place (.directory []) (t.spelledNames p) t.root }

def touch (t : FileTree) (p : Path) (modified : Timestamp) : FileTree :=
  match t.node? p with
  | some (.file data _) => t.writeFile p data modified
  | _ => t

def remove (t : FileTree) (p : Path) : FileTree :=
  { t with root := FileNode.remove (t.spelledNames p) t.root }

/-- The chain of names that a file would have under a path: the directory above it has to be there,
and it is none itself. -/
def creatable (t : FileTree) (p : Path) : Except FileError (List String) :=
  match t.locate p with
  | .ok names =>
    if (t.root.descend names).any FileNode.isDirectory then .error .isDirectory else .ok names
  | .error .notFound =>
    match (Path.pieces p.text.toList).reverse with
    | [] | [] :: _ => .error .notFound
    | [name] => .ok (t.workingDir ++ [String.ofList name])
    | name :: above =>
      let dir := ['/'].intercalate above.reverse
      (t.locate ⟨if dir = [] then "/" else String.ofList dir⟩).bind fun names =>
        if (t.root.descend names).any FileNode.isDirectory then .ok (names ++ [String.ofList name])
        else .error .notDirectory
  | .error e => .error e

def enter (t : FileTree) (p : Path) : FileTree := { t with workingDir := t.spelledNames p }

end FileTree

inductive FileChange where
  | write (names : List String) (data : List UInt8)
  | makeDir (names : List String)
  | remove (names : List String)
  deriving Repr, DecidableEq

def FileTree.change (t : FileTree) : FileChange → FileTree
  | .write names data => { t with root := FileNode.place (.file data default) names t.root }
  | .makeDir names => { t with root := FileNode.place (.directory []) names t.root }
  | .remove names => { t with root := FileNode.remove names t.root }

end Retest
