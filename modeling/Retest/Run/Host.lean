import Retest.FileTree
import Retest.Shell.Exec

namespace Retest

/-- A machine as worker processes see it: its files, the directory and the variables that a process
starts with. -/
structure Machine where
  tree : FileTree
  dir : Option Path := none
  vars : List (String × String) := []

namespace Machine

def emptyFiles (names : List String) : List (String × FileNode) :=
  names.map fun name => (name, .file [] default)

def standardEntries : List (String × FileNode) :=
  let programs : FileNode := .directory (emptyFiles Shell.Utility.names)
  let dir (name : String) : String × FileNode := (name, .directory [])
  [("bin", programs), ("dev", .directory (emptyFiles ["null"])),
    ("etc", .directory (emptyFiles ["group", "hostname", "hosts", "passwd"])),
    ("usr", .directory [("bin", programs), dir "lib", dir "local", dir "sbin", dir "share"]),
    dir "boot", dir "home", dir "lib", dir "media", dir "mnt", dir "opt", dir "proc", dir "root",
    dir "run", dir "sbin", dir "srv", dir "sys", dir "tmp", dir "var"]

/-- The machine's files with those that every machine has, as a process sees them that was started
in the machine's directory. -/
def view (m : Machine) : FileTree :=
  let own := m.tree.root.entries
  let others := standardEntries.filter fun e => !own.any fun f => f.1 = e.1
  let tree := { m.tree with root := .directory (own ++ others) }
  match m.dir with
  | none => tree
  | some dir => tree.enter dir

/-- One argument may not have more bytes, the one that ends it included. -/
def argumentLimit : Nat := 131072

def start (m : Machine) (name : String) (args : List String) : Except String Program :=
  if args.any fun a => argumentLimit ≤ a.utf8ByteSize then
    .error "Argument list too long (os error 7)"
  else .ok (Shell.program m.view m.vars (name :: args))

/-- Finds a program. A name with a slash is a path, and what it leads to has to be a program; any
other name is looked for among the programs. -/
def find (m : Machine) (name : String) : Except FileError String :=
  if name.toList.contains '/' then
    match m.view.locate ⟨name⟩ with
    | .error reason => .error reason
    | .ok names =>
      match names.getLast? with
      | some known =>
        if Shell.Condition.isProgram names ∧ Shell.Utility.names.contains known then .ok known
        else .error .denied
      | none => .error .denied
  else if FileTree.nameLimit < name.utf8ByteSize then .error .nameTooLong
  else if name = "." ∨ name = ".." then .error .denied
  else if Shell.Utility.names.contains name then .ok name
  else .error .notFound

def checkDir (m : Machine) : Except FileError Unit :=
  match m.dir with
  | none => .ok ()
  | some dir =>
    match m.tree.locate dir with
    | .error reason => .error reason
    | .ok _ => if m.tree.isDir dir then .ok () else .error .notDirectory

def hasZero (s : String) : Bool := s.toList.contains '\x00'

def host (m : Machine) : Host := fun name args =>
  let texts := name :: args ++ (m.dir.map Path.text).toList ++ m.vars.map (·.2)
  if texts.any hasZero then .error "nul byte found in provided data"
  else
    match m.checkDir.bind fun _ => m.find name with
    | .error reason => .error reason.message
    | .ok known => m.start known args

end Machine

end Retest
