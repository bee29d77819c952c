import Retest.ClassFile.Decode
import Retest.FileTree

namespace Retest.ClassFile

def parseFile (tree : FileTree) (path : Path) : JvmClass :=
  match tree.read path with
  | .error _ => .unparsable path
  | .ok bytes =>
    match decode bytes (some path) with
    | .ok c => c
    | .error _ => .unparsable path

def relativePath (name : String) : String :=
  String.ofList (name.toList.map fun c => if c = '.' then '/' else c) ++ ".class"

/-- The first file under the roots that stands where the name says. -/
def locate (tree : FileTree) (roots : List Path) (name : String) : Option Path :=
  (roots.map fun root => root.join (relativePath name)).find? tree.isFile

/-- The class of a name, if the file found for it defines that very name, and a placeholder
otherwise. -/
def resolve (tree : FileTree) (roots : List Path) (name : String) : JvmClass :=
  match locate tree roots name with
  | none => .placeholder name
  | some path =>
    let c := parseFile tree path
    if !c.isUnparsable && c.name = name then c else .placeholder name

def source (tree : FileTree) (roots : List Path) : ClassSource :=
  ⟨parseFile tree, resolve tree roots⟩

end Retest.ClassFile
