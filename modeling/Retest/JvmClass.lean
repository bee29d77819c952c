import Retest.Collection.SortedSet
import Retest.Path

namespace Retest

/-- Whether the file behind a class could be read as one. -/
inductive ParseStatus where
  | parsed
  | unparsable
  deriving Repr, DecidableEq, Inhabited

structure JvmClass where
  name : String
  imports : SortedSet String := .empty
  isTest : Bool := false
  file : Option Path := none
  status : ParseStatus := .parsed
  deriving Repr, DecidableEq, Inhabited

namespace JvmClass

/-- A class never imports itself. -/
def ofImports (name : String) (imports : List String) (isTest : Bool) (file : Option Path) :
    JvmClass :=
  { name, imports := .ofList (imports.filter fun i => i ≠ name), isTest, file }

/-- A class known only because something refers to it. -/
def placeholder (name : String) : JvmClass := { name }

/-- A file that is no readable class. Its name is a guess from the file's stem. -/
def unparsable (file : Path) : JvmClass :=
  { name := file.fileStem.getD "", file := some file, status := .unparsable }

def isUnparsable (c : JvmClass) : Bool := c.status = .unparsable

def isLocated (c : JvmClass) : Bool := c.file.isSome

end JvmClass

/-- Where classes come from: the class in a file, and the class behind a name. -/
structure ClassSource where
  parse : Path → JvmClass
  resolve : String → JvmClass

end Retest
