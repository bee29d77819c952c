import Retest.Collection.SortedMap
import Retest.JvmClass

namespace Retest

/-- A vertex of the graph. Two classes with the same `token` are the same value; a class without one
is the same as no other. -/
structure Vertex where
  jvmClass : JvmClass
  token : Option Nat := none
  importers : SortedSet String := .empty
  imports : SortedSet String := .empty
  deriving Repr, DecidableEq

inductive VertexChange where
  | added
  | unchanged
  | reset
  deriving Repr, DecidableEq

def VertexChange.needsLinking (c : VertexChange) : Bool := c ≠ .unchanged

structure ImportGraph where
  vertices : SortedMap String Vertex := .empty
  deriving Repr, DecidableEq

namespace ImportGraph

def empty : ImportGraph := {}

instance : Inhabited ImportGraph := ⟨empty⟩

def size (g : ImportGraph) : Nat := g.vertices.size

def contains (g : ImportGraph) (name : String) : Bool := g.vertices.contains name

def classOf? (g : ImportGraph) (name : String) : Option JvmClass :=
  (g.vertices.find? name).map (·.jvmClass)

def classes (g : ImportGraph) : SortedMap String JvmClass := g.vertices.mapValues (·.jvmClass)

def importersOf (g : ImportGraph) (name : String) : List String :=
  ((g.vertices.find? name).map (·.importers.toList)).getD []

def importsOf (g : ImportGraph) (name : String) : List String :=
  ((g.vertices.find? name).map (·.imports.toList)).getD []

def forgetImporter (vs : SortedMap String Vertex) (name : String) (l : List String) :
    SortedMap String Vertex :=
  l.foldl (fun m child => m.modify child fun v => { v with importers := v.importers.erase name }) vs

def forgetImport (vs : SortedMap String Vertex) (name : String) (l : List String) :
    SortedMap String Vertex :=
  l.foldl (fun m parent => m.modify parent fun v => { v with imports := v.imports.erase name }) vs

def Vertex.holds (v : Vertex) (token : Option Nat) : Bool := token.isSome && v.token = token

/-- Adds a class under its name. Where another class stands under that name, it is replaced: its
imports are forgotten and its importers stay. -/
def add (g : ImportGraph) (c : JvmClass) (token : Option Nat) : ImportGraph × VertexChange :=
  match g.vertices.find? c.name with
  | none => (⟨g.vertices.insert c.name { jvmClass := c, token }⟩, .added)
  | some v =>
    if Vertex.holds v token then (g, .unchanged)
    else
      let fresh : Vertex := { v with jvmClass := c, token, imports := .empty }
      (⟨forgetImporter (g.vertices.insert c.name fresh) c.name v.imports.toList⟩, .reset)

/-- Records that one class imports another. Both must be there, and no class imports itself. -/
def link (g : ImportGraph) (source target : String) : ImportGraph × Bool :=
  if source = target || !g.contains source || !g.contains target then (g, false)
  else
    let vs := g.vertices.modify target fun v => { v with importers := v.importers.insert source }
    (⟨vs.modify source fun v => { v with imports := v.imports.insert target }⟩, true)

def remove (g : ImportGraph) (name : String) : ImportGraph × Option JvmClass :=
  match g.vertices.find? name with
  | none => (g, none)
  | some v =>
    let vs := forgetImporter (g.vertices.erase name) name v.imports.toList
    (⟨forgetImport vs name v.importers.toList⟩, some v.jvmClass)

end ImportGraph

end Retest
