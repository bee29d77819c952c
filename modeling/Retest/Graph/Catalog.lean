import Retest.Graph.Dependents

namespace Retest

structure Catalog where
  graph : ImportGraph := .empty
  byFile : SortedMap Path JvmClass := .empty
  deriving Repr

namespace Catalog

def empty : Catalog := {}

instance : Inhabited Catalog := ⟨empty⟩

/-- Number of classes, those included that are known only by reference. -/
def size (c : Catalog) : Nat := c.graph.size

def classes (c : Catalog) : SortedMap String JvmClass := c.graph.classes

def evict (c : Catalog) (file : Path) : Catalog :=
  match c.byFile.find? file with
  | none => c
  | some old => ⟨(c.graph.remove old.name).1, c.byFile.erase file⟩

/-- Makes sure that a name has a vertex: the class resolved for it, or a class known by name only.
The file of a resolved class is noted unless it is known already. A resolved class is used once. -/
def ensure (c : Catalog) (resolved : SortedMap String JvmClass) (name : String) :
    Catalog × SortedMap String JvmClass :=
  if c.graph.contains name then (c, resolved)
  else
    let cls := (resolved.find? name).getD (.placeholder name)
    let byFile := match cls.file with
      | none => c.byFile
      | some file => if c.byFile.contains file then c.byFile else c.byFile.insert file cls
    (⟨(c.graph.add cls none).1, byFile⟩, resolved.erase name)

def missingImports (c : Catalog) (parsed : List (Path × JvmClass)) : SortedSet String :=
  let incoming := parsed.map fun e => e.2.name
  let wanted := (parsed.filter fun e => !e.2.isUnparsable).flatMap fun e => e.2.imports.toList
  .ofList (wanted.filter fun name => !incoming.contains name && !c.graph.contains name)

/-- Notes what a file holds now. A file that cannot be read as a class is evicted; one that defines
another class than before takes the former one with it. The second part collects the readable
classes by name, the last one of a name winning. -/
def noteFile (s : Catalog × SortedMap String JvmClass) (entry : Path × JvmClass) :
    Catalog × SortedMap String JvmClass :=
  let (c, changed) := s
  let (file, cls) := entry
  if cls.isUnparsable then (c.evict file, changed)
  else
    let graph := match c.byFile.find? file with
      | none => c.graph
      | some old => if old.name = cls.name then c.graph else (c.graph.remove old.name).1
    (⟨graph, c.byFile.insert file cls⟩, changed.insert cls.name cls)

/-- Links a class to an import, by their names. The import gets a vertex first. -/
def linkImport (s : Catalog × SortedMap String JvmClass) (e : String × String) :
    Catalog × SortedMap String JvmClass :=
  let (c, resolved) := s.1.ensure s.2 e.2
  ({ c with graph := (c.graph.link e.1 e.2).1 }, resolved)

def linkImports (s : Catalog × SortedMap String JvmClass) (cls : JvmClass) :
    Catalog × SortedMap String JvmClass :=
  cls.imports.toList.foldl (fun s name => linkImport s (cls.name, name)) s

/-- Reads changed files again and brings the graph up to date. The second part holds the classes of
the files that exist and can be read. -/
def update (c : Catalog) (source : ClassSource) (present : Path → Bool) (files : List Path) :
    Catalog × SortedMap String JvmClass :=
  let parsed := (files.filter present).map fun file => (file, source.parse file)
  let gone := files.filter fun file => !present file
  let resolved : SortedMap String JvmClass :=
    .ofList ((c.missingImports parsed).toList.map fun name => (name, source.resolve name))
  let c := gone.foldl evict c
  let (c, changed) := parsed.foldl noteFile (c, .empty)
  let graph := changed.values.foldl (fun g cls => (g.add cls none).1) c.graph
  ((changed.values.foldl linkImports ({ c with graph }, resolved)).1, changed)

/-- The classes known for some files, without reading them again. -/
def classesOf (c : Catalog) (files : List Path) : SortedMap String JvmClass :=
  .ofList ((files.filterMap c.byFile.find?).map fun cls => (cls.name, cls))

def dependents (c : Catalog) (names : List String) : SortedMap String JvmClass :=
  c.graph.dependents names

def demand (c : Catalog) (source : ClassSource) (name : String) : Catalog × JvmClass :=
  match c.graph.classOf? name with
  | some cls => (c, cls)
  | none =>
    let cls := source.resolve name
    ((c.ensure (.ofList [(name, cls)]) name).1, cls)

end Catalog

end Retest
