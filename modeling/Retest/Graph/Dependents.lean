import Retest.Graph.ImportGraph

namespace Retest.ImportGraph

/-- Visits the names of a work list and whatever imports them. A visited name takes its vertex off
the ones still to visit, so that nothing is visited twice. -/
def visit : Nat → SortedMap String Vertex → SortedMap String JvmClass → List String →
    SortedMap String JvmClass
  | 0, _, found, _ => found
  | _ + 1, _, found, [] => found
  | fuel + 1, unvisited, found, name :: work =>
    match unvisited.find? name with
    | none => visit fuel unvisited found work
    | some v =>
      visit fuel (unvisited.erase name) (found.insert name v.jvmClass)
        (v.importers.toList ++ work)

def workLeft (vs : SortedMap String Vertex) : Nat :=
  vs.values.foldr (fun v n => v.importers.size + 1 + n) 0

/-- Every step either drops a name from the work list or visits a vertex and adds its importers. -/
def visitBound (g : ImportGraph) (seeds : List String) : Nat :=
  seeds.length + workLeft g.vertices + 1

def dependents (g : ImportGraph) (seeds : List String) : SortedMap String JvmClass :=
  visit (visitBound g seeds) g.vertices .empty seeds

end Retest.ImportGraph
