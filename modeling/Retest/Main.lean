import Retest.CommandLine.Execution

/-! The program: copies files into a tree, answers the command line, and prints what comes of it.
Worker scripts are run by the program itself. -/

namespace Retest

/-- Adds an entry of a directory, and all that stands below it, to a tree. The tree is looked at
once only, so its times do not matter. -/
partial def addEntry (tree : FileTree) (entry : IO.FS.DirEntry) : IO FileTree := do
  let facts ← entry.path.metadata
  let place : Path := ⟨entry.path.toString⟩
  match facts.type with
  | .dir => (← entry.path.readDir).foldlM addEntry (tree.makeDir place)
  | .file =>
    let data ← IO.FS.readBinFile entry.path
    return tree.writeFile place data.toList ⟨0, 0⟩
  | _ => return tree

def readTree (config : Path) : IO FileTree := do
  let here ← IO.currentDir
  let names := here.components.filter fun name => name ≠ "" && name ≠ "/"
  let tree ← (← here.readDir).foldlM addEntry (.empty names)
  try
    match (← IO.FS.realPath ⟨config.text⟩).parent with
    | some dir => (← dir.readDir).foldlM addEntry tree
    | none => return tree
  catch _ => return tree

def readEnvironment (text : List Char) : IO Environment := do
  let names := "HOME" :: variableNames text
  let found ← names.filterMapM fun name => do return (← IO.getEnv name).map fun v => (name, v)
  return ⟨found⟩

end Retest

open Retest in
/-- Runs the program. Work that does not end has no exit code of its own and ends with 1. A
configuration that leaves the number of workers open gets four. -/
def main (args : List String) : IO UInt32 := do
  let config := match CommandLine.Request.ofArgs args with
    | .ok r => r.config.getD ⟨ConfigError.fileName⟩
    | .error _ => ⟨ConfigError.fileName⟩
  let tree ← readTree config
  let text := ((tree.read config).toOption.map Utf8.decodeLossy).getD []
  let environment ← readEnvironment text
  let colored := (← IO.getEnv "NO_COLOR").isNone && (← (← IO.getStdout).isTty)
  let surroundings : CommandLine.Surroundings :=
    { tree, environment, processors := 4, screen := ⟨colored⟩ }
  match surroundings.respond args ⟨0⟩ with
  | none => return 1
  | some v =>
    IO.print v.out
    IO.eprint v.err
    return v.code.toUInt32
