import Retest.Collection.SortedSet
import Retest.Config.Template
import Retest.Glob.Expansion
import Retest.Text.Blank
import Retest.Text.Utf8
import Retest.Toml.Document

namespace Retest

/-- What a configuration file says, and the directory that its relative paths start from. There is
no `concurrency` if the file leaves it to the machine. -/
structure Config where
  name : String
  classDirs : List String := ["target/classes", "target/test-classes"]
  filterFile : Option String := none
  concurrency : Option Nat := none
  batchSize : Nat := 1
  eventCapacity : Nat := 4096
  command : List String
  reuse : Bool := false
  shutdownTimeout : Nat := 2000
  debounce : Nat := 300
  base : Path := ⟨""⟩
  deriving Repr, DecidableEq

inductive ConfigError where
  | unreadable (file : Path) (reason : FileError)
  | malformed
  | noConcurrency
  | emptyBatch
  | noProgram
  | noClassDirs
  | badPattern (pattern : String)
  | unsetVariable (argument name : String)
  deriving Repr, DecidableEq

namespace ConfigError

def fileName : String := "testloop.toml"

def message : ConfigError → String
  | .unreadable file _ => "Failed to read config file: " ++ file.text
  | .malformed => "Failed to parse " ++ fileName
  | .noConcurrency => "runner.concurrency must be at least 1"
  | .emptyBatch => "runner.batch_size must be at least 1"
  | .noProgram => "worker.command must name a program"
  | .noClassDirs => "project.class_dirs must list at least one directory"
  | .badPattern pattern => "Invalid class_dirs pattern: " ++ pattern
  | .unsetVariable argument _ => "Failed to expand worker command argument '" ++ argument ++ "'"

def fullMessage (e : ConfigError) : String :=
  match e with
  | .unreadable _ reason => e.message ++ ": " ++ reason.message
  | .unsetVariable _ name =>
    let reason := "environment variable not found"
    e.message ++ ": error looking key '" ++ name ++ "' up: " ++ reason ++ ": " ++ reason
  | _ => e.message

end ConfigError

namespace Toml

/-- The fields of a section: the entries of a table, or the items of an array in the order of the
names. A date is a section without known fields. -/
def fields? (names : List String) : Toml → Option Entries
  | .table _ es => some es
  | .array items => some (names.zip items)
  | .date => some []
  | _ => none

def string? : Toml → Option String
  | .string s => some s
  | _ => none

def nat? : Toml → Option Nat
  | .integer n => if 0 ≤ n then some n.toNat else none
  | _ => none

def bool? : Toml → Option Bool
  | .boolean b => some b
  | _ => none

def strings? : Toml → Option (List String)
  | .array items => items.mapM string?
  | _ => none

variable {α : Type}

def required (es : Entries) (key : String) (read : Toml → Option α) : Option α :=
  (find? es key).bind read

/-- A field that may be left out. One that is there must be of its type. -/
def optional (es : Entries) (key : String) (read : Toml → Option α) (default : α) : Option α :=
  match find? es key with
  | none => some default
  | some v => read v

end Toml

namespace Config

open Toml in
/-- Reads the sections of a document. Keys that are not known are passed over. -/
def ofEntries? (es : Entries) : Option Config := do
  let project ← required es "project" (fields? ["name", "class_dirs", "filter_file"])
  let runner ← optional es "runner" (fields? ["concurrency", "batch_size", "event_capacity"]) []
  let worker ← required es "worker" (fields? ["command", "reuse", "shutdown_timeout_ms"])
  let watch ← optional es "watch" (fields? ["debounce_ms"]) []
  let name ← required project "name" string?
  let command ← required worker "command" strings?
  let config : Config := { name, command }
  return {
    config with
    classDirs := ← optional project "class_dirs" strings? config.classDirs
    filterFile := ← optional project "filter_file" (fun v => v.string?.map some) none
    concurrency := ← optional runner "concurrency" (fun v => v.nat?.map some) none
    batchSize := ← optional runner "batch_size" nat? config.batchSize
    eventCapacity := ← optional runner "event_capacity" nat? config.eventCapacity
    reuse := ← optional worker "reuse" bool? config.reuse
    shutdownTimeout := ← optional worker "shutdown_timeout_ms" nat? config.shutdownTimeout
    debounce := ← optional watch "debounce_ms" nat? config.debounce }

/-- What a configuration must keep to. The first fault counts. -/
def check (c : Config) : Except ConfigError Unit :=
  if c.concurrency = some 0 then .error .noConcurrency
  else if c.batchSize = 0 then .error .emptyBatch
  else if c.command.all isBlankText then .error .noProgram
  else if c.classDirs.isEmpty then .error .noClassDirs
  else .ok ()

def ofText (text : List Char) (base : Path) : Except ConfigError Config :=
  match (Toml.ofText? text).bind ofEntries? with
  | none => .error .malformed
  | some c => (c.check).map fun _ => { c with base }

def load (tree : FileTree) (file : Path) : Except ConfigError Config :=
  match tree.read file with
  | .error reason => .error (.unreadable file reason)
  | .ok data =>
    match Utf8.decode? data with
    | none => .error (.unreadable file .notText)
    | some text => ofText text (file.parent.getD ⟨"."⟩)

/-- The directories that one entry stands for. One that is no pattern stands for itself, whether it
is there or not. -/
def dirsOf (c : Config) (tree : FileTree) (entry : String) : Except ConfigError (List Path) :=
  let full := c.base.join entry
  if Glob.isPattern entry.toList then
    match Glob.expand? tree full with
    | none => .error (.badPattern entry)
    | some found => .ok (found.filter tree.isDir)
  else .ok [full]

/-- All class directories, in order, each of them once. -/
def dirs (c : Config) (tree : FileTree) : Except ConfigError (List Path) :=
  (c.classDirs.mapM (c.dirsOf tree)).map fun found => (SortedSet.ofList found.flatten).toList

def rulesFile (c : Config) : Path := c.base.join (c.filterFile.getD "testloop.filters")

def workerCommand (c : Config) (env : Environment) : Except ConfigError (List String) :=
  c.command.mapM fun argument =>
    match expandText env argument with
    | .ok text => .ok text
    | .error name => .error (.unsetVariable argument name)

end Config

end Retest
