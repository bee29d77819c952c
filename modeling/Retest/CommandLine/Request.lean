import Retest.Path

namespace Retest.CommandLine

inductive Task where
  | watch
  | run
  | list
  | affected (files : List Path)
  deriving Repr, DecidableEq

structure Request where
  task : Task
  config : Option Path := none
  verbose : Bool := false
  deriving Repr, DecidableEq

/-- Why arguments make no request: they ask for the version, or they are not understood, or they ask
how they would be. -/
inductive Refusal where
  | version
  | usage
  deriving Repr, DecidableEq

/-- The options that one level of the command line has seen. Each may occur once there. -/
structure Options where
  config : Option Path := none
  verbose : Bool := false
  deriving Repr, DecidableEq

namespace Options

def setConfig (o : Options) (value : List Char) : Except Refusal Options :=
  if value = [] ∨ o.config.isSome then .error .usage
  else .ok { o with config := some ⟨String.ofList value⟩ }

def setVerbose (o : Options) : Except Refusal Options :=
  if o.verbose then .error .usage else .ok { o with verbose := true }

def within (inner outer : Options) : Options :=
  { config := inner.config.or outer.config, verbose := inner.verbose || outer.verbose }

end Options

/-- Whether an argument is an option. A lone dash is none. -/
def isOption (arg : String) : Bool :=
  match arg.toList with
  | '-' :: _ :: _ => true
  | _ => false

def takeValue (o : Options) : List String → Except Refusal (Options × List String)
  | [] => .error .usage
  | value :: rest =>
    if isOption value then .error .usage
    else (o.setConfig value.toList).map fun o => (o, rest)

/-- Only the outermost level tells the version. -/
def tellVersion (outermost : Bool) : Refusal := if outermost then .version else .usage

/-- Short options behind one dash. The value of the last one may follow at once, or behind an equals
sign, or as the next argument. -/
def readCluster (outermost : Bool) :
    List Char → Options → List String → Except Refusal (Options × List String)
  | [], o, rest => .ok (o, rest)
  | ['c'], o, rest => takeValue o rest
  | 'c' :: '=' :: value, o, rest => (o.setConfig value).map fun o => (o, rest)
  | 'c' :: value, o, rest => (o.setConfig value).map fun o => (o, rest)
  | 'v' :: more, o, rest => o.setVerbose.bind fun o => readCluster outermost more o rest
  | 'V' :: _, _, _ => .error (tellVersion outermost)
  | _ :: _, _, _ => .error .usage

def readLong (outermost : Bool) (option : List Char) (o : Options) (rest : List String) :
    Except Refusal (Options × List String) :=
  let name := option.takeWhile (· ≠ '=')
  match String.ofList name, option.drop name.length with
  | "config", [] => takeValue o rest
  | "config", _ :: value => (o.setConfig value).map fun o => (o, rest)
  | "verbose", [] => o.setVerbose.map fun o => (o, rest)
  | "version", [] => .error (tellVersion outermost)
  | _, _ => .error .usage

def readOption (outermost : Bool) (arg : String) (o : Options) (rest : List String) :
    Except Refusal (Options × List String) :=
  match arg.toList with
  | '-' :: '-' :: option => readLong outermost option o rest
  | '-' :: cluster => readCluster outermost cluster o rest
  | _ => .error .usage

/-- The arguments behind the name of a task: its options and its files. Everything behind two dashes
is a file. -/
def readTask : Nat → List String → Options → List String → Except Refusal (Options × List String)
  | 0, _, _, _ => .error .usage
  | _, [], o, files => .ok (o, files.reverse)
  | fuel + 1, arg :: rest, o, files =>
    if arg = "--" then .ok (o, files.reverse ++ rest)
    else if isOption arg then
      match readOption false arg o rest with
      | .error r => .error r
      | .ok (o, rest) => readTask fuel rest o files
    else readTask fuel rest o (arg :: files)

/-- The task of a name with some files. Only one task takes files, and it needs one. -/
def Task.ofName? (name : String) (files : List String) : Option Task :=
  match name, files with
  | "watch", [] => some .watch
  | "run", [] => some .run
  | "list", [] => some .list
  | "affected", _ :: _ =>
    if files.contains "" then none else some (.affected (files.map fun f => ⟨f⟩))
  | _, _ => none

def readRequest : Nat → List String → Options → Except Refusal Request
  | 0, _, _ => .error .usage
  | _, [], _ => .error .usage
  | fuel + 1, arg :: rest, o =>
    if isOption arg then
      match readOption true arg o rest with
      | .error r => .error r
      | .ok (o, rest) => readRequest fuel rest o
    else if ["watch", "run", "list", "affected"].contains arg then
      match readTask (rest.length + 1) rest {} [] with
      | .error r => .error r
      | .ok (inner, files) =>
        match Task.ofName? arg files with
        | none => .error .usage
        | some task =>
          let all := inner.within o
          .ok { task, config := all.config, verbose := all.verbose }
    else .error .usage

def Request.ofArgs (args : List String) : Except Refusal Request :=
  readRequest (args.length + 1) args {}

end Retest.CommandLine
