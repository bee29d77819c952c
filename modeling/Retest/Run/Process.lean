import Retest.FileTree
import Retest.Run.Crew
import Retest.Run.Message

/-! Workers that are processes. A program is seen from outside only: what it has written and whether
it has ended is a function of the input that it was given. -/

namespace Retest

inductive ProcessStatus where
  | running
  | exited (code : Nat)
  | killed (signal : Nat)
  deriving Repr, DecidableEq, Inhabited

namespace ProcessStatus

def signalNames : List (Nat × String) :=
  [(1, "SIGHUP"), (2, "SIGINT"), (3, "SIGQUIT"), (4, "SIGILL"), (5, "SIGTRAP"), (6, "SIGABRT"),
    (7, "SIGBUS"), (8, "SIGFPE"), (9, "SIGKILL"), (10, "SIGUSR1"), (11, "SIGSEGV"),
    (12, "SIGUSR2"), (13, "SIGPIPE"), (14, "SIGALRM"), (15, "SIGTERM")]

def text : ProcessStatus → String
  | .running => "still running"
  | .exited code => "exit status: " ++ toString code
  | .killed signal =>
    match signalNames.find? fun e => e.1 = signal with
    | some (_, name) => "signal: " ++ toString signal ++ " (" ++ name ++ ")"
    | none => "signal: " ++ toString signal

end ProcessStatus

/-- What can be seen of a process that has come to a stop for now: all that it wrote, whether it
will write more, its status, and what it did to files. -/
structure Conduct where
  output : List UInt8
  outputEnded : Bool
  status : ProcessStatus
  changes : List FileChange := []
  deriving Repr, DecidableEq, Inhabited

abbrev Program := List UInt8 → Bool → Conduct

inductive Ending where
  | exits (code : Nat)
  | killed (signal : Nat)
  | stays
  | goesMute
  deriving Repr, DecidableEq

def holdsBatch (input : List UInt8) : Bool :=
  (readBatch (splitAfter Message.lineFeed input)).isSome

def batchPart (input : List UInt8) : List UInt8 :=
  match readBatch (splitAfter Message.lineFeed input) with
  | some (lines, _) => lines.flatten ++ [Message.lineFeed]
  | none => input

def Program.reciting (output : List UInt8) (ending : Ending) : Program := fun input ended =>
  let left : ProcessStatus := if ended then .exited 0 else .running
  if holdsBatch input || ended then
    match ending with
    | .exits code => ⟨output, true, .exited code, []⟩
    | .killed signal => ⟨output, true, .killed signal, []⟩
    | .stays => ⟨output, ended, left, []⟩
    | .goesMute => ⟨output, true, left, []⟩
  else ⟨[], false, .running, []⟩

/-- A connection to a process: the input sent so far, whether that has ended, and how many bytes of
the output were read. -/
structure Connection where
  worker : WorkerId
  program : Program
  sent : List UInt8 := []
  ended : Bool := false
  read : Nat := 0

namespace Connection

def conduct (c : Connection) : Conduct := c.program c.sent c.ended

def healthy (c : Connection) : Bool := !c.ended && c.conduct.status = .running

/-- Sends a batch and reads what the worker tells about it. There is no result while the worker
neither completes its batch nor ends its output. -/
def runTests (c : Connection) (tests : List String) :
    Connection × List WorkerNews × Option (Except WorkerError Unit) :=
  if c.ended then (c, [], some (.error (.malformed "worker stdin already closed")))
  else
    let c := { c with sent := c.sent ++ batchBytes tests }
    let seen := c.conduct
    let report := Message.readReport (Message.linesOf seen.outputEnded (seen.output.drop c.read))
    let result := if report.complete then some (.ok ())
      else if seen.outputEnded then some (.error (.crashed seen.status.text))
      else none
    ({ c with read := c.read + report.bytes }, report.news, result)

def shutdown (c : Connection) : Connection := { c with ended := true }

end Connection

/-- Where programs are found: the program with some arguments, or the reason why it cannot be
started. -/
abbrev Host := String → List String → Except String Program

def Host.start (h : Host) : List String → Except WorkerError Program
  | [] => .error .noCommand
  | name :: args =>
    match h name args with
    | .ok program => .ok program
    | .error reason => .error (.spawn (" ".intercalate (name :: args)) reason)

/-- A worker with what it still has to say in its batch, if it has one, and how many of its changes
to files have been made. -/
structure Hire where
  connection : Connection
  lines : Option (List Utterance) := none
  changed : Nat := 0

structure Workforce where
  launch : FileTree → Except WorkerError Program
  tree : FileTree
  started : Nat := 0
  hires : List Hire := []

namespace Workforce

def connect (f : Workforce) : Workforce × Except WorkerError WorkerId :=
  match f.launch f.tree with
  | .error e => (f, .error e)
  | .ok program =>
    let worker : WorkerId := ⟨f.started + 1⟩
    let hire := ⟨⟨worker, program, [], false, 0⟩, none, 0⟩
    ({ f with started := f.started + 1, hires := hire :: f.hires }, .ok worker)

def hire? (f : Workforce) (w : WorkerId) : Option Hire :=
  f.hires.find? fun h => h.connection.worker = w

def put (f : Workforce) (h : Hire) : Workforce :=
  { f with hires := f.hires.map fun g =>
      if g.connection.worker = h.connection.worker then h else g }

def healthy (f : Workforce) (w : WorkerId) : Bool :=
  match f.hire? w with
  | none => false
  | some h => h.connection.healthy

def absorb (f : Workforce) (h : Hire) : Workforce × Hire :=
  let changes := h.connection.conduct.changes
  ({ f with tree := (changes.drop h.changed).foldl FileTree.change f.tree },
    { h with changed := changes.length })

def speak (f : Workforce) (h : Hire) : List Utterance → Workforce × Utterance
  | [] => (f.put { h with lines := some [] }, .silent)
  | .ends result :: _ => (f.put { h with lines := none }, .ends result)
  | line :: rest => (f.put { h with lines := some rest }, line)

def listen (f : Workforce) (w : WorkerId) (tests : List String) : Workforce × Utterance :=
  match f.hire? w with
  | none => (f, .silent)
  | some h =>
    match h.lines with
    | some lines => f.speak h lines
    | none =>
      let (connection, news, result) := h.connection.runTests tests
      let (f, h) := f.absorb { h with connection }
      f.speak h (news.map .tells ++ (result.map .ends).toList)

def dismiss (f : Workforce) (w : WorkerId) : Workforce :=
  match f.hire? w with
  | none => f
  | some h =>
    let (f, h) := f.absorb { h with connection := h.connection.shutdown }
    f.put h

def crew : Crew Workforce := { connect, healthy, pauses := fun _ _ => false, listen, dismiss }

end Workforce

end Retest
