import Retest.FileTree
import Retest.Shell.Syntax
import Retest.Text.Utf8

namespace Retest.Shell

def charsOf (bytes : List UInt8) : List Char := bytes.map fun b => Char.ofNat b.toNat

def bytesOf (text : List Char) : List UInt8 := text.map fun c => c.toNat.toUInt8

def spell (text : List Char) : String := String.ofList (Utf8.decodeLossy (bytesOf text))

def unspell (s : String) : List Char := charsOf (Utf8.encodeString s)

def decimal (n : Int) : List Char := (toString n).toList

structure Variable where
  value : Option (List Char) := none
  exported : Bool := false
  fixed : Bool := false
  deriving Repr, DecidableEq, Inhabited

structure Stream where
  rest : List Char := []
  late : List Char := []
  ended : Bool := false
  deriving Repr, DecidableEq, Inhabited

def Stream.all (s : Stream) : List Char := s.rest ++ s.late.reverse

inductive Channel where
  | stream (id : Nat)
  | file (names : List String)
  | nowhere
  deriving Repr, DecidableEq, Inhabited

/-- Why a command does not go on with the next one: it leaves some loops or begins their next round,
gives control back from a function, ends its process, was killed, or waits for input. -/
inductive Flow where
  | leave (loops : Nat)
  | again (loops : Nat)
  | gives
  | exits
  | killed (process signal : Nat)
  | waiting
  deriving Repr, DecidableEq, Inhabited

/-- What a process works on. `hidden` holds what local variables hide, a list for each function that
runs; `pending` the signals that are still to be answered, and `outerTraps` the answers of the
process that this one is a part of, if it is one; `jobs` the numbers of the commands beside it and
their status, the last one first; `leaving` the status before the actions at the end began;
`answered` the status of the last command that was run for its output. The streams, the files and
the numbers given so far belong to all processes together. -/
structure State where
  number : Nat := 1
  name : List Char := "sh".toList
  arguments : List (List Char) := []
  vars : List (List Char × Variable) := []
  functions : List (List Char × Command) := []
  hidden : List (List (List Char × Option Variable)) := []
  traps : List (Nat × List Char) := []
  pending : List Nat := []
  outerTraps : Option (List (Nat × List Char)) := none
  jobs : List (Nat × Nat) := []
  leaving : Option Nat := none
  loops : Nat := 0
  optionPlace : Nat := 0
  switches : List Char := []
  status : Nat := 0
  answered : Nat := 0
  channels : List (Nat × Channel) := [(0, .stream 0), (1, .stream 1), (2, .nowhere)]
  streams : List (Nat × Stream) := []
  nextStream : Nat := 2
  nextProcess : Nat := 2
  tree : FileTree
  changes : List FileChange := []
  deriving Inhabited

abbrev Act := EStateM Flow State

namespace State

def binding? (s : State) (name : List Char) : Option Variable :=
  (s.vars.find? fun e => e.1 = name).map (·.2)

def value? (s : State) (name : List Char) : Option (List Char) := (s.binding? name).bind (·.value)

def value (s : State) (name : List Char) : List Char := (s.value? name).getD []

def putVariable (s : State) (name : List Char) (v : Variable) : State :=
  { s with vars := (name, v) :: s.vars.filter fun e => e.1 ≠ name }

def dropVariable (s : State) (name : List Char) : State :=
  { s with vars := s.vars.filter fun e => e.1 ≠ name }

def restore (s : State) (name : List Char) (earlier : Option Variable) : State :=
  match earlier with
  | some v => s.putVariable name v
  | none => s.dropVariable name

def succeed (s : State) (ok : Bool) : State := { s with status := if ok then 0 else 1 }

def switch (s : State) (c : Char) : Bool := s.switches.contains c

def function? (s : State) (name : List Char) : Option Command :=
  (s.functions.find? fun e => e.1 = name).map (·.2)

def trap? (s : State) (signal : Nat) : Option (List Char) :=
  (s.traps.find? fun e => e.1 = signal).map (·.2)

def channel? (s : State) (n : Nat) : Option Channel :=
  (s.channels.find? fun e => e.1 = n).map (·.2)

def direct (s : State) (n : Nat) (c : Option Channel) : State :=
  let others := s.channels.filter fun e => e.1 ≠ n
  { s with channels := (c.toList.map fun c => (n, c)) ++ others }

def stream (s : State) (id : Nat) : Stream :=
  ((s.streams.find? fun e => e.1 = id).map (·.2)).getD {}

def putStream (s : State) (id : Nat) (t : Stream) : State :=
  if s.streams.any fun e => e.1 = id then
    { s with streams := s.streams.map fun e => if e.1 = id then (id, t) else e }
  else { s with streams := (id, t) :: s.streams }

def openStream (s : State) (t : Stream) : Nat × State :=
  (s.nextStream, { s.putStream s.nextStream t with nextStream := s.nextStream + 1 })

def closeStream (s : State) (id : Nat) : State :=
  { s with streams := s.streams.filter fun e => e.1 ≠ id }

def write (s : State) (channel : Nat) (text : List Char) : State :=
  match s.channel? channel with
  | some (.stream id) =>
    let t := s.stream id
    s.putStream id { t with late := text.reverseAux t.late }
  | some (.file names) =>
    let old := match s.tree.root.descend names with
      | some (.file data _) => data
      | _ => []
    let change := FileChange.write names (old ++ bytesOf text)
    { s with tree := s.tree.change change, changes := change :: s.changes }
  | _ => s

def alter (s : State) (change : FileChange) : State :=
  { s with tree := s.tree.change change, changes := change :: s.changes }

/-- What can be read from a channel, and whether that is all. It is gone from the channel then. -/
def takeAll (s : State) (channel : Nat) : List Char × Bool × State :=
  match s.channel? channel with
  | some (.stream id) =>
    let t := s.stream id
    (t.all, t.ended, s.putStream id { ended := t.ended })
  | _ => ([], true, s)

/-- The next line of a channel without its end, and whether it had one. There is no line yet while
more may come. -/
def takeLine (s : State) (channel : Nat) : Option (List Char × Bool × State) :=
  match s.channel? channel with
  | some (.stream id) =>
    let t := s.stream id
    let t := if t.rest.contains '\n' then t else { t with rest := t.all, late := [] }
    let line := t.rest.takeWhile (· ≠ '\n')
    if line.length < t.rest.length then
      some (line, true, s.putStream id { t with rest := t.rest.drop (line.length + 1) })
    else if t.ended then some (line, false, s.putStream id { t with rest := [] })
    else none
  | _ => some ([], false, s)

end State

namespace Act

def succeed (ok : Bool) : Act Unit := modify fun s => s.succeed ok

def answer (status : Nat) : Act Unit := modify fun s => { s with status }

def fail {α : Type} : Act α := do
  answer 2
  throw .exits

def write (text : List Char) : Act Unit := modify fun s => s.write 1 text

def assign (name value : List Char) : Act Unit := do
  let old := ((← get).binding? name).getD {}
  if old.fixed then fail
  modify fun s =>
    s.putVariable name { old with value := some value, exported := old.exported || s.switch 'a' }

def readAll (channel : Nat) : Act (List Char) := do
  let (text, ended, s) := (← get).takeAll channel
  if ended then
    set s
    return text
  else throw .waiting

end Act

end Retest.Shell
