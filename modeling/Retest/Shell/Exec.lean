import Retest.Run.Process
import Retest.Shell.Builtin
import Retest.Shell.Script

namespace Retest.Shell

def keepingChannels (act : Act Unit) : Act Unit := do
  let channels := (← get).channels
  try act
  catch flow =>
    modify fun s => { s with channels }
    throw flow
  modify fun s => { s with channels }

def round (act : Act Unit) : Act Bool := do
  let loops := (← get).loops
  modify fun s => { s with loops := loops + 1 }
  let goesOn ← try
      act
      pure true
    catch flow =>
      match flow with
      | .leave n => if n ≤ 1 then pure false else throw (.leave (n - 1))
      | .again n => if n ≤ 1 then pure true else throw (.again (n - 1))
      | flow => throw flow
  modify fun s => { s with loops }
  return goesOn

/-- Does something to its end, and what is to be done at the end. It may still wait or be killed. -/
def closing (body atExit : Act Unit) : Act (Option Flow) := do
  let caught (act : Act Unit) : Act (Option Flow) := do
    try
      act
      return none
    catch flow => return some flow
  match ← caught body with
  | some .waiting => return some .waiting
  | some (.killed process signal) => return some (.killed process signal)
  | _ =>
    let status := (← get).status
    modify fun s => { s with leaving := some status }
    match ← caught atExit with
    | some .waiting => return some .waiting
    | some (.killed process signal) => return some (.killed process signal)
    | some _ => return none
    | none =>
      Act.answer status
      return none

/-- The state of a process after another one ran beside it: streams and files are shared, and
signals may have come in. -/
def State.rejoin (s other : State) : State :=
  { s with
    status := other.status
    pending := s.pending ++ (if other.number = s.number then other.pending else [])
    streams := other.streams
    nextStream := other.nextStream
    nextProcess := other.nextProcess
    tree := { other.tree with workingDir := s.tree.workingDir }
    changes := other.changes }

def inside (adjust : State → State) (body atExit : Act Unit) : Act Unit := do
  let s ← get
  let traps := s.traps.filter fun e => e.2.isEmpty
  let outerTraps := some (s.outerTraps.getD s.traps)
  let own := adjust { s with traps, outerTraps, pending := [], leaving := none }
  set own
  let flow ← closing body atExit
  modify s.rejoin
  match flow with
  | some (.killed process signal) =>
    if process = own.number ∧ process ≠ s.number then Act.answer (128 + signal)
    else throw (.killed process signal)
  | some flow => throw flow
  | none => pure ()

def collecting (body atExit : Act Unit) : Act (List Char) := do
  let before := (← get).status
  let (id, s) := (← get).openStream {}
  set s
  inside (fun s => s.direct 1 (some (.stream id))) body atExit
  let s ← get
  let text := (s.stream id).all
  set { s.closeStream id with answered := s.status, status := before }
  return text

def feed (channel : Nat) (text : List Char) : Act Unit := do
  let (id, s) := (← get).openStream { rest := text, ended := true }
  set (s.direct channel (some (.stream id)))

def directFile (channel : Nat) (direction : Direction) (name : List Char) : Act Bool := do
  let s ← get
  let path : Path := ⟨spell name⟩
  let standard : Option Nat := match spell name with
    | "/dev/stdin" | "/dev/fd/0" => some 0
    | "/dev/stdout" | "/dev/fd/1" => some 1
    | "/dev/stderr" | "/dev/fd/2" => some 2
    | _ => none
  match standard with
  | some n =>
    set (s.direct channel (s.channel? n))
    return (s.channel? n).isSome
  | none =>
    if s.tree.locate path |>.toOption |>.any (· = ["dev", "null"]) then
      set (s.direct channel (some .nowhere))
      return true
    else if direction = .input then
      match s.tree.read path with
      | .ok data =>
        feed channel (charsOf data)
        return true
      | .error _ => return false
    else
      match s.tree.creatable path with
      | .error _ => return false
      | .ok names =>
        if direction = .output ∨ !s.tree.pathExists path then
          modify fun s => s.alter (.write names [])
        modify fun s => s.direct channel (some (.file names))
        return true

def redirect (run : Command → Act (List Char)) : List Redirection → Act Bool
  | [] => return true
  | (channel, direction, word) :: rest => do
    let text ← textOf run word
    let ok ← match direction with
      | .document => do
        feed channel text
        pure true
      | .duplicate =>
        if text = ['-'] then do
          modify fun s => s.direct channel none
          pure true
        else if text ≠ [] ∧ text.all Char.isDigit then do
          let s ← get
          match s.channel? (Sum.ofDigits 10 text) with
          | some c => do
            set (s.direct channel (some c))
            pure true
          | none => pure false
        else Act.fail
      | direction => directFile channel direction text
    if ok then redirect run rest else return false

def choose (run : Command → Act (List Char)) (subject : List Char) :
    List (List Word × Command) → Act (Option Command)
  | [] => return none
  | (patterns, body) :: rest => do
    let fits ← patterns.anyM fun w => do
      return Glob.fits (← wordPattern run w) subject
    if fits then return some body else choose run subject rest

def declaring : List String := ["export", "local", "readonly"]

def commandFields (run : Command → Act (List Char)) (words : List Word) :
    Act (List (List Char)) := do
  let declares := (words.head?.bind plainText?).any fun t => declaring.contains (String.ofList t)
  let fields ← words.mapM fun w => do
    match if declares then assignment? w else none with
    | some (name, value) => return [name ++ '=' :: (← textOf run value)]
    | none => fieldsOf run w
  return fields.flatten

def checkFailure (tested : Bool) : Act Unit := do
  let s ← get
  if s.status ≠ 0 && !tested && s.switch 'e' then throw .exits

def assignAll (assignments : List (List Char × Act (List Char))) (mark : Variable → Variable) :
    Act Unit :=
  assignments.forM fun e => do
    Act.assign e.1 (← e.2)
    modify fun s => s.putVariable e.1 (mark ((s.binding? e.1).getD {}))

def withVariables (assignments : List (List Char × Act (List Char))) (act : Act Unit) :
    Act Unit := do
  let s ← get
  let old := assignments.map fun e => (e.1, s.binding? e.1)
  let restore : Act Unit := modify fun s => old.foldl (fun s e => s.restore e.1 e.2) s
  try
    assignAll assignments fun v => { v with exported := true }
    act
  catch flow =>
    restore
    throw flow
  restore

def programDirs : List (List Char) := ["/usr/bin/", "/bin/"].map String.toList

def programName (path : List Char) : List Char :=
  match programDirs.find? fun dir => dir.isPrefixOf path with
  | some dir => path.drop dir.length
  | none => path

def shells : List String := ["bash", "dash", "sh"]

def isProgram (name : List Char) : Bool := Utility.names.contains (String.ofList name)

/-- How a shell is called: its switches, its script if it is given as text, and further words. -/
structure Call where
  switches : List Char := []
  fromText : Bool := false
  words : List (List Char)

def Call.ofWords (switches : List Char) (fromText : Bool) : List (List Char) → Call
  | ['-', '-'] :: rest => { switches, fromText, words := rest }
  | ('-' :: c :: letters) :: rest =>
    let l := (c :: letters).filter (· ≠ 'c')
    Call.ofWords (switches ++ l) (fromText || (c :: letters).contains 'c') rest
  | words => { switches, fromText, words }

def State.exports (s : State) : List (List Char × Variable) := s.vars.filter fun e => e.2.exported

def describe (full : Bool) (names : List (List Char)) : Act Unit := do
  Act.succeed true
  names.forM fun name => do
    let s ← get
    let word := String.ofList name
    let isBuiltin := (Builtin.named? word).isSome ||
      [".", "command", "eval", "exec", "type"].contains word
    let (shown, kind) : List Char × String :=
      if (s.function? name).isSome then (name, " is a shell function")
      else if isBuiltin then (name, " is a shell builtin")
      else if isProgram name then ("/usr/bin/".toList ++ name, " is /usr/bin/" ++ spell name)
      else ([], ": not found")
    if full then Act.write (name ++ unspell kind ++ ['\n'])
    else if !shown.isEmpty then Act.write (shown ++ ['\n'])
    if shown.isEmpty then Act.answer 127

def showVariables (names : List (List Char)) : Act Unit := do
  let l := (← get).exports
  let values := names.map fun name => (l.find? fun e => e.1 = name).bind fun e => e.2.value
  if names.isEmpty then Act.write (endLines (l.map fun e => e.1 ++ '=' :: e.2.value.getD []))
  else Act.write (endLines (values.filterMap id))
  Act.succeed (!values.contains none)

/-- The script that a shell is called with, and what becomes of the state for it. There is none if
its file cannot be read. -/
def scriptOf (words : List (List Char)) : Act (Option (List Char × (State → State))) := do
  let call := Call.ofWords [] false words
  let fresh (name : List Char) (arguments : List (List Char)) (s : State) : State :=
    { s with
      number := s.nextProcess
      nextProcess := s.nextProcess + 1
      name, arguments
      vars := ("OPTIND".toList, { value := some ['1'] }) :: s.exports
      functions := []
      outerTraps := none
      jobs := []
      hidden := []
      loops := 0
      switches := call.switches }
  let shell := "sh".toList
  match call.words with
  | [] =>
    if call.fromText then return none
    return some (← Act.readAll 0, fresh shell [])
  | first :: rest =>
    if call.fromText then return some (first, fresh (rest.headD shell) (rest.drop 1))
    match (← get).tree.read ⟨spell first⟩ with
    | .ok data => return some (charsOf data, fresh first rest)
    | .error _ => return none

mutual

/-- Runs a command. The fuel bounds nesting and rounds of loops. A failure in a `tested` command
does not end the script. -/
def exec : Nat → Bool → Command → Act Unit
  | 0, _, _ => throw .waiting
  | fuel + 1, tested, c =>
    match c with
    | .empty => return
    | .simple assignments words redirections => do
      runSimple fuel tested assignments words redirections
      runPending fuel
      checkFailure tested
    | .redirected body redirections =>
      keepingChannels do
        if ← redirect (capture fuel) redirections then exec fuel tested body
        else
          Act.answer 2
          checkFailure tested
    | .pipeline stages => do
      if ← runStages fuel none stages then throw .waiting
      runPending fuel
      checkFailure tested
    | .negation c => do
      exec fuel true c
      Act.succeed ((← get).status ≠ 0)
    | .both a b => do
      exec fuel true a
      if (← get).status = 0 then exec fuel tested b
    | .either a b => do
      exec fuel true a
      if (← get).status ≠ 0 then exec fuel tested b
    | .sequence a b => do
      exec fuel tested a
      exec fuel tested b
    | .background c => do
      let number := (← get).nextProcess
      modify fun s => { s with nextProcess := number + 1 }
      let apart (s : State) : State := s.direct 0 (some .nowhere)
      try inside apart (exec fuel false c) (runExitTrap fuel)
      catch flow => if flow ≠ .waiting then throw flow
      modify fun s => { s with status := 0, jobs := (number, s.status) :: s.jobs }
    | .subshell body => do
      inside id (exec fuel tested body) (runExitTrap fuel)
      checkFailure tested
    | .condition test yes no => do
      exec fuel true test
      if (← get).status = 0 then exec fuel tested yes
      else
        match no with
        | .empty => Act.succeed true
        | no => exec fuel tested no
    | .loop until_ test body => do
      runLoop fuel tested until_ 0 test body
    | .each name words body => do
      let values := (← words.mapM (fieldsOf (capture fuel))).flatten
      if values.isEmpty then Act.succeed true
      runEach fuel tested name values body
    | .choice subject branches => do
      let text ← textOf (capture fuel) subject
      match ← choose (capture fuel) text branches with
      | none | some .empty => Act.succeed true
      | some body => exec fuel tested body
    | .definition name body => do
      modify fun s =>
        { s with functions := (name, body) :: s.functions.filter fun e => e.1 ≠ name }
      Act.succeed true

/-- Runs the rounds of a loop. The status is that of the last round. -/
def runLoop : Nat → Bool → Bool → Nat → Command → Command → Act Unit
  | 0, _, _, _, _, _ => throw .waiting
  | fuel + 1, tested, until_, status, test, body => do
    if !(← round (exec fuel true test)) then Act.answer status
    else if ((← get).status = 0) = until_ then Act.answer status
    else if ← round (exec fuel tested body) then
      runLoop fuel tested until_ (← get).status test body

def runEach : Nat → Bool → List Char → List (List Char) → Command → Act Unit
  | 0, _, _, _, _ => throw .waiting
  | _, _, _, [], _ => return
  | fuel + 1, tested, name, v :: rest, body => do
    Act.assign name v
    if ← round (exec fuel tested body) then runEach fuel tested name rest body

/-- Runs the stages of a pipeline, each in a process of its own, and tells whether one of them
waits. -/
def runStages : Nat → Option Nat → List Command → Act Bool
  | 0, _, _ => throw .waiting
  | _, _, [] => return false
  | fuel + 1, input, c :: rest => do
    let (id, s) := (← get).openStream {}
    set s
    let adjust (s : State) : State :=
      let s := match input with
        | some n => s.direct 0 (some (.stream n))
        | none => s
      if rest.isEmpty then s else s.direct 1 (some (.stream id))
    let waits ← try
        inside adjust (exec fuel false c) (runExitTrap fuel)
        pure false
      catch flow => if flow = .waiting then pure true else throw flow
    if !waits then modify fun s => s.putStream id { s.stream id with ended := true }
    let others ← runStages fuel (some id) rest
    modify fun s => s.closeStream id
    return waits || others

def capture : Nat → Command → Act (List Char)
  | 0, _ => throw .waiting
  | fuel + 1, c => collecting (exec fuel false c) (runExitTrap fuel)

/-- Runs a simple command. Words are expanded first, then channels directed, then variables set. -/
def runSimple : Nat → Bool → List (List Char × Word) → List Word → List Redirection → Act Unit
  | 0, _, _, _, _ => throw .waiting
  | fuel + 1, tested, assignments, words, redirections => do
    modify fun s => { s with answered := 0 }
    let fields ← commandFields (capture fuel) words
    let assignments := assignments.map fun e => (e.1, textOf (capture fuel) e.2)
    match fields with
    | [] =>
      keepingChannels do
        if ← redirect (capture fuel) redirections then
          assignAll assignments id
          Act.answer (← get).answered
        else Act.answer 2
    | name :: arguments =>
      let special := Builtin.special.contains (String.ofList name)
      if name = "exec".toList then
        if !(← redirect (capture fuel) redirections) then Act.fail
        assignAll assignments id
        if arguments.isEmpty then Act.succeed true
        else
          runProgram fuel arguments
          throw .exits
      else
        keepingChannels do
          if !(← redirect (capture fuel) redirections) then
            if special then Act.fail else Act.answer 2
          else if special then
            assignAll assignments id
            runNamed fuel tested true name arguments
          else if assignments.isEmpty then runNamed fuel tested true name arguments
          else withVariables assignments (runNamed fuel tested true name arguments)

/-- Runs a command by its name: a function, a command of the shell, or a program. -/
def runNamed : Nat → Bool → Bool → List Char → List (List Char) → Act Unit
  | 0, _, _, _, _ => throw .waiting
  | fuel + 1, tested, functions, name, arguments => do
    let s ← get
    match if functions then s.function? name else none with
    | some body => runFunction fuel tested body arguments
    | none =>
      match String.ofList name with
      | "eval" => runText fuel tested ([' '].intercalate arguments)
      | "." =>
        let file := arguments.headD []
        match (← get).tree.read ⟨spell file⟩ with
        | .error _ => Act.fail
        | .ok data =>
          if !file.contains '/' then Act.fail
          try runText fuel tested (charsOf data)
          catch flow => if flow ≠ .gives then throw flow
      | "command" =>
        match arguments with
        | ['-', 'v'] :: names | ['-', 'V'] :: names => describe false names
        | ['-', 'p'] :: name :: arguments => runNamed fuel tested false name arguments
        | name :: arguments => runNamed fuel tested false name arguments
        | [] => Act.succeed true
      | "type" => describe true arguments
      | word =>
        match Builtin.named? word with
        | some act => act arguments
        | none => runProgram fuel (name :: arguments)

def runFunction : Nat → Bool → Command → List (List Char) → Act Unit
  | 0, _, _, _ => throw .waiting
  | fuel + 1, tested, body, arguments => do
    let s ← get
    set { s with arguments, hidden := [] :: s.hidden, loops := 0 }
    let leave : Act Unit := modify fun t =>
      let t := (t.hidden.headD []).foldl (fun t e => t.restore e.1 e.2) t
      { t with arguments := s.arguments, hidden := s.hidden, loops := s.loops }
    try exec fuel tested body
    catch flow =>
      leave
      if flow = .gives then return else throw flow
    leave

def runProgram : Nat → List (List Char) → Act Unit
  | 0, _ => throw .waiting
  | _, [] => Act.succeed true
  | fuel + 1, path :: arguments => do
    let name := programName path
    let word := String.ofList name
    if name.contains '/' then
      Act.answer (if (← get).tree.pathExists ⟨spell name⟩ then 126 else 127)
    else if shells.contains word then runShell fuel arguments
    else
      match word with
      | "env" => runEnv fuel arguments
      | "printenv" => showVariables arguments
      | "nohup" | "nice" => runProgram fuel arguments
      | "timeout" => runProgram fuel (arguments.drop 1)
      | "xargs" => runOverWords fuel arguments
      | _ =>
        match Utility.named? word with
        | some act => act arguments
        | none =>
          match if Builtin.programs.contains word then Builtin.named? word else none with
          | some act => act arguments
          | none => Act.answer 127

def runEnv : Nat → List (List Char) → Act Unit
  | 0, _ => throw .waiting
  | _, [] => showVariables []
  | fuel + 1, word :: rest => do
    match Builtin.cutAssignment word with
    | (name, some value) => withVariables [(name, pure value)] (runEnv fuel rest)
    | (_, none) =>
      match word, rest with
      | ['-', 'i'], rest => do
        let vars := (← get).vars
        modify fun s => { s with vars := vars.map fun e => (e.1, { e.2 with exported := false }) }
        runEnv fuel rest
        modify fun s => { s with vars }
      | ['-', 'u'], name :: rest => do
        let old := (← get).binding? name
        modify fun s => s.dropVariable name
        runEnv fuel rest
        modify fun s => s.restore name old
      | word, rest => runProgram fuel (word :: rest)

def runOverWords : Nat → List (List Char) → Act Unit
  | 0, _ => throw .waiting
  | fuel + 1, arguments => do
    let text ← Act.readAll 0
    let words := ((text.map fun c => if c = '\n' ∨ c = '\t' then ' ' else c))
    let words := (cutEach ' ' words).filter fun w => !w.isEmpty
    let run (given command : List (List Char)) : Act Unit :=
      runProgram fuel ((if command.isEmpty then ["echo".toList] else command) ++ given)
    match arguments with
    | ['-', 'n'] :: n :: command =>
      let size := max 1 (natOf n)
      let starts := (List.range words.length).filter fun i => i % size = 0
      starts.forM fun i => run ((words.drop i).take size) command
    | ('-' :: 'n' :: n) :: command =>
      let size := max 1 (natOf n)
      let starts := (List.range words.length).filter fun i => i % size = 0
      starts.forM fun i => run ((words.drop i).take size) command
    | ('-' :: 'I' :: mark) :: command =>
      (plainLines text).forM fun line =>
        run [] (command.map fun w => line.intercalate (cutAtText mark w))
    | command => run words command

def runShell : Nat → List (List Char) → Act Unit
  | 0, _ => throw .waiting
  | fuel + 1, words => do
    match ← scriptOf words with
    | none => Act.answer 2
    | some (text, adjust) => inside adjust (runText fuel false text) (runExitTrap fuel)

def runText : Nat → Bool → List Char → Act Unit
  | 0, _, _ => throw .waiting
  | fuel + 1, tested, text => do
    match Reading.ofScript text with
    | .finished => return
    | .mistaken => Act.fail
    | .line c rest =>
      exec fuel tested c
      runText fuel tested rest

def runPending : Nat → Act Unit
  | 0 => throw .waiting
  | fuel + 1 => do
    let s ← get
    match if s.outerTraps.isSome then [] else s.pending with
    | [] => return
    | signal :: rest =>
      set { s with pending := rest }
      runText fuel false ((s.trap? signal).getD [])
      Act.answer s.status
      runPending fuel

def runExitTrap : Nat → Act Unit
  | 0 => throw .waiting
  | fuel + 1 => do
    match (← get).trap? 0 with
    | none => return
    | some action =>
      modify fun s => { s with traps := s.traps.filter fun e => e.1 ≠ 0 }
      runText fuel false action

end

def patience : Nat := 1000000

def runFirst (words : List (List Char)) : Act (Option Flow) := do
  match words with
  | [] => return none
  | name :: arguments =>
    if shells.contains (String.ofList (programName name)) then
      match ← scriptOf arguments with
      | none =>
        Act.answer 2
        return none
      | some (text, adjust) =>
        modify adjust
        closing (runText patience false text) (runExitTrap patience)
    else closing (runProgram patience words) (pure ())

/-- What can be seen of a program that has stopped. Its output has ended when no channel leads there
any more. -/
def conductOf (s : State) (flow : Option Flow) : Conduct where
  output := bytesOf (s.stream 1).all
  outputEnded := flow ≠ some .waiting || !s.channels.any fun e => e.2 = .stream 1
  status :=
    match flow with
    | some .waiting => .running
    | some (.killed _ signal) => .killed signal
    | _ => .exited s.status
  changes := s.changes.reverse

def startState (tree : FileTree) (vars : List (String × String)) (input : List UInt8)
    (ended : Bool) : State :=
  let dir := Builtin.dirPath tree.workingDir
  let given := vars.map fun e => (unspell e.1, { value := some (unspell e.2), exported := true })
  { tree
    vars := ("PWD".toList, { value := some dir, exported := true }) :: given
    streams := [(0, { rest := charsOf input, ended }), (1, {})] }

/-- A command as a program: the name of a program of the machine, and its arguments. -/
def program (tree : FileTree) (vars : List (String × String)) (words : List String) : Program :=
  fun input ended =>
    match (runFirst (words.map unspell)).run (startState tree vars input ended) with
    | .ok flow s => conductOf s flow
    | .error flow s => conductOf s (some flow)

end Retest.Shell
