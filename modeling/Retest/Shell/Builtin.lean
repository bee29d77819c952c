import Retest.Shell.Utility

namespace Retest.Shell

def signals : List (String × Nat) :=
  [("EXIT", 0), ("HUP", 1), ("INT", 2), ("QUIT", 3), ("ILL", 4), ("TRAP", 5), ("ABRT", 6),
    ("BUS", 7), ("FPE", 8), ("KILL", 9), ("USR1", 10), ("SEGV", 11), ("USR2", 12), ("PIPE", 13),
    ("ALRM", 14), ("TERM", 15), ("CHLD", 17), ("CONT", 18), ("STOP", 19), ("TSTP", 20)]

def signal? (t : List Char) : Option Nat :=
  if t ≠ [] ∧ t.all Char.isDigit then
    let n := Sum.ofDigits 10 t
    if n < 65 then some n else none
  else
    let t := if "SIG".toList.isPrefixOf t then t.drop 3 else t
    (signals.find? fun e => e.1.toList = t).map (·.2)

def quoteText (t : List Char) : List Char :=
  '\'' :: t.flatMap (fun c => if c = '\'' then "'\"'\"'".toList else [c]) ++ ['\'']

namespace Builtin

def special : List String :=
  [":", ".", "break", "continue", "eval", "exec", "exit", "export", "readonly", "return", "set",
    "shift", "times", "trap", "unset"]

def echo (words : List (List Char)) : Act Unit := do
  let (ended, words) := match words with
    | ['-', 'n'] :: rest => (false, rest)
    | rest => (true, rest)
  let (text, stopped) := Format.unescaped ([' '].intercalate words)
  Act.write (if ended && !stopped then text ++ ['\n'] else text)
  Act.succeed true

def printf (words : List (List Char)) : Act Unit := do
  let words := if words.head? = some ['-', '-'] then words.drop 1 else words
  match words with
  | [] => Act.answer 2
  | ('-' :: _ :: _) :: _ => Act.answer 2
  | format :: values =>
    let f := Format.filled format values
    Act.write f.text
    Act.answer f.status

def test (words : List (List Char)) : Act Unit := do
  match Condition.evaluate (← get).tree words with
  | some holds => Act.succeed holds
  | none => Act.answer 2

def countOr (default : Nat) (words : List (List Char)) : Act Nat :=
  match words with
  | [] => return default
  | t :: _ => if t ≠ [] ∧ t.all Char.isDigit then return Sum.ofDigits 10 t else Act.fail

/-- Leaves loops, or goes on with their next round. Outside of loops nothing happens. -/
def jump (flow : Nat → Flow) (words : List (List Char)) : Act Unit := do
  let n ← countOr 1 words
  if n = 0 then Act.fail
  Act.succeed true
  let loops := (← get).loops
  if 0 < loops then throw (flow (min n loops))

def statusOr (words : List (List Char)) : Act Nat := do
  let s ← get
  return (← countOr (s.leaving.getD s.status) words) % 256

def exit (words : List (List Char)) : Act Unit := do
  Act.answer (← statusOr words)
  throw .exits

def return_ (words : List (List Char)) : Act Unit := do
  Act.answer (← countOr (← get).status words)
  throw .gives

def shift (words : List (List Char)) : Act Unit := do
  let n ← countOr 1 words
  if (← get).arguments.length < n then Act.fail
  modify fun s => { s with arguments := s.arguments.drop n }
  Act.succeed true

def turn (on : Bool) (letters : List Char) : Act Unit :=
  letters.forM fun c => modify fun s =>
    let others := s.switches.filter (· ≠ c)
    { s with switches := if on then others ++ [c] else others }

def switchNames : List (String × Char) :=
  [("allexport", 'a'), ("errexit", 'e'), ("noglob", 'f'), ("noexec", 'n'), ("nounset", 'u'),
    ("verbose", 'v'), ("xtrace", 'x'), ("noclobber", 'C')]

def set_ : List (List Char) → Act Unit
  | ['-', '-'] :: rest => modify fun s => { s with arguments := rest, status := 0 }
  | [sign, 'o'] :: name :: rest => do
    match switchNames.find? fun e => e.1.toList = name with
    | some (_, c) => turn (sign = '-') [c]
    | none => Act.fail
    set_ rest
  | (sign :: c :: letters) :: rest => do
    if sign = '-' ∨ sign = '+' then
      if (c :: letters).any fun c => !"abefhimnuvxCE".toList.contains c then Act.fail
      turn (sign = '-') (c :: letters)
      set_ rest
    else modify fun s => { s with arguments := (sign :: c :: letters) :: rest, status := 0 }
  | [] => Act.succeed true
  | rest => modify fun s => { s with arguments := rest, status := 0 }

def unset (words : List (List Char)) : Act Unit := do
  let (functions, names) := match words with
    | ['-', 'f'] :: rest => (true, rest)
    | ['-', 'v'] :: rest => (false, rest)
    | rest => (false, rest)
  names.forM fun name => do
    if functions then
      modify fun s => { s with functions := s.functions.filter fun e => e.1 ≠ name }
    else
      if ((← get).binding? name).any (·.fixed) then Act.fail
      modify fun s => s.dropVariable name
  Act.succeed true

def cutAssignment (word : List Char) : List Char × Option (List Char) :=
  let name := word.takeWhile (· ≠ '=')
  match word.drop name.length with
  | [] => (name, none)
  | _ :: value => (name, some value)

def declare (words : List (List Char)) (mark : Variable → Variable) : Act Unit := do
  words.forM fun word => do
    let (name, value) := cutAssignment word
    if !isName name then Act.fail
    value.forM fun v => Act.assign name v
    modify fun s => s.putVariable name (mark ((s.binding? name).getD {}))
  Act.succeed true

def showAll (command : String) (shown : Variable → Bool) : Act Unit := do
  let l := ((← get).vars.filter fun e => shown e.2).mergeSort fun a b => (compare a.1 b.1).isLE
  Act.write (endLines (l.map fun e =>
    command.toList ++ ' ' :: e.1 ++ ((e.2.value.map fun v => '=' :: quoteText v).getD [])))
  Act.succeed true

def export_ (words : List (List Char)) : Act Unit :=
  if words = [] ∨ words = [['-', 'p']] then showAll "export" (·.exported)
  else declare words fun v => { v with exported := true }

def readonly (words : List (List Char)) : Act Unit :=
  if words = [] ∨ words = [['-', 'p']] then showAll "readonly" (·.fixed)
  else declare words fun v => { v with fixed := true }

def local_ (words : List (List Char)) : Act Unit := do
  words.forM fun word => do
    let (name, value) := cutAssignment word
    let s ← get
    match s.hidden with
    | [] => Act.fail
    | top :: rest =>
      if !top.any fun e => e.1 = name then
        set { s with hidden := ((name, s.binding? name) :: top) :: rest }
    value.forM fun v => Act.assign name v
  Act.succeed true

/-- Fields of a line for `read`: a separator that is no blank may stand among blanks. -/
def takeField (separators : List Char) (line : List (Char × Bool)) :
    List Char × List (Char × Bool) :=
  let separates (e : Char × Bool) : Bool := !e.2 && separators.contains e.1
  let isBlank (e : Char × Bool) : Bool := separates e && (isBlankSpace e.1 || e.1 = '\n')
  let field := line.takeWhile fun e => !separates e
  let rest := (line.drop field.length).dropWhile isBlank
  let rest := match rest with
    | e :: more => if separates e then more.dropWhile isBlank else rest
    | [] => []
  (field.map (·.1), rest)

/-- Gives the fields of a line to variables. The last one takes all that is left. -/
def assignFields (separators : List Char) : List (List Char) → List (Char × Bool) → Act Unit
  | [], _ => return
  | [name], line =>
    let isBlank (e : Char × Bool) : Bool :=
      !e.2 && separators.contains e.1 && (isBlankSpace e.1 || e.1 = '\n')
    let (field, rest) := takeField separators line
    if rest.isEmpty then Act.assign name field
    else Act.assign name ((line.reverse.dropWhile isBlank).reverse.map (·.1))
  | name :: names, line => do
    let (field, rest) := takeField separators line
    Act.assign name field
    assignFields separators names rest

/-- Takes the backslashes out of a line, and the meaning from what follows them. A line that ends in
one goes on. -/
def unescapeLine : List Char → List (Char × Bool) × Bool
  | [] => ([], false)
  | ['\\'] => ([], true)
  | '\\' :: c :: rest =>
    let (more, goesOn) := unescapeLine rest
    ((c, true) :: more, goesOn)
  | c :: rest =>
    let (more, goesOn) := unescapeLine rest
    ((c, false) :: more, goesOn)

def inputLine (raw : Bool) : Nat → Act (List (Char × Bool) × Bool)
  | 0 => throw .waiting
  | fuel + 1 => do
    match (← get).takeLine 0 with
    | none => throw .waiting
    | some (line, ended, s) =>
      set s
      if raw then return (line.map fun c => (c, false), ended)
      else
        let (line, goesOn) := unescapeLine line
        if goesOn && ended then
          let (more, ended) ← inputLine raw fuel
          return (line ++ more, ended)
        else return (line, ended)

def read (words : List (List Char)) : Act Unit := do
  let (raw, names) : Bool × List (List Char) := match words with
    | ['-', 'r'] :: ['-', 'p'] :: _ :: rest | ['-', 'p'] :: _ :: ['-', 'r'] :: rest => (true, rest)
    | ['-', 'r'] :: rest => (true, rest)
    | ['-', 'p'] :: _ :: rest => (false, rest)
    | rest => (false, rest)
  if names.isEmpty || names.any fun name => !isName name then Act.answer 2
  else
    let separators := (← get).separators
    let (line, ended) ← inputLine raw 1000000
    let line := line.dropWhile fun e =>
      !e.2 && separators.contains e.1 && (isBlankSpace e.1 || e.1 = '\n')
    assignFields separators names line
    Act.succeed ended

def dirPath (names : List String) : List Char := '/' :: ['/'].intercalate (names.map unspell)

def cd (words : List (List Char)) : Act Unit := do
  let s ← get
  let words := words.filter fun w => w ≠ ['-', 'P'] && w ≠ ['-', 'L']
  let back := words = [['-']]
  let target := if back then s.value "OLDPWD".toList
    else match words with
      | [] => s.value "HOME".toList
      | w :: _ => w
  if !s.tree.isDir ⟨spell target⟩ then Act.answer 2
  else
    let old := dirPath s.tree.workingDir
    let tree := s.tree.enter ⟨spell target⟩
    set { s with tree }
    Act.assign "OLDPWD".toList old
    Act.assign "PWD".toList (dirPath tree.workingDir)
    if back then Act.write (dirPath tree.workingDir ++ ['\n'])
    Act.succeed true

def pwd : Act Unit := do
  Act.write (dirPath (← get).tree.workingDir ++ ['\n'])
  Act.succeed true

/-- Sends signals. The script itself is there to get them, and the commands beside it have ended. A
signal that the script does not answer kills it. -/
def kill (words : List (List Char)) : Act Unit := do
  let (signal, targets) : Option Nat × List (List Char) :=
    match words with
    | ['-', 's'] :: name :: rest => (signal? name, rest)
    | ['-', '-'] :: rest => (some 15, rest)
    | ('-' :: name) :: rest => (signal? name, rest)
    | rest => (some 15, rest)
  match signal with
  | none => Act.answer 2
  | some n =>
    if targets.isEmpty then Act.answer 2
    else
      targets.forM fun target => do
        let s ← get
        if target ≠ decimal s.number then
          Act.succeed (s.jobs.any fun j => target = decimal j.1)
        else if n = 0 ∨ 16 < n then Act.succeed true
        else
          let traps := s.outerTraps.getD s.traps
          match traps.find? fun e => e.1 = n && n ≠ 9 with
          | none => throw (.killed s.number n)
          | some (_, action) =>
            if !action.isEmpty then set { s with pending := s.pending ++ [n] }
            Act.succeed true

def trap (words : List (List Char)) : Act Unit := do
  let words := if words.head? = some ['-', '-'] then words.drop 1 else words
  match words with
  | [] =>
    let s ← get
    let shown := signals.filterMap fun e => (s.trap? e.2).map fun action =>
      "trap -- ".toList ++ quoteText action ++ ' ' :: e.1.toList
    Act.write (endLines shown)
    Act.succeed true
  | first :: rest =>
    let (action, names) := if rest.isEmpty || (signal? first).isSome && first.all Char.isDigit then
        (none, words)
      else (if first = ['-'] then none else some first, rest)
    Act.succeed true
    names.forM fun name => do
      match signal? name with
      | none => Act.answer 1
      | some n =>
        let chosen := action.toList.map fun a => (n, a)
        modify fun s => { s with traps := chosen ++ s.traps.filter fun e => e.1 ≠ n }

def wait (words : List (List Char)) : Act Unit := do
  let jobs := (← get).jobs
  match words.getLast? with
  | none => Act.succeed true
  | some word =>
    Act.answer (((jobs.find? fun j => decimal j.1 = word).map (·.2)).getD 127)

def getopts (words : List (List Char)) : Act Unit := do
  match words with
  | letters :: name :: given =>
    let s ← get
    let l := if given.isEmpty then s.arguments else given
    let index := max 1 (natOf (s.value "OPTIND".toList))
    let word := l.getD (index - 1) []
    let finish (index place : Nat) (letter : List Char) (value : Option (List Char)) (ok : Bool) :
        Act Unit := do
      modify fun s => { s with optionPlace := place }
      Act.assign "OPTIND".toList (decimal index)
      Act.assign name letter
      match value with
      | some v => Act.assign "OPTARG".toList v
      | none => modify fun s => s.dropVariable "OPTARG".toList
      Act.succeed ok
    match word with
    | '-' :: _ :: _ =>
      let place := max 1 s.optionPlace
      let c := word.getD place '?'
      let after := word.drop (place + 1)
      let (index, place) := if after.isEmpty then (index + 1, 0) else (index, place + 1)
      if word = ['-', '-'] then finish (index + 1) 0 ['?'] none false
      else
        match letters.dropWhile (· ≠ c) with
        | [] => finish index place ['?'] (if letters.head? = some ':' then some [c] else none) true
        | _ :: ':' :: _ =>
          if !after.isEmpty then finish index 0 [c] (some after) true
          else
            match l[index - 1]? with
            | some v => finish (index + 1) 0 [c] (some v) true
            | none =>
              if letters.head? = some ':' then finish index 0 [':'] (some [c]) true
              else finish index 0 ['?'] none true
        | _ => finish index place [c] none true
    | _ => finish index 0 ['?'] none false
  | _ => Act.answer 2

def named? (name : String) : Option (List (List Char) → Act Unit) :=
  match name with
  | ":" | "true" => some fun _ => Act.succeed true
  | "false" => some fun _ => Act.succeed false
  | "echo" => some echo
  | "printf" => some printf
  | "test" => some test
  | "[" => some fun words =>
    if words.getLast? = some [']'] then test words.dropLast else Act.answer 2
  | "break" => some (jump .leave)
  | "continue" => some (jump .again)
  | "exit" => some exit
  | "return" => some return_
  | "shift" => some shift
  | "set" => some set_
  | "unset" => some unset
  | "export" => some export_
  | "readonly" => some readonly
  | "local" => some local_
  | "read" => some read
  | "cd" => some cd
  | "pwd" => some fun _ => pwd
  | "kill" => some kill
  | "trap" => some trap
  | "getopts" => some getopts
  | "umask" => some fun words => do
    if words.isEmpty then Act.write "0022\n".toList
    Act.succeed true
  | "wait" => some wait
  | "jobs" | "times" | "ulimit" | "hash" | "alias" | "unalias" =>
    some fun _ => Act.succeed true
  | _ => none

def programs : List String := ["[", "echo", "false", "kill", "printf", "pwd", "test", "true"]

end Builtin

end Retest.Shell
