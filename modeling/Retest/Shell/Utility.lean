import Retest.Shell.Calculation
import Retest.Shell.Condition
import Retest.Shell.Filter

namespace Retest.Shell

namespace Utility

def alter (change : FileChange) : Act Unit := modify fun s => s.alter change

/-- The text of some files one after the other, or what can be read from the input; whether that is
all, and whether all files were there. A lone dash is the input. -/
def gather (names : List (List Char)) : Act (List Char × Bool × Bool) :=
  (if names.isEmpty then [['-']] else names).foldlM (fun (text, ended, found) name => do
    if !ended then return (text, ended, found)
    else if name = ['-'] || name = "/dev/stdin".toList then
      let (more, isAll, s) := (← get).takeAll 0
      set s
      return (text ++ more, isAll, found)
    else
      match (← get).tree.read ⟨spell name⟩ with
      | .ok data => return (text ++ charsOf data, ended, found)
      | .error _ => return (text, ended, false)) ([], true, true)

/-- Puts a text through a filter. While there may be more of it, nothing is written unless the
filter has enough. -/
def filter (names : List (List Char)) (missing : Nat) (f : List Char → Made) : Act Unit := do
  let (text, ended, found) ← gather names
  let made := f text
  if !ended && !made.enough then throw .waiting
  Act.write made.text
  Act.answer (if found then made.status else missing)

def filter? (names : List (List Char)) (f : List Char → Option Made) : Act Unit :=
  match f [] with
  | none => Act.answer 1
  | some _ => filter names 1 fun text => (f text).getD {}

def cat (words : List (List Char)) : Act Unit := do
  let (options, names) := optionsOf "" words
  let (text, ended, found) ← gather names
  Act.write (if hasOption options 'n' then
      (((splitLines text).zipIdx 1).map fun (line, n) =>
        let n := decimal n
        joinLines [(List.replicate (6 - n.length) ' ' ++ n ++ '\t' :: line.1, line.2)]).flatten
    else text)
  if !ended then throw .waiting
  Act.succeed found

def grep (style : Regexp.Style) (fixed : Bool) (words : List (List Char)) : Act Unit := do
  let (options, operands) := optionsOf "efmABC" words
  let given := (options.filter fun e => e.1 = 'e').map (·.2)
  let (patterns, names) := if given.isEmpty then (operands.take 1, operands.drop 1)
    else (given, operands)
  let patterns := patterns.flatMap fun p => cutEach '\n' p
  let style := {
    extended := style.extended || hasOption options 'E'
    ignoresCase := hasOption options 'i' || hasOption options 'y' }
  match Filter.grepPattern? options style (fixed || hasOption options 'F') patterns with
  | none => Act.answer 2
  | some r =>
    if patterns.isEmpty then Act.answer 2
    else
      let named := (1 < names.length || hasOption options 'H') && !hasOption options 'h'
      let label (name : List Char) : List Char :=
        if named || hasOption options 'l' then
          (if name = ['-'] then "(standard input)".toList else name)
        else []
      let (worst, hit) ← (if names.isEmpty then [['-']] else names).foldlM
        (fun (acc : Nat × Bool) name => do
          filter [name] 2 (Filter.grep options r (label name))
          let status := (← get).status
          return (if status = 2 then 2 else acc.1, acc.2 || status = 0)) (0, false)
      Act.answer (if hit && hasOption options 'q' then 0 else if worst = 2 then 2
        else if hit then 0 else 1)

def sed (words : List (List Char)) : Act Unit := do
  let (options, operands) := optionsOf "ef" words
  let given := (options.filter fun e => e.1 = 'e').map (·.2)
  let files := (options.filter fun e => e.1 = 'f').map (·.2)
  let (scripts, names) := if given.isEmpty && files.isEmpty then
      (operands.take 1, operands.drop 1)
    else (given, operands)
  let tree := (← get).tree
  let texts := files.map fun f => (tree.read ⟨spell f⟩).toOption.map charsOf
  let script := ['\n'].intercalate (scripts ++ texts.filterMap id)
  let extended := hasOption options 'E' || hasOption options 'r'
  match Edit.ofText? { extended } script with
  | none => Act.answer 1
  | some l =>
    if texts.contains none || (scripts.isEmpty && files.isEmpty) then Act.answer 1
    else
      let quiet := hasOption options 'n'
      if hasOption options 'i' then
        names.forM fun name => do
          match (← get).tree.read ⟨spell name⟩, (← get).tree.locate ⟨spell name⟩ with
          | .ok data, .ok path =>
            let (text, status, _) := Edit.edit quiet l (charsOf data)
            alter (.write path (bytesOf text))
            Act.answer status
          | _, _ => Act.answer 4
      else
        filter names 2 fun text =>
          let (text, status, all) := Edit.edit quiet l text
          ⟨text, status, !all⟩

def wc (words : List (List Char)) : Act Unit := do
  let (options, names) := optionsOf "" words
  if names.isEmpty then
    filter [] 1 fun text => { text := Filter.wc options 7 [] text }
  else
    let tree := (← get).tree
    let sizes := names.map fun name => ((tree.read ⟨spell name⟩).toOption.getD []).length
    let total : Nat := sizes.foldl (· + ·) 0
    let width := (decimal total).length
    names.forM fun name => do
      let (text, ended, found) ← gather [name]
      if !ended then throw .waiting
      if found then Act.write (Filter.wc options width name text)
      Act.succeed found
    if 1 < names.length then
      let (text, _, _) ← gather names
      Act.write (Filter.wc options width "total".toList text)

def tee (words : List (List Char)) : Act Unit := do
  let (options, names) := optionsOf "" words
  let (text, ended, _) ← gather []
  Act.write text
  names.forM fun name => do
    let tree := (← get).tree
    match tree.creatable ⟨spell name⟩ with
    | .ok path =>
      let old := if hasOption options 'a' then ((tree.read ⟨spell name⟩).toOption).getD [] else []
      alter (.write path (old ++ bytesOf text))
    | .error _ => pure ()
  if !ended then throw .waiting
  Act.succeed true

def expr (words : List (List Char)) : Act Unit := do
  match Calculation.value? words with
  | none => Act.answer 2
  | some v =>
    Act.write (v ++ ['\n'])
    Act.succeed (!Calculation.isNull v)

def basename (words : List (List Char)) : List Char :=
  let path := words.headD []
  let bare := (path.reverse.dropWhile (· = '/')).reverse
  if bare.isEmpty then path.take 1
  else
    let name := (bare.reverse.takeWhile (· ≠ '/')).reverse
    let ending := words.getD 1 []
    if ending.isSuffixOf name && ending.length < name.length then
      name.take (name.length - ending.length)
    else name

def dirname (path : List Char) : List Char :=
  let bare := (path.reverse.dropWhile (· = '/')).dropWhile (· ≠ '/')
  let above := (bare.dropWhile (· = '/')).reverse
  if !above.isEmpty then above else if path.head? = some '/' then ['/'] else ['.']

def countUp (step last : Int) : Nat → Int → List Int
  | 0, _ => []
  | fuel + 1, n =>
    if (0 < step ∧ n ≤ last) ∨ (step < 0 ∧ last ≤ n) then n :: countUp step last fuel (n + step)
    else []

def seq (words : List (List Char)) : Act Unit := do
  let (options, operands) := match words with
    | ['-', 's'] :: t :: rest => (some t, rest)
    | ('-' :: 's' :: t) :: rest => (some t, rest)
    | rest => (none, rest)
  let numbers := operands.filterMap Calculation.number?
  let show_ (first step last : Int) : Act Unit := do
    let l := (countUp step last ((last - first).natAbs + 1) first).map fun n => decimal n
    if !l.isEmpty then Act.write ((options.getD ['\n']).intercalate l ++ ['\n'])
    Act.succeed true
  match numbers with
  | [last] => show_ 1 1 last
  | [first, last] => show_ first 1 last
  | [first, step, last] => if step = 0 then Act.answer 1 else show_ first step last
  | _ => Act.answer 1

def listing (options : List (Char × List Char)) (node : FileNode) : List (List Char) :=
  let names := (node.entries.map fun e => unspell e.1).mergeSort fun a b => (compare a b).isLE
  let hidden (name : List Char) : Bool := name.head? = some '.'
  let names := if hasOption options 'a' || hasOption options 'A' then names
    else names.filter fun name => !hidden name
  let names := if hasOption options 'a' then ['.'] :: ['.', '.'] :: names else names
  if hasOption options 'r' then names.reverse else names

def ls (words : List (List Char)) : Act Unit := do
  let (options, operands) := optionsOf "" words
  let tree := (← get).tree
  let paths := (if operands.isEmpty then [['.']] else operands).mergeSort fun a b =>
    (compare a b).isLE
  let found := paths.filterMap fun p => (tree.node? ⟨spell p⟩).map fun n => (p, n)
  let isFlat (n : FileNode) : Bool := n.isFile || hasOption options 'd'
  let files := (found.filter fun e => isFlat e.2).map (·.1)
  let dirs := found.filter fun e => !isFlat e.2
  let blocks := dirs.map fun e =>
    (if 1 < paths.length then e.1 ++ [':', '\n'] else []) ++ endLines (listing options e.2)
  let blocks := if files.isEmpty then blocks else endLines files :: blocks
  Act.write (['\n'].intercalate blocks)
  Act.answer (if found.length = paths.length then 0 else 2)

/-- Does something for each of some names. It succeeds if all of them do. -/
def forEach (names : List (List Char)) (f : List Char → Act Bool) : Act Unit := do
  let ok ← names.foldlM (fun ok name => do
    let done ← f name
    return ok && done) true
  Act.succeed (ok && !names.isEmpty)

def touch (words : List (List Char)) : Act Unit :=
  let (options, names) := optionsOf "drt" words
  forEach names fun name => do
    let tree := (← get).tree
    if tree.pathExists ⟨spell name⟩ || hasOption options 'c' then return true
    match tree.creatable ⟨spell name⟩ with
    | .ok path =>
      alter (.write path [])
      return true
    | .error _ => return false

def mkdir (words : List (List Char)) : Act Unit :=
  let (options, names) := optionsOf "m" words
  forEach names fun name => do
    let tree := (← get).tree
    let path : Path := ⟨spell ((name.reverse.dropWhile (· = '/')).reverse)⟩
    if hasOption options 'p' then
      if tree.isFile path then return false
      if !tree.isDir path then alter (.makeDir (tree.spelledNames path))
      return true
    else if tree.pathExists path then return false
    else
      match tree.creatable path with
      | .ok names =>
        alter (.makeDir names)
        return true
      | .error _ => return false

def rmdir (words : List (List Char)) : Act Unit :=
  forEach (optionsOf "" words).2 fun name => do
    let tree := (← get).tree
    match tree.locate ⟨spell name⟩, tree.node? ⟨spell name⟩ with
    | .ok names, some (.directory []) =>
      alter (.remove names)
      return true
    | _, _ => return false

def rm (words : List (List Char)) : Act Unit := do
  let (options, names) := optionsOf "" words
  let force := hasOption options 'f'
  let deep := hasOption options 'r' || hasOption options 'R'
  forEach names fun name => do
    let tree := (← get).tree
    match tree.locate ⟨spell name⟩, tree.node? ⟨spell name⟩ with
    | .ok names, some node =>
      if node.isDirectory && !deep then return false
      alter (.remove names)
      return true
    | _, _ => return force
  if force && names.isEmpty then Act.succeed true

def copyNode : Nat → List String → FileNode → Act Unit
  | 0, _, _ => pure ()
  | _ + 1, names, .file data _ => alter (.write names data)
  | fuel + 1, names, .directory entries => do
    alter (.makeDir names)
    entries.forM fun e => copyNode fuel (names ++ [e.1]) e.2

def transfer (moves : Bool) (words : List (List Char)) : Act Unit :=
  let (options, operands) := optionsOf "" words
  let deep := moves || hasOption options 'r' || hasOption options 'R' || hasOption options 'a'
  match operands.reverse with
  | [] | [_] => Act.answer 1
  | target :: sources =>
    forEach sources.reverse fun source => do
      let tree := (← get).tree
      let path : Path := ⟨spell target⟩
      let place := if tree.isDir path then path.join (spell (basename [source])) else path
      match tree.locate ⟨spell source⟩, tree.node? ⟨spell source⟩, tree.creatable place with
      | .ok old, some node, .ok names =>
        if (node.isDirectory && !deep) || old = names then return false
        copyNode 1000 names node
        if moves then alter (.remove old)
        return true
      | _, _, _ => return false

def quiet : List String :=
  ["arch", "chcon", "chgrp", "chmod", "chown", "date", "dd", "df", "dir", "dircolors", "du",
    "factor", "find", "flock", "getopt", "groups", "hostid", "hostname", "id", "install", "ln",
    "login", "logname", "mkfifo", "mknod", "mktemp", "more", "mount", "nproc", "pathchk", "pinky",
    "shred", "sleep", "stat", "stdbuf", "stty", "su", "sync", "tty", "umount", "uname", "users",
    "vdir", "which", "who", "whoami"]

def unknown : List String :=
  ["awk", "b2sum", "base32", "base64", "basenc", "chroot", "cksum", "cmp", "comm", "csplit", "diff",
    "diff3", "expand", "fmt", "fold", "gunzip", "gzip", "join", "link", "mawk", "md5sum", "numfmt",
    "od", "perl", "pr", "ptx", "readlink", "realpath", "runcon", "sdiff", "setsid", "sha1sum",
    "sha224sum", "sha256sum", "sha384sum", "sha512sum", "shuf", "split", "sum", "tar", "truncate",
    "tsort", "unexpand", "unlink", "zcat"]

def named? (name : String) : Option (List (List Char) → Act Unit) :=
  let options (valued : String) (f : List (Char × List Char) → List Char → Made)
      (words : List (List Char)) : Act Unit :=
    let (l, names) := optionsOf valued words
    filter names 1 (f l)
  match name with
  | "basename" => some fun words => do
    if words.isEmpty then Act.answer 1
    else
      Act.write (basename words ++ ['\n'])
      Act.succeed true
  | "cat" => some cat
  | "cp" => some (transfer false)
  | "cut" => some fun words =>
    let (l, names) := optionsOf "dfcb" words
    filter? names (Filter.cut l)
  | "dirname" => some fun words => do
    if words.isEmpty then Act.answer 1
    else
      Act.write (endLines (words.map dirname))
      Act.succeed true
  | "expr" => some expr
  | "grep" => some (grep {} false)
  | "egrep" => some (grep { extended := true } false)
  | "fgrep" => some (grep {} true)
  | "head" => some fun words => options "nc" Filter.head (Filter.spelledCount words)
  | "ls" => some ls
  | "mkdir" => some mkdir
  | "mv" => some (transfer true)
  | "nl" => some (options "" fun _ text => Filter.nl text)
  | "paste" => some (options "d" Filter.paste)
  | "rev" => some (options "" fun _ text =>
    { text := joinLines ((splitLines text).map fun e => (e.1.reverse, e.2)) })
  | "rm" => some rm
  | "rmdir" => some rmdir
  | "sed" => some sed
  | "seq" => some seq
  | "sort" => some (options "kt" Filter.sort)
  | "tac" => some (options "" fun _ text => { text := joinLines (splitLines text).reverse })
  | "tail" => some fun words => options "nc" Filter.tail (Filter.spelledCount words)
  | "tee" => some tee
  | "touch" => some touch
  | "tr" => some fun words =>
    let (l, sets) := optionsOf "" words
    filter? [] (Filter.tr l sets)
  | "uniq" => some (options "" Filter.uniq)
  | "wc" => some wc
  | "yes" => some fun words =>
    let line := if words.isEmpty then ['y'] else [' '].intercalate words
    Act.write (endLines (List.replicate 1000 line))
  | _ => if quiet.contains name then some fun _ => Act.succeed true else none

def names : List String :=
  ["[", "basename", "bash", "cat", "cp", "cut", "dash", "dirname", "echo", "egrep", "env", "expr",
    "false", "fgrep", "grep", "head", "ls", "mkdir", "mv", "nice", "nl", "nohup", "paste",
    "printenv", "printf", "pwd", "rev", "rm", "rmdir", "sed", "seq", "sh", "sort", "tac", "tail",
    "tee", "test", "timeout", "touch", "tr", "true", "uniq", "wc", "xargs", "yes"] ++
    quiet ++ unknown

end Utility

end Retest.Shell
