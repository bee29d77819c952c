import Retest.Shell.Regexp

namespace Retest.Shell.Edit

/-- Which lines an instruction is for. An empty expression is the one that was used last. -/
inductive Address where
  | line (n : Nat)
  | every (first step : Nat)
  | last
  | fitting (r : Option Regexp)
  deriving Repr, DecidableEq, Inhabited

inductive Bound where
  | at_ (a : Address)
  | further (n : Nat)
  deriving Repr, DecidableEq, Inhabited

inductive Part where
  | text (t : List Char)
  | group (n : Nat)
  | case_ (c : Char)
  deriving Repr, DecidableEq, Inhabited

inductive Action where
  | substitute (r : Option Regexp) (parts : List Part) (nth : Nat) (all prints : Bool)
  | transliterate (pairs : List (Char × Char))
  | open_
  | close
  | label (name : List Char)
  | jump (kind : Char) (name : List Char)
  | append (t : List Char)
  | insert (t : List Char)
  | change (t : List Char)
  | quit (prints : Bool) (code : Nat)
  | plain (letter : Char)
  deriving Repr, DecidableEq, Inhabited

structure Instruction where
  first : Option Address := none
  second : Option Bound := none
  negated : Bool := false
  action : Action
  deriving Repr, DecidableEq, Inhabited

/-- Text up to a delimiter outside of brackets, and what follows it. A backslash takes the meaning
from the delimiter. -/
def takeUntil (delimiter : Char) (brackets : Bool) :
    Nat → Bool → List Char → Option (List Char × List Char)
  | 0, _, _ | _, _, [] => none
  | fuel + 1, inside, c :: rest =>
    let go (first rest : List Char) (inside : Bool) : Option (List Char × List Char) :=
      (takeUntil delimiter brackets fuel inside rest).map fun r => (first ++ r.1, r.2)
    if inside then
      if c = ']' then go [c] rest false
      else if c = '\n' then none
      else go [c] rest true
    else if c = delimiter then some ([], rest)
    else
      match c, rest with
      | '\\', d :: rest =>
        if d = delimiter ∧ d ≠ '\\' then go (if d = 'n' then ['\\', d] else [d]) rest false
        else go ['\\', d] rest false
      | '[', '^' :: ']' :: rest => if brackets then go ['[', '^', ']'] rest true
        else go ['['] ('^' :: ']' :: rest) false
      | '[', ']' :: rest => if brackets then go ['[', ']'] rest true
        else go ['['] (']' :: rest) false
      | '[', rest => go ['['] rest brackets
      | c, rest => go [c] rest false

def readRegexp (style : Regexp.Style) (delimiter : Char) (s : List Char) :
    Option (Option Regexp × List Char) := do
  let (text, rest) ← takeUntil delimiter true (s.length + 1) false s
  let (style, rest) := match rest with
    | 'I' :: rest => ({ style with ignoresCase := true }, rest)
    | rest => (style, rest)
  if text.isEmpty then return (none, rest)
  let r ← Regexp.ofText? style text
  return (some r, rest)

def takeNumber (s : List Char) : Nat × List Char :=
  let digits := s.takeWhile Char.isDigit
  (Sum.ofDigits 10 digits, s.drop digits.length)

def startsNumber (s : List Char) : Bool := s.head?.any Char.isDigit

def readAddress (style : Regexp.Style) (s : List Char) : Option (Option Address × List Char) :=
  match s with
  | '$' :: rest => some (some .last, rest)
  | '/' :: rest => (readRegexp style '/' rest).map fun r => (some (.fitting r.1), r.2)
  | '\\' :: d :: rest => (readRegexp style d rest).map fun r => (some (.fitting r.1), r.2)
  | s =>
    if startsNumber s then
      let (n, rest) := takeNumber s
      match rest with
      | '~' :: rest =>
        let (step, rest) := takeNumber rest
        some (some (.every n step), rest)
      | rest => some (some (.line n), rest)
    else some (none, s)

def readBound (style : Regexp.Style) (s : List Char) : Option (Bound × List Char) :=
  match s with
  | '+' :: rest =>
    let (n, rest) := takeNumber rest
    some (.further n, rest)
  | s =>
    match readAddress style s with
    | some (some a, rest) => some (.at_ a, rest)
    | _ => none

def readParts : Nat → List Char → List Part
  | 0, _ | _, [] => []
  | fuel + 1, '&' :: rest => .group 0 :: readParts fuel rest
  | fuel + 1, '\\' :: c :: rest =>
    if c.isDigit then .group (c.toNat - 48) :: readParts fuel rest
    else if c = 'n' then .text ['\n'] :: readParts fuel rest
    else if c = 't' then .text ['\t'] :: readParts fuel rest
    else if "ULEul".toList.contains c then .case_ c :: readParts fuel rest
    else .text [c] :: readParts fuel rest
  | fuel + 1, c :: rest => .text [c] :: readParts fuel rest

/-- The flags behind a substitution: which match, whether all from there, whether it prints, and
whether it ignores case. -/
def readFlags : Nat → Bool → Bool → Bool → List Char → Nat × Bool × Bool × Bool × List Char
  | n, all, prints, ignores, [] => (n, all, prints, ignores, [])
  | n, all, prints, ignores, c :: rest =>
    if c = 'g' then readFlags n true prints ignores rest
    else if c = 'p' then readFlags n all true ignores rest
    else if c = 'i' ∨ c = 'I' then readFlags n all prints true rest
    else if c.isDigit then readFlags (n * 10 + (c.toNat - 48)) all prints ignores rest
    else (n, all, prints, ignores, c :: rest)

def plainChars : List Char → List Char
  | '\\' :: 'n' :: rest => '\n' :: plainChars rest
  | '\\' :: 't' :: rest => '\t' :: plainChars rest
  | '\\' :: c :: rest => c :: plainChars rest
  | c :: rest => c :: plainChars rest
  | [] => []

/-- The lines of a text to be put in. A backslash at the end of a line goes on. -/
def takeText : List Char → List Char × List Char
  | [] => ([], [])
  | '\\' :: c :: rest =>
    let (t, rest) := takeText rest
    (c :: t, rest)
  | '\n' :: rest => ([], rest)
  | c :: rest =>
    let (t, rest) := takeText rest
    (c :: t, rest)

def readText (s : List Char) : List Char × List Char :=
  match s.dropWhile isBlankSpace with
  | '\\' :: rest =>
    match rest.dropWhile isBlankSpace with
    | '\n' :: rest => takeText rest
    | rest => takeText rest
  | rest => takeText rest

def afterInstruction? (s : List Char) : Option (List Char) :=
  match s.dropWhile isBlankSpace with
  | [] => some []
  | ';' :: rest | '\n' :: rest => some rest
  | '#' :: rest => some (rest.dropWhile (· ≠ '\n'))
  | '}' :: rest => some ('}' :: rest)
  | _ => none

def isSpaceOrEnd (c : Char) : Bool := isBlankSpace c || c = '\n' || c = ';'

def readAction (style : Regexp.Style) (s : List Char) : Option (Action × List Char) :=
  match s with
  | [] => none
  | 's' :: delimiter :: rest => do
    let (text, rest) ← takeUntil delimiter true (rest.length + 1) false rest
    let (parts, rest) ← takeUntil delimiter false (rest.length + 1) false rest
    let (n, all, prints, ignores, rest) := readFlags 0 false false false rest
    let style := { style with ignoresCase := style.ignoresCase || ignores }
    let r ← if text.isEmpty then some none else (Regexp.ofText? style text).map some
    let rest ← afterInstruction? rest
    return (.substitute r (readParts (parts.length + 1) parts) (max n 1) all prints, rest)
  | 'y' :: delimiter :: rest => do
    let (source, rest) ← takeUntil delimiter false (rest.length + 1) false rest
    let (target, rest) ← takeUntil delimiter false (rest.length + 1) false rest
    let source := plainChars source
    let target := plainChars target
    if source.length ≠ target.length then none
    let rest ← afterInstruction? rest
    return (.transliterate (source.zip target), rest)
  | '{' :: rest => some (.open_, rest)
  | '}' :: rest => (afterInstruction? rest).map fun rest => (.close, rest)
  | ':' :: rest =>
    let name := (rest.dropWhile isBlankSpace).takeWhile fun c => !isSpaceOrEnd c
    some (.label name, (rest.dropWhile isBlankSpace).drop name.length)
  | c :: rest =>
    if c = 'b' ∨ c = 't' ∨ c = 'T' then do
      let rest := rest.dropWhile isBlankSpace
      let name := rest.takeWhile fun c => !isSpaceOrEnd c && c ≠ '}'
      let rest ← afterInstruction? (rest.drop name.length)
      return (.jump c name, rest)
    else if c = 'a' then
      let (t, rest) := readText rest
      some (.append (t ++ ['\n']), rest)
    else if c = 'i' then
      let (t, rest) := readText rest
      some (.insert (t ++ ['\n']), rest)
    else if c = 'c' then
      let (t, rest) := readText rest
      some (.change (t ++ ['\n']), rest)
    else if c = 'q' ∨ c = 'Q' then do
      let (code, rest) := takeNumber (rest.dropWhile isBlankSpace)
      let rest ← afterInstruction? rest
      return (.quit (c = 'q') code, rest)
    else if "dDpPnNgGhHx=".toList.contains c then do
      let rest ← afterInstruction? rest
      return (.plain c, rest)
    else none

def readInstructions (style : Regexp.Style) : Nat → List Char → Option (List Instruction)
  | 0, _ => none
  | fuel + 1, s =>
    match s.dropWhile isSpaceOrEnd with
    | [] => some []
    | '#' :: rest => readInstructions style fuel (rest.dropWhile (· ≠ '\n'))
    | s => do
      let (first, rest) ← readAddress style s
      let (second, rest) ← match first, rest.dropWhile isBlankSpace with
        | some _, ',' :: rest =>
          (readBound style (rest.dropWhile isBlankSpace)).map fun r => (some r.1, r.2)
        | _, rest => some (none, rest)
      let rest := rest.dropWhile isBlankSpace
      let (negated, rest) := match rest with
        | '!' :: rest => (true, rest.dropWhile isBlankSpace)
        | rest => (false, rest)
      let (action, rest) ← readAction style rest
      let more ← readInstructions style fuel rest
      return ⟨first, second, negated, action⟩ :: more

def depth? (l : List Instruction) : Option Nat :=
  l.foldlM (fun (n : Nat) i =>
    match i.action with
    | .open_ => some (n + 1)
    | .close => if n = 0 then none else some (n - 1)
    | _ => some n) 0

def ofText? (style : Regexp.Style) (s : List Char) : Option (List Instruction) := do
  let l ← readInstructions style (s.length + 1) s
  let known (name : List Char) : Bool := name.isEmpty || l.any fun i => i.action = .label name
  let jumps := l.all fun i =>
    match i.action with
    | .jump _ name => known name
    | _ => true
  if depth? l = some 0 ∧ jumps then some l else none

abbrev Line := List Char × Bool

def linesOf : Nat → List Char → List Line
  | 0, _ | _, [] => []
  | fuel + 1, s =>
    let line := s.takeWhile (· ≠ '\n')
    if line.length = s.length then [(line, false)]
    else (line, true) :: linesOf fuel (s.drop (line.length + 1))

structure Editor where
  quiet : Bool := false
  instructions : List Instruction
  lines : List Line
  line : List Char := []
  ended : Bool := true
  number : Nat := 0
  held : List Char := []
  later : List Char := []
  ranges : List (Nat × Option Nat) := []
  used : Option Regexp := none
  changed : Bool := false
  output : List (List Char) := []
  owesEnd : Bool := false
  status : Nat := 0
  finished : Bool := false
  deriving Inhabited

namespace Editor

def put (e : Editor) (t : List Char) : Editor :=
  if t.isEmpty then e
  else
    { e with output := t :: (if e.owesEnd then ['\n'] :: e.output else e.output), owesEnd := false }

/-- Writes a line. The last line of a text that has no end gets none for now. -/
def putLine (e : Editor) (t : List Char) : Editor :=
  if e.ended || !e.lines.isEmpty then e.put (t ++ ['\n']) else { e.put t with owesEnd := true }

def flush (e : Editor) : Editor := { e.put e.later with later := [] }

def next (e : Editor) : Option (List Char × Editor) :=
  match e.lines with
  | [] => none
  | (t, ended) :: rest => some (t, { e with lines := rest, ended, number := e.number + 1 })

def use (e : Editor) (r : Option Regexp) : Regexp × Editor :=
  let r := (r.or e.used).getD .empty
  (r, { e with used := some r })

def fits (e : Editor) (a : Address) : Bool × Editor :=
  match a with
  | .line n => (e.number = n, e)
  | .every first step =>
    (if step = 0 then e.number = first else first ≤ e.number ∧ (e.number - first) % step = 0, e)
  | .last => (e.lines.isEmpty, e)
  | .fitting r =>
    let (r, e) := e.use r
    (r.occurs e.line, e)

/-- Whether an instruction is for this line. A range that has begun goes on until its end. -/
def selects (e : Editor) (index : Nat) (i : Instruction) : Bool × Editor :=
  match i.first, i.second with
  | none, _ => (true, e)
  | some a, none => e.fits a
  | some a, some b =>
    let put (r : Option (Option Nat)) (e : Editor) : Editor :=
      { e with ranges := (r.toList.map fun r => (index, r)) ++
          e.ranges.filter fun x => x.1 ≠ index }
    match e.ranges.find? fun x => x.1 = index with
    | some (_, some n) =>
      if e.number < n then (true, e)
      else (decide (e.number = n), put none e)
    | some (_, none) =>
      match b with
      | .at_ b =>
        let (stops, e) := e.fits b
        (true, if stops then put none e else e)
      | .further _ => (true, e)
    | none =>
      let zero := a = .line 0
      let (starts, e) := if zero then (decide (e.number = 1), e) else e.fits a
      if !starts then (false, e)
      else
        match b with
        | .further n => (true, if n = 0 then e else put (some (some (e.number + n))) e)
        | .at_ (.line n) => (true, if n ≤ e.number then e else put (some (some n)) e)
        | .at_ .last => (true, if e.lines.isEmpty then e else put (some none) e)
        | .at_ b =>
          if zero then
            let (stops, e) := e.fits b
            (true, if stops then e else put (some none) e)
          else (true, put (some none) e)

/-- The text of a replacement for a match. The state is what happens to the case of the next letter
and of all further ones. -/
def replacement (whole : List Char) (groups : List (Nat × List Char)) (parts : List Part) :
    List Char :=
  let turn (c : Option Char) (t : List Char) : List Char :=
    match c with
    | some 'U' | some 'u' => t.map Format.upper
    | some 'L' | some 'l' => t.map Format.lower
    | _ => t
  let step (acc : List Char × Option Char × Option Char) (p : Part) :
      List Char × Option Char × Option Char :=
    let (out, one, all) := acc
    let add (t : List Char) : List Char × Option Char × Option Char :=
      match t with
      | [] => acc
      | c :: rest => (out ++ turn (one.or all) [c] ++ turn all rest, none, all)
    match p with
    | .text t => add t
    | .group n => add (if n = 0 then whole
        else ((groups.find? fun e => e.1 = n).map (·.2)).getD [])
    | .case_ c =>
      if c = 'E' then (out, one, none)
      else if c = 'u' ∨ c = 'l' then (out, some c, all)
      else (out, one, some c)
  (parts.foldl step ([], none, none)).1

/-- Puts a replacement in place of matches, from the one with some number on. An empty match that
touches the match before does not count. -/
def substituteFrom (r : Regexp) (parts : List Part) (all : Bool) :
    Nat → Nat → Bool → Option Char → List Char → List Char × Bool
  | 0, _, _, _, s => (s, false)
  | fuel + 1, nth, touching, before, s =>
    match r.search before s with
    | none => (s, false)
    | some (skipped, whole, place) =>
      let pass (taken : List Char) (nth : Nat) : List Char × Bool :=
        match place.rest with
        | [] => (skipped ++ taken, false)
        | c :: rest =>
          if whole.isEmpty then
            let (more, done) := substituteFrom r parts all fuel nth false (some c) rest
            (skipped ++ taken ++ c :: more, done)
          else
            let (more, done) := substituteFrom r parts all fuel nth true place.before (c :: rest)
            (skipped ++ taken ++ more, done)
      if whole.isEmpty ∧ skipped.isEmpty ∧ touching then pass [] nth
      else if 1 < nth then pass whole (nth - 1)
      else
        let text := replacement whole place.groups parts
        if all then ((pass text 1).1, true) else (skipped ++ text ++ place.rest, true)

def blockEnd (l : List Instruction) : Nat → Nat → Nat → Nat
  | 0, _, index => index
  | fuel + 1, depth, index =>
    match l[index]? with
    | none => index
    | some i =>
      match i.action with
      | .open_ => blockEnd l fuel (depth + 1) (index + 1)
      | .close => if depth ≤ 1 then index + 1 else blockEnd l fuel (depth - 1) (index + 1)
      | _ => blockEnd l fuel depth (index + 1)

/-- How the work on a line ends: the line is written, or not, or the work begins again without a
new line. -/
inductive Close where
  | written
  | dropped
  | restarted
  deriving Repr, DecidableEq

def jumpTarget (e : Editor) (name : List Char) : Nat :=
  if name.isEmpty then e.instructions.length
  else e.instructions.findIdx fun i => i.action = .label name

def follow : Nat → Nat → Editor → Editor × Close
  | 0, _, e => ({ e with finished := true }, .written)
  | fuel + 1, index, e =>
    match e.instructions[index]? with
    | none => (e, .written)
    | some i =>
      let (selected, e) := e.selects index i
      if selected = i.negated then
        follow fuel
          (if i.action = .open_ then blockEnd e.instructions (e.instructions.length + 1) 0 index
          else index + 1) e
      else
        let go (e : Editor) : Editor × Close := follow fuel (index + 1) e
        match i.action with
        | .open_ | .close | .label _ => go e
        | .substitute r parts nth all prints =>
          let (r, e) := e.use r
          let (t, done) :=
            substituteFrom r parts all (e.line.length + 2) nth false none e.line
          if done then
            let e := { e with line := t, changed := true }
            go (if prints then e.putLine t else e)
          else go e
        | .transliterate pairs =>
          let turn (c : Char) : Char :=
            ((pairs.find? fun p => p.1 = c).map (·.2)).getD c
          go { e with line := e.line.map turn }
        | .jump kind name =>
          if kind = 'b' ∨ (e.changed = decide (kind = 't')) then
            follow fuel (e.jumpTarget name) { e with changed := kind = 'b' && e.changed }
          else go { e with changed := false }
        | .append t => go { e with later := e.later ++ t }
        | .insert t => go (e.put t)
        | .change t =>
          let inRange := i.second.isSome && !i.negated &&
            e.ranges.any fun x => x.1 = index
          (if inRange then e else e.put t, .dropped)
        | .quit prints code =>
          ({ e with finished := true, status := code }, if prints then .written else .dropped)
        | .plain letter =>
          match letter with
          | 'd' => (e, .dropped)
          | 'D' =>
            if e.line.contains '\n' then
              ({ e with line := e.line.drop ((e.line.takeWhile (· ≠ '\n')).length + 1) },
                .restarted)
            else (e, .dropped)
          | 'p' => go (e.putLine e.line)
          | 'P' => go (e.put (e.line.takeWhile (· ≠ '\n') ++ ['\n']))
          | 'n' =>
            match e.next with
            | none => ({ e with finished := true }, .written)
            | some (t, f) =>
              let g := e.putLine e.line
              let f := if e.quiet then f else { f with output := g.output, owesEnd := g.owesEnd }
              go { f.flush with line := t }
          | 'N' =>
            match e.next with
            | none => ({ e with finished := true }, .written)
            | some (t, f) => go { f.flush with line := e.line ++ '\n' :: t }
          | 'g' => go { e with line := e.held }
          | 'G' => go { e with line := e.line ++ '\n' :: e.held }
          | 'h' => go { e with held := e.line }
          | 'H' => go { e with held := e.held ++ '\n' :: e.line }
          | 'x' => go { e with line := e.held, held := e.line }
          | '=' => go (e.put ((toString e.number).toList ++ ['\n']))
          | _ => go e

def run : Nat → Bool → Editor → Editor
  | 0, _, e => e
  | fuel + 1, fresh, e =>
    let begun : Option Editor := if fresh then
        e.next.map fun (t, e) => { e with line := t, changed := false }
      else some e
    match begun with
    | none => e
    | some e =>
      let size := e.line.length + e.lines.length + e.instructions.length
      let (e, close) := follow (1000 * (size + 1)) 0 e
      let e := if close = .written && !e.quiet then e.putLine e.line else e
      let e := e.flush
      if e.finished then e else run fuel (close ≠ .restarted) e

end Editor

def edit (quiet : Bool) (l : List Instruction) (text : List Char) : List Char × Nat × Bool :=
  let lines := linesOf (text.length + 1) text
  let e := Editor.run (2 * text.length + 4) true { quiet, instructions := l, lines }
  (e.output.reverse.flatten, e.status, !e.finished)

end Retest.Shell.Edit
