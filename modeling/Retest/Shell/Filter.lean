import Retest.Shell.Edit

namespace Retest.Shell

/-- The options of a command, each with its value, and its other words. Letters in `valued` take a
value. Behind two dashes no word is an option. -/
def takeOptions (valued : List Char) :
    Nat → List (List Char) → List (Char × List Char) × List (List Char)
  | 0, words => ([], words)
  | _, [] => ([], [])
  | fuel + 1, word :: rest =>
    match word with
    | ['-', '-'] => ([], rest)
    | '-' :: c :: more =>
      let rec letters (n : Nat) (l : List Char) (rest : List (List Char)) :
          List (Char × List Char) × List (List Char) :=
        match n, l with
        | 0, _ | _, [] => ([], rest)
        | n + 1, c :: more =>
          if valued.contains c then
            if more.isEmpty then ([(c, rest.headD [])], rest.drop 1) else ([(c, more)], rest)
          else
            let (l, rest) := letters n more rest
            ((c, []) :: l, rest)
      let (found, rest) := letters (more.length + 1) (c :: more) rest
      let (options, operands) := takeOptions valued fuel rest
      (found ++ options, operands)
    | word =>
      let (options, operands) := takeOptions valued fuel rest
      (options, word :: operands)

def optionsOf (valued : String) (words : List (List Char)) :
    List (Char × List Char) × List (List Char) :=
  takeOptions valued.toList (words.length + 1) words

def hasOption (options : List (Char × List Char)) (c : Char) : Bool := options.any fun e => e.1 = c

def option? (options : List (Char × List Char)) (c : Char) : Option (List Char) :=
  ((options.reverse.find? fun e => e.1 = c).map (·.2))

def natOf (s : List Char) : Nat := Sum.ofDigits 10 (s.takeWhile Char.isDigit)

def splitLines (text : List Char) : List Edit.Line := Edit.linesOf (text.length + 1) text

def joinLines (l : List Edit.Line) : List Char :=
  l.flatMap fun e => if e.2 then e.1 ++ ['\n'] else e.1

def endLines (l : List (List Char)) : List Char := l.flatMap (· ++ ['\n'])

def plainLines (text : List Char) : List (List Char) := (splitLines text).map (·.1)

def cutEach (d : Char) : List Char → List (List Char)
  | [] => [[]]
  | c :: rest =>
    if c = d then [] :: cutEach d rest
    else
      match cutEach d rest with
      | [] => [[c]]
      | part :: more => (c :: part) :: more

def cutAtText (mark : List Char) : List Char → List (List Char)
  | [] => [[]]
  | c :: rest =>
    if mark ≠ [] ∧ mark.isPrefixOf (c :: rest) then
      [] :: cutAtText mark (rest.drop (mark.length - 1))
    else
      match cutAtText mark rest with
      | [] => [[c]]
      | part :: more => (c :: part) :: more
termination_by s => s.length
decreasing_by all_goals (simp; try omega)

/-- What a command makes of a text: its output, its status, and whether it needs no more of it. -/
structure Made where
  text : List Char := []
  status : Nat := 0
  enough : Bool := false
  deriving Repr, DecidableEq, Inhabited

namespace Filter

def spelledCount (words : List (List Char)) : List (List Char) :=
  words.map fun w =>
    match w with
    | '-' :: c :: rest => if c.isDigit then '-' :: 'n' :: c :: rest else w
    | w => w

def head (options : List (Char × List Char)) (text : List Char) : Made :=
  match option? options 'c' with
  | some n => ⟨text.take (natOf n), 0, natOf n ≤ text.length⟩
  | none =>
    let n := ((option? options 'n').map natOf).getD 10
    let lines := splitLines text
    ⟨joinLines (lines.take n), 0, n ≤ (lines.filter (·.2)).length⟩

def tail (options : List (Char × List Char)) (text : List Char) : Made :=
  let cut (n : List Char) {α : Type} (l : List α) : List α :=
    match n with
    | '+' :: n => l.drop (natOf n - 1)
    | n => l.drop (l.length - natOf (n.dropWhile (· = '-')))
  match option? options 'c' with
  | some n => { text := cut n text }
  | none => { text := joinLines (cut ((option? options 'n').getD ['1', '0']) (splitLines text)) }

def countWords (text : List Char) : Nat :=
  let isSpace (c : Char) : Bool := c = ' ' || ('\t' ≤ c && c ≤ '\r')
  (text.foldl (fun (acc : Nat × Bool) c =>
    if isSpace c then (acc.1, false) else (if acc.2 then acc.1 else acc.1 + 1, true))
    (0, false)).1

def wc (options : List (Char × List Char)) (width : Nat) (name : List Char) (text : List Char) :
    List Char :=
  let wanted := if options.isEmpty then ['l', 'w', 'c'] else
    ['l', 'w', 'm', 'c'].filter (hasOption options)
  let counts := wanted.map fun c =>
    decimal (if c = 'l' then text.count '\n' else if c = 'w' then countWords text else text.length)
  let width := if wanted.length = 1 then 0 else width
  let pad (t : List Char) : List Char := List.replicate (width - t.length) ' ' ++ t
  [' '].intercalate (counts.map pad) ++ (if name.isEmpty then [] else ' ' :: name) ++ ['\n']

def members : Nat → List Char → List Char
  | 0, _ | _, [] => []
  | fuel + 1, s =>
    match takeClassName s with
    | some (ranges, rest) =>
      ((List.range 256).map Char.ofNat).filter (fun c => ranges.any (Glob.Range.contains c)) ++
        members fuel rest
    | none =>
      let (c, rest) : Char × List Char := match s with
        | '\\' :: d :: rest =>
          if Format.isOctal d then Format.takeOctal 3 (d :: rest)
          else ((Format.escaped? d).getD d, rest)
        | c :: rest => (c, rest)
        | [] => (' ', [])
      match rest with
      | '-' :: high :: rest =>
        (List.range (high.toNat + 1 - c.toNat)).map (fun n => Char.ofNat (c.toNat + n)) ++
          members fuel rest
      | rest => c :: members fuel rest

def squeeze (isMember : Char → Bool) : List Char → List Char
  | c :: d :: rest =>
    if c = d ∧ isMember c then squeeze isMember (d :: rest) else c :: squeeze isMember (d :: rest)
  | s => s

def tr (options : List (Char × List Char)) (sets : List (List Char)) (text : List Char) :
    Option Made :=
  let set (n : Nat) : List Char := let s := sets.getD n []; members (s.length + 1) s
  let complements := hasOption options 'c' || hasOption options 'C'
  let first := set 0
  let first := if complements then
      ((List.range 256).map Char.ofNat).filter fun c => !first.contains c
    else first
  let second := set 1
  let squeezes := hasOption options 's'
  if hasOption options 'd' then
    let text := text.filter fun c => !first.contains c
    some { text := if squeezes then squeeze second.contains text else text }
  else if sets.length < 2 then
    if squeezes ∧ sets.length = 1 then some { text := squeeze first.contains text } else none
  else
    let turn (c : Char) : Char :=
      match first.findIdx? (· = c) with
      | none => c
      | some i => (second[i]?.or second.getLast?).getD c
    let text := text.map turn
    some { text := if squeezes then squeeze second.contains text else text }

def numberRanges (s : List Char) : List (Nat × Option Nat) :=
  (cutEach ',' s).map fun part =>
    let low := part.takeWhile Char.isDigit
    match part.drop low.length with
    | [] => (natOf low, some (natOf low))
    | _ :: high =>
      (if low.isEmpty then 1 else natOf low, if high.isEmpty then none else some (natOf high))

def chosen {α : Type} (ranges : List (Nat × Option Nat)) (l : List α) : List α :=
  ((l.zipIdx 1).filter fun e => ranges.any fun r => r.1 ≤ e.2 && r.2.all (e.2 ≤ ·)).map (·.1)

def cut (options : List (Char × List Char)) (text : List Char) : Option Made :=
  let delimiter := ((option? options 'd').getD ['\t']).headD '\x00'
  match option? options 'f', (option? options 'c').or (option? options 'b') with
  | some fields, _ =>
    let ranges := numberRanges fields
    some { text := endLines ((plainLines text).filterMap fun line =>
      if line.contains delimiter then
        some ([delimiter].intercalate (chosen ranges (cutEach delimiter line)))
      else if hasOption options 's' then none
      else some line) }
  | none, some places =>
    some { text := endLines ((plainLines text).map (chosen (numberRanges places))) }
  | none, none => none

def leadingNumber (s : List Char) : Int :=
  match s.dropWhile isBlankSpace with
  | '-' :: rest => -(natOf rest : Int)
  | rest => natOf rest

def sortKey (options : List (Char × List Char)) (line : List Char) : List Char :=
  match option? options 'k' with
  | none => line
  | some k =>
    let first := natOf k
    let last := match (k.dropWhile (· ≠ ',')).drop 1 with
      | [] => none
      | t => some (natOf t)
    let (separator, fields) := match option? options 't' with
      | some (c :: _) => (c, cutEach c line)
      | _ => (' ', (cutEach ' ' line).filter (· ≠ []))
    [separator].intercalate (chosen [(first, last)] fields)

def sort (options : List (Char × List Char)) (text : List Char) : Made :=
  let flag (c : Char) : Bool := hasOption options c || ((option? options 'k').getD []).contains c
  let key (line : List Char) : List Char :=
    let k := sortKey options line
    if flag 'f' then k.map Format.upper else k
  let order (a b : List Char) : Ordering :=
    let o := if flag 'n' then compare (leadingNumber (key a)) (leadingNumber (key b))
      else compare (key a) (key b)
    if flag 'r' then o.swap else o
  let full (a b : List Char) : Bool :=
    let o := order a b
    let rest := if hasOption options 's' || hasOption options 'u' then .eq
      else if hasOption options 'r' then (compare a b).swap else compare a b
    (o.then rest).isLE
  let lines := (plainLines text).mergeSort full
  let lines := if hasOption options 'u' then
      lines.foldr (fun line kept =>
        match kept with
        | next :: _ => if order line next = .eq then line :: kept.drop 1 else line :: kept
        | [] => [line]) []
    else lines
  { text := endLines lines }

def runs (l : List (List Char)) : List (Nat × List Char) :=
  l.foldr (fun line acc =>
    match acc with
    | (n, other) :: rest => if line = other then (n + 1, line) :: rest else (1, line) :: acc
    | [] => [(1, line)]) []

def uniq (options : List (Char × List Char)) (text : List Char) : Made :=
  let l := (runs (plainLines text)).filter fun e =>
    (!hasOption options 'd' || 1 < e.1) && (!hasOption options 'u' || e.1 = 1)
  let shown (e : Nat × List Char) : List Char :=
    if hasOption options 'c' then
      let n := decimal e.1
      List.replicate (7 - n.length) ' ' ++ n ++ ' ' :: e.2
    else e.2
  { text := endLines (l.map shown) }

def nl (text : List Char) : Made :=
  let shown (acc : Nat × List (List Char)) (line : List Char) : Nat × List (List Char) :=
    if line.isEmpty then (acc.1, "       ".toList :: acc.2)
    else
      let n := decimal acc.1
      (acc.1 + 1, (List.replicate (6 - n.length) ' ' ++ n ++ '\t' :: line) :: acc.2)
  { text := endLines ((plainLines text).foldl shown (1, [])).2.reverse }

def paste (options : List (Char × List Char)) (text : List Char) : Made :=
  if hasOption options 's' then
    let d := ((option? options 'd').getD ['\t']).headD '\t'
    { text := [d].intercalate (plainLines text) ++ ['\n'] }
  else { text := endLines (plainLines text) }

/-- The expression of a search: any of some patterns, on whole words or lines if they are asked
for. -/
def grepPattern? (options : List (Char × List Char)) (style : Regexp.Style) (fixed : Bool)
    (patterns : List (List Char)) : Option Regexp := do
  let one (p : List Char) : Option Regexp :=
    if fixed then some ((p.map style.literal).foldr .sequence .empty)
    else Regexp.ofText? style p
  let l ← patterns.mapM one
  let r := match l with
    | [] => .within false []
    | first :: rest => rest.foldl .either first
  return if hasOption options 'x' then
      .sequence (.edge .start) (.sequence r (.edge .finish))
    else r

def matches_ (r : Regexp) (whole : Bool) : Nat → Option Char → List Char → List (List Char)
  | 0, _, _ => []
  | fuel + 1, before, s =>
    match r.search before s with
    | none => []
    | some (skipped, taken, place) =>
      let previous := skipped.getLast?.or before
      let fits := !whole || (!previous.any Regexp.isWordChar &&
        !place.rest.head?.any Regexp.isWordChar)
      if taken.isEmpty then
        match place.rest with
        | [] => if fits then [[]] else []
        | c :: rest => (if fits then [[]] else []) ++ matches_ r whole fuel (some c) rest
      else if fits then taken :: matches_ r whole fuel place.before place.rest
      else
        match taken with
        | c :: more => matches_ r whole fuel (some c) (more ++ place.rest)
        | [] => []

def grep (options : List (Char × List Char)) (r : Regexp) (name : List Char) (text : List Char) :
    Made :=
  let parts (line : List Char) : List (List Char) :=
    matches_ r (hasOption options 'w') (line.length + 1) none line
  let limit := (option? options 'm').map natOf
  let hits := ((plainLines text).zipIdx 1).filter fun e =>
    (parts e.1 ≠ []) != hasOption options 'v'
  let kept := match limit with
    | some n => hits.take n
    | none => hits
  let label (n : Nat) : List Char :=
    (if name.isEmpty then [] else name ++ [':']) ++
      (if hasOption options 'n' then decimal n ++ [':'] else [])
  let status := if hits.isEmpty then 1 else 0
  let enough := (hasOption options 'q' && !hits.isEmpty) || limit.any fun n => n ≤ hits.length
  if hasOption options 'q' then ⟨[], status, enough⟩
  else if hasOption options 'l' then
    ⟨if hits.isEmpty then [] else name ++ ['\n'], status, enough⟩
  else if hasOption options 'c' then
    ⟨(if name.isEmpty then [] else name ++ [':']) ++ decimal kept.length ++ ['\n'], status, enough⟩
  else if hasOption options 'o' then
    ⟨endLines (kept.flatMap fun e => ((parts e.1).filter (· ≠ [])).map (label e.2 ++ ·)),
      status, enough⟩
  else ⟨endLines (kept.map fun e => label e.2 ++ e.1), status, enough⟩

end Filter

end Retest.Shell
