import Retest.Glob.Pattern
import Retest.Shell.Arithmetic
import Retest.Shell.State

/-! What words become when they are used: parameters, sums and the output of commands are put in,
and what they are is split into fields and taken for patterns where it stands outside of quotes. -/

namespace Retest.Shell

inductive Mark where
  | plain
  | quoted
  | value
  deriving Repr, DecidableEq, Inhabited

/-- A part of an expanded word. Quotes with nothing inside still make a field; a gap ends one; the
arguments in quotes, where there are none, take the field away that the quotes would make. -/
inductive Grain where
  | char (c : Char) (mark : Mark)
  | hollow
  | gap
  | vanish
  deriving Repr, DecidableEq, Inhabited

namespace Grain

def ofValue (quoted : Bool) (s : List Char) : List Grain :=
  s.map fun c => .char c (if quoted then .quoted else .value)

def standIn : Grain → Grain
  | .char c .plain => .char c .value
  | g => g

def chars (join : List Char) (l : List Grain) : List (Char × Bool) :=
  l.flatMap fun g =>
    match g with
    | .char c mark => [(c, decide (mark = .quoted))]
    | .gap => join.map fun c => (c, true)
    | _ => []

end Grain

def classRanges? (name : List Char) : Option (List Glob.Range) :=
  let lower := Glob.Range.between 'a' 'z'
  let upper := Glob.Range.between 'A' 'Z'
  let digit := Glob.Range.between '0' '9'
  match String.ofList name with
  | "alpha" => some [lower, upper]
  | "digit" => some [digit]
  | "alnum" => some [lower, upper, digit]
  | "lower" => some [lower]
  | "upper" => some [upper]
  | "xdigit" => some [digit, .between 'a' 'f', .between 'A' 'F']
  | "space" => some [.one ' ', .between '\t' '\r']
  | "blank" => some [.one ' ', .one '\t']
  | "punct" => some [.between '!' '/', .between ':' '@', .between '[' '\x60', .between '\x7b' '~']
  | "print" => some [.between ' ' '~']
  | "graph" => some [.between '!' '~']
  | "cntrl" => some [.between '\x00' '\x1f', .one '\x7f']
  | _ => none

def takeClassName (s : List Char) : Option (List Glob.Range × List Char) :=
  match s with
  | '[' :: ':' :: rest =>
    let name := rest.takeWhile Char.isAlpha
    match rest.drop name.length with
    | ':' :: ']' :: rest => (classRanges? name).map fun r => (r, rest)
    | _ => none
  | _ => none

def takeRanges : Nat → Bool → List (Char × Bool) →
    Option (List Glob.Range × List (Char × Bool))
  | 0, _, _ => none
  | fuel + 1, first, s =>
    match s with
    | [] => none
    | (c, literal) :: rest =>
      if c = ']' ∧ !literal ∧ !first then some ([], rest)
      else
        match takeClassName (s.map (·.1)) with
        | some (ranges, after) =>
          (takeRanges fuel false (s.drop (s.length - after.length))).map fun r =>
            (ranges ++ r.1, r.2)
        | none =>
          let single := (takeRanges fuel false rest).map fun r => (Glob.Range.one c :: r.1, r.2)
          match rest with
          | ('-', false) :: (high, highLiteral) :: after =>
            if high = ']' ∧ !highLiteral then single
            else
              (takeRanges fuel false after).map fun r => (Glob.Range.between c high :: r.1, r.2)
          | _ => single

/-- The pattern that some characters make, each with whether it stands for itself. A bracket that
nothing closes stands for itself. -/
def patternOf : Nat → List (Char × Bool) → List Glob.Token
  | 0, _ | _, [] => []
  | fuel + 1, (c, literal) :: rest =>
    if literal then .char c :: patternOf fuel rest
    else if c = '*' then .anyText :: patternOf fuel rest
    else if c = '?' then .anyChar :: patternOf fuel rest
    else if c = '\\' then
      match rest with
      | (d, _) :: rest => .char d :: patternOf fuel rest
      | [] => [.char c]
    else if c = '[' then
      let (negated, inside) := match rest with
        | ('!', false) :: inside => (true, inside)
        | inside => (false, inside)
      match takeRanges (inside.length + 1) true inside with
      | some (ranges, rest) =>
        (if negated then .except ranges else .within ranges) :: patternOf fuel rest
      | none => .char c :: patternOf fuel rest
    else .char c :: patternOf fuel rest

def patternOfChars (s : List (Char × Bool)) : List Glob.Token := patternOf (s.length + 1) s

def dropFitting (pattern : List Glob.Token) (longest : Bool) (s : List Char) : List Char :=
  let sizes := List.range (s.length + 1)
  let sizes := if longest then sizes.reverse else sizes
  match sizes.find? fun n => Glob.fits pattern (s.take n) with
  | some n => s.drop n
  | none => s

def dropFittingBack (pattern : List Glob.Token) (longest : Bool) (s : List Char) : List Char :=
  let sizes := List.range (s.length + 1)
  let sizes := if longest then sizes.reverse else sizes
  match sizes.find? fun n => Glob.fits pattern (s.drop (s.length - n)) with
  | some n => s.take (s.length - n)
  | none => s

namespace State

def separators (s : State) : List Char := (s.value? "IFS".toList).getD " \t\n".toList

def joint (s : State) : List Char := s.separators.take 1

def parameter? (s : State) (name : List Char) : Option (List Char) :=
  match name with
  | ['?'] => some (decimal s.status)
  | ['$'] => some (decimal s.number)
  | ['#'] => some (decimal s.arguments.length)
  | ['-'] => some s.switches
  | ['!'] => some ((s.jobs.head?.map fun j => decimal j.1).getD [])
  | ['0'] => some s.name
  | c :: _ =>
    if c.isDigit then s.arguments[Sum.ofDigits 10 name - 1]?
    else s.value? name
  | [] => none

def argumentGrains (s : State) (joined quoted : Bool) : List Grain :=
  if joined && quoted then Grain.ofValue true (s.joint.intercalate s.arguments)
  else if s.arguments.isEmpty then (if quoted then [.vanish] else [])
  else
    let one (a : List Char) : List Grain :=
      (if quoted then [.hollow] else []) ++ Grain.ofValue quoted a
    [Grain.gap].intercalate (s.arguments.map one)

end State

def State.number? (s : State) (name : List Char) : Option Int :=
  match s.value name with
  | [] => some 0
  | v => Sum.numberOf? v

def Act.evaluate (text : List Char) : Act Int := do
  let s ← get
  match (Sum.ofText? text).bind fun sum => (sum.value s.number?).run [] with
  | none => Act.fail
  | some (n, assigned) =>
    assigned.reverse.forM fun e => Act.assign e.1 (decimal e.2)
    return n

mutual

/-- Expands a word. Commands in it are run by `run`, which gives what they write. -/
def expand (run : Command → Act (List Char)) : Nat → Word → Act (List Grain)
  | 0, _ => throw .waiting
  | _ + 1, [] => return []
  | fuel + 1, piece :: rest => do
    let first ← expandPiece run fuel piece
    return first ++ (← expand run fuel rest)

def expandPiece (run : Command → Act (List Char)) : Nat → Piece → Act (List Grain)
  | 0, _ => throw .waiting
  | fuel + 1, piece =>
    match piece with
    | .text s true => return if s.isEmpty then [.hollow] else Grain.ofValue true s
    | .text s false => return s.map fun c => .char c .plain
    | .output body quoted => do
      let text ← run body
      let text := (text.reverse.dropWhile (· = '\n')).reverse
      return Grain.ofValue quoted (text.filter (· ≠ '\x00'))
    | .sum body quoted => do
      let l ← expand run fuel body
      let n ← Act.evaluate ((Grain.chars [' '] l).map (·.1))
      return Grain.ofValue quoted (decimal n)
    | .parameter name use word quoted => do
      let s ← get
      let isList := name = ['@'] || name = ['*']
      let value := if isList then
          (if s.arguments.isEmpty then none else some (s.joint.intercalate s.arguments))
        else s.parameter? name
      let plain : List Grain := if isList then s.argumentGrains (name = ['*']) quoted
        else Grain.ofValue quoted (value.getD [])
      let isMissing (emptyToo : Bool) : Bool := value.isNone || (emptyToo && value = some [])
      let needed : Act (List Char) := do
        if value.isNone && !isList && s.switch 'u' then Act.fail
        return value.getD []
      let insert : Act (List Grain) := do
        let l ← expand run fuel word
        return if quoted then l else l.map Grain.standIn
      match use with
      | .value =>
        let _ ← needed
        return plain
      | .mistaken => Act.fail
      | .size => return Grain.ofValue quoted (decimal (← needed).length)
      | .fallback emptyToo => if isMissing emptyToo then insert else return plain
      | .assign emptyToo =>
        if isMissing emptyToo then
          let l ← expand run fuel word
          let text := (Grain.chars s.joint l).map (·.1)
          if !isName name then Act.fail
          Act.assign name text
          return Grain.ofValue quoted text
        else return plain
      | .demand emptyToo => if isMissing emptyToo then Act.fail else return plain
      | .instead emptyToo => if isMissing emptyToo then return [] else insert
      | .dropFront longest =>
        let pattern := patternOfChars (Grain.chars s.joint (← expand run fuel word))
        return Grain.ofValue quoted (dropFitting pattern longest (← needed))
      | .dropBack longest =>
        let pattern := patternOfChars (Grain.chars s.joint (← expand run fuel word))
        return Grain.ofValue quoted (dropFittingBack pattern longest (← needed))

end

/-- The fields that an expanded word is split into. A field is begun by a character or by quotes.
Separators that are no blanks end a field even if it is empty; `pending` says that blanks have just
ended one. -/
def splitGrains (separators : List Char) :
    List Grain → Option (List (Char × Bool)) → Bool → List (List (Char × Bool))
  | [], current, _ => (current.map List.reverse).toList
  | .hollow :: .vanish :: rest, current, pending => splitGrains separators rest current pending
  | .vanish :: rest, current, pending => splitGrains separators rest current pending
  | .hollow :: rest, current, _ => splitGrains separators rest (some (current.getD [])) false
  | .gap :: rest, current, _ =>
    (current.map List.reverse).toList ++ splitGrains separators rest none false
  | .char c mark :: rest, current, pending =>
    if mark = .value ∧ separators.contains c then
      if isBlankSpace c ∨ c = '\n' then
        match current with
        | some field => field.reverse :: splitGrains separators rest none true
        | none => splitGrains separators rest none pending
      else if current.isNone ∧ pending then splitGrains separators rest none false
      else (current.getD []).reverse :: splitGrains separators rest none false
    else splitGrains separators rest (some ((c, decide (mark = .quoted)) :: current.getD [])) false

def hasWildcard (field : List (Char × Bool)) : Bool :=
  field.any fun e => !e.2 && (e.1 = '*' || e.1 = '?' || e.1 = '[')

def cutField : List (Char × Bool) → List (List (Char × Bool))
  | [] => [[]]
  | e :: rest =>
    if e.1 = '/' then [] :: cutField rest
    else
      match cutField rest with
      | [] => [[e]]
      | part :: more => (e :: part) :: more

/-- The names in a directory that a pattern fits, in order. Names with a dot in front want a dot in
the pattern. -/
def fittingNames (tree : FileTree) (dir : List Char) (pattern : List Glob.Token) :
    List (List Char) :=
  match tree.node? ⟨if dir.isEmpty then "." else spell dir⟩ with
  | none => []
  | some node =>
    let names := if node.isDirectory then
        ['.'] :: ['.', '.'] :: node.entries.map fun e => unspell e.1
      else []
    let shown := names.filter fun name =>
      (name.head? ≠ some '.' || pattern.head? = some (.char '.')) && Glob.fits pattern name
    shown.mergeSort fun a b => (compare a b).isLE

def fittingPaths (tree : FileTree) : List Char → List (List (Char × Bool)) → List (List Char)
  | base, [] => if tree.pathExists ⟨spell base⟩ then [base] else []
  | base, part :: rest =>
    let names := if hasWildcard part then fittingNames tree base (patternOfChars part)
      else [part.map (·.1)]
    let tail := if rest.isEmpty then [] else ['/']
    names.flatMap fun name => fittingPaths tree (base ++ name ++ tail) rest

def State.paths (s : State) (field : List (Char × Bool)) : List (List Char) :=
  if hasWildcard field && !s.switch 'f' then
    match fittingPaths s.tree [] (cutField field) with
    | [] => [field.map (·.1)]
    | paths => paths
  else [field.map (·.1)]

def State.atHome (s : State) (w : Word) : Word :=
  match w with
  | .text ('~' :: rest) false :: more =>
    if rest.head?.getD '/' = '/' && (rest ≠ [] || more.isEmpty) then
      match s.value? "HOME".toList with
      | some home => .text home true :: .text rest false :: more
      | none => w
    else w
  | w => w

def wordDepth : Nat := 100000

def fieldsOf (run : Command → Act (List Char)) (w : Word) : Act (List (List Char)) := do
  let l ← expand run wordDepth ((← get).atHome w)
  let s ← get
  return (splitGrains s.separators l none false).flatMap s.paths

def textOf (run : Command → Act (List Char)) (w : Word) : Act (List Char) := do
  let l ← expand run wordDepth ((← get).atHome w)
  return (Grain.chars (← get).joint l).map (·.1)

def wordPattern (run : Command → Act (List Char)) (w : Word) : Act (List Glob.Token) := do
  let l ← expand run wordDepth w
  return patternOfChars (Grain.chars (← get).joint l)

end Retest.Shell
