import Retest.Regex.Escape

namespace Retest.Regex

structure Nested where
  chars : CharSet
  depth : Nat
  deriving Repr, DecidableEq

inductive SetOp where
  | inter
  | diff
  | symm
  deriving Repr, DecidableEq

def SetOp.apply : SetOp → CharSet → CharSet → CharSet
  | .inter, a, b => a.inter b
  | .diff, a, b => a.diff b
  | .symm, a, b => a.symmDiff b

/-- An open bracket: whether it is negated, the operation whose right side is being read with its
left side, and the members read so far, the last one first. -/
structure OpenBracket where
  negated : Bool
  pending : Option (SetOp × Nested) := none
  members : List Nested := []
  deriving Repr, DecidableEq

namespace OpenBracket

def add (b : OpenBracket) (n : Nested) : OpenBracket := { b with members := n :: b.members }

/-- The union of the members. Two and more of them count as a level of their own. -/
def gather (b : OpenBracket) : Nested :=
  match b.members with
  | [] => ⟨.none, 0⟩
  | [n] => n
  | ns => ⟨.unions (ns.reverse.map (·.chars)), 1 + ns.foldl (fun d n => max d n.depth) 0⟩

def combined (m : Mode) (b : OpenBracket) : Nested :=
  let right := b.gather
  match b.pending with
  | none => right
  | some (op, left) =>
    ⟨op.apply (m.fold left.chars) (m.fold right.chars), 1 + max left.depth right.depth⟩

def operate (m : Mode) (b : OpenBracket) (op : SetOp) : OpenBracket :=
  { b with pending := some (op, b.combined m), members := [] }

/-- The set of a bracket that closes. Cases are added before it is negated. -/
def close (m : Mode) (b : OpenBracket) : Except SyntaxError Nested :=
  let n := b.combined m
  if b.negated && !m.wide then .error .notAscii
  else .ok ⟨(m.fold n.chars).negateIf b.negated, 1 + n.depth⟩

end OpenBracket

def leadingHyphens (m : Mode) : Nat → OpenBracket → List Char → OpenBracket × List Char
  | 0, b, s => (b, s)
  | fuel + 1, b, s =>
    match s with
    | '-' :: rest => leadingHyphens m fuel (b.add ⟨.single '-', 0⟩) (m.skip rest)
    | _ => (b, s)

/-- What stands behind an opening bracket: a negation, hyphens, and a closing bracket that stands
for itself because it comes first. -/
def openBracket (m : Mode) (s : List Char) : Except SyntaxError (OpenBracket × List Char) :=
  let s := m.skip s
  let (negated, s) := match s with
    | '^' :: rest => (true, m.skip rest)
    | _ => (false, s)
  let (b, s) := leadingHyphens m (s.length + 1) ⟨negated, none, []⟩ s
  match s with
  | [] => .error .badClass
  | ']' :: rest =>
    if b.members = [] then
      match m.skip rest with
      | [] => .error .badClass
      | s => .ok (b.add ⟨.single ']', 0⟩, s)
    else .ok (b, ']' :: rest)
  | s => .ok (b, s)

/-- A named class such as `[:alpha:]`. What does not have that form is no named class. -/
def namedClass? (m : Mode) (s : List Char) : Option (Except SyntaxError Nested × List Char) :=
  match s with
  | '[' :: ':' :: rest =>
    let (negated, rest) := match rest with
      | '^' :: more => (true, more)
      | _ => (false, rest)
    let name := rest.takeWhile (· ≠ ':')
    match rest.dropWhile (· ≠ ':') with
    | ':' :: ']' :: more =>
      (asciiClass? name).map fun set =>
        (if negated && !m.wide then .error .notAscii
          else .ok ⟨(m.fold set).negateIf negated, 0⟩, more)
    | _ => none
  | _ => none

/-- The character behind a hyphen that decides what the hyphen means. In spaced mode blanks and one
hash are passed over. -/
def peekBehind (m : Mode) (s : List Char) : Option Char :=
  if m.spaced then
    match s.dropWhile isBlank with
    | [] => s.head?
    | '#' :: rest =>
      match rest.dropWhile isBlank with
      | [] => s.head?
      | c :: _ => some c
    | c :: _ => some c
  else s.head?

def bracketAtom (m : Mode) : List Char → Except SyntaxError (Atom × List Char)
  | [] => .error .badClass
  | '\\' :: rest => escape m rest
  | c :: rest => .ok (.literal c, rest)

def Atom.char? : Atom → Option Char
  | .literal c => some c
  | .byte c => some c
  | _ => none

/-- The set of an atom as a member of a bracket; in ASCII mode it must stay within ASCII. -/
def Atom.member (m : Mode) : Atom → Except SyntaxError CharSet
  | .literal c | .byte c =>
    if !m.wide && 0x80 ≤ c.toNat then .error .notAscii else .ok (.single c)
  | .shorthand k negated =>
    if !m.wide && negated then .error .notAscii else .ok ((k.chars m.wide).negateIf negated)
  | .property s negated =>
    if m.wide then .ok ((m.fold s).negateIf negated) else .error .notAscii
  | .dot | .assertion _ => .error .badClass

/-- A member of a bracket: a range if a hyphen follows that is neither last nor doubled. -/
def bracketMember (m : Mode) (s : List Char) : Except SyntaxError (Nested × List Char) := do
  let (low, s) ← bracketAtom m s
  match m.skip s with
  | [] => .error .badClass
  | '-' :: rest =>
    if peekBehind m rest = some ']' ∨ peekBehind m rest = some '-' then
      return (⟨← low.member m, 0⟩, '-' :: rest)
    else
      let (high, s) ← bracketAtom m (m.skip rest)
      match low.char?, high.char? with
      | some a, some b =>
        if b < a then .error .badRange
        else if !m.wide && 0x80 ≤ b.toNat then .error .notAscii
        else return (⟨.range a.toNat b.toNat, 0⟩, s)
      | _, _ => .error .badRange
  | s => return (⟨← low.member m, 0⟩, s)

def setOp? : List Char → Option (SetOp × List Char)
  | '&' :: '&' :: rest => some (.inter, rest)
  | '-' :: '-' :: rest => some (.diff, rest)
  | '~' :: '~' :: rest => some (.symm, rest)
  | _ => none

/-- Reads members until the outermost bracket closes. `b` is the innermost open bracket and `outer`
are those around it. The fuel is the length of the text. -/
def readBracket (m : Mode) : Nat → OpenBracket → List OpenBracket → List Char →
    Except SyntaxError (Nested × List Char)
  | 0, _, _, _ => .error .badClass
  | fuel + 1, b, outer, s =>
    match m.skip s with
    | [] => .error .badClass
    | ']' :: rest => do
      let n ← b.close m
      match outer with
      | [] => return (n, rest)
      | o :: more => readBracket m fuel (o.add n) more rest
    | '[' :: rest =>
      match namedClass? m ('[' :: rest) with
      | some (n, rest) => do readBracket m fuel (b.add (← n)) outer rest
      | none => do
        let (inner, rest) ← openBracket m rest
        readBracket m fuel inner (b :: outer) rest
    | s =>
      match setOp? s with
      | some (op, rest) => readBracket m fuel (b.operate m op) outer rest
      | none => do
        let (n, rest) ← bracketMember m s
        readBracket m fuel (b.add n) outer rest

def bracketClass (m : Mode) (s : List Char) : Except SyntaxError (Nested × List Char) := do
  let (b, s) ← openBracket m s
  readBracket m (s.length + 1) b [] s

end Retest.Regex
