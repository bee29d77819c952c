import Retest.Shell.Arithmetic

namespace Retest.Shell.Format

def escaped? (c : Char) : Option Char :=
  match c with
  | 'a' => some '\x07'
  | 'b' => some '\x08'
  | 'e' => some '\x1b'
  | 'f' => some '\x0c'
  | 'n' => some '\n'
  | 'r' => some '\r'
  | 't' => some '\t'
  | 'v' => some '\x0b'
  | '\\' => some '\\'
  | _ => none

def isOctal (c : Char) : Bool := '0' ≤ c && c ≤ '7'

def takeOctal (limit : Nat) (s : List Char) : Char × List Char :=
  let digits := (s.take limit).takeWhile isOctal
  (Char.ofNat (Sum.ofDigits 8 digits % 256), s.drop digits.length)

/-- Reads the backslashes of an argument. Behind a `c` nothing more counts; the flag tells
whether there was one. -/
def unescape : Nat → List Char → List Char × Bool
  | 0, _ | _, [] => ([], false)
  | fuel + 1, '\\' :: c :: rest =>
    let go (first rest : List Char) : List Char × Bool :=
      let (more, stopped) := unescape fuel rest
      (first ++ more, stopped)
    if c = 'c' then ([], true)
    else if c = '0' then
      let (d, rest) := takeOctal 3 rest
      go [d] rest
    else if isOctal c then
      let (d, rest) := takeOctal 3 (c :: rest)
      go [d] rest
    else
      match escaped? c with
      | some d => go [d] rest
      | none => go ['\\', c] rest
  | fuel + 1, c :: rest =>
    let (more, stopped) := unescape fuel rest
    (c :: more, stopped)

def unescaped (s : List Char) : List Char × Bool := unescape (s.length + 1) s

structure Directive where
  left : Bool := false
  zeros : Bool := false
  plus : Bool := false
  space : Bool := false
  marked : Bool := false
  width : Nat := 0
  precision : Option Nat := none
  deriving Repr, DecidableEq, Inhabited

namespace Directive

def pad (d : Directive) (t : List Char) : List Char :=
  let blanks := List.replicate (d.width - t.length) ' '
  if d.left then t ++ blanks else blanks ++ t

def digits (d : Directive) (sign : List Char) (t : List Char) : List Char :=
  let t := match d.precision with
    | some n => List.replicate (n - t.length) '0' ++ (if n = 0 ∧ t = ['0'] then [] else t)
    | none => t
  let fill := d.width - sign.length - t.length
  if d.zeros && !d.left && d.precision.isNone then sign ++ List.replicate fill '0' ++ t
  else d.pad (sign ++ t)

def flag (d : Directive) : Char → Option Directive
  | '-' => some { d with left := true }
  | '0' => some { d with zeros := true }
  | '+' => some { d with plus := true }
  | ' ' => some { d with space := true }
  | '#' => some { d with marked := true }
  | _ => none

def takeFlags (d : Directive) : List Char → Directive × List Char
  | [] => (d, [])
  | c :: rest =>
    match d.flag c with
    | some d => takeFlags d rest
    | none => (d, c :: rest)

end Directive

structure Filled where
  text : List Char := []
  arguments : List (List Char) := []
  status : Nat := 0
  stopped : Bool := false
  deriving Repr, DecidableEq, Inhabited

namespace Filled

def put (f : Filled) (t : List Char) : Filled := { f with text := f.text ++ t }

def next (f : Filled) : List Char × Filled :=
  (f.arguments.headD [], { f with arguments := f.arguments.drop 1 })

/-- Takes the next argument as a number. A quote in front asks for the code of a character. What is
no number counts as far as it is one. -/
def nextNumber (f : Filled) : Int × Filled :=
  let (t, f) := f.next
  match t with
  | [] => (0, f)
  | q :: c :: _ =>
    if q = '"' ∨ q = '\'' then (c.toNat, f) else ofText t f
  | t => ofText t f
where
  ofText (t : List Char) (f : Filled) : Int × Filled :=
    let t := Sum.skipSpace t
    let (sign, digits) : Int × List Char := match t with
      | '-' :: rest => (-1, rest)
      | '+' :: rest => (1, rest)
      | rest => (1, rest)
    let (n, rest) := Sum.takeNumber digits
    let limit : Int := if sign < 0 then 0x8000000000000000 else 0x7fffffffffffffff
    let ok := rest = [] ∧ (digits.head?.map Char.isDigit).getD false ∧ n ≤ limit
    (sign * min (n : Int) limit, if ok then f else { f with status := 1 })

end Filled

def takeCount (f : Filled) (s : List Char) : Int × Filled × List Char :=
  match s with
  | '*' :: rest =>
    let (n, f) := f.nextNumber
    (n, f, rest)
  | s =>
    let digits := s.takeWhile Char.isDigit
    (Sum.ofDigits 10 digits, f, s.drop digits.length)

def upper (c : Char) : Char := if 'a' ≤ c ∧ c ≤ 'z' then Char.ofNat (c.toNat - 32) else c

def lower (c : Char) : Char := if 'A' ≤ c ∧ c ≤ 'Z' then Char.ofNat (c.toNat + 32) else c

def fillOne (f : Filled) (d : Directive) (letter : Char) : Option Filled :=
  let cut (t : List Char) : List Char := match d.precision with
    | some n => t.take n
    | none => t
  let number (f : Filled) (n : Nat) (base : Nat) (mark : List Char) : Filled :=
    f.put (d.digits (if d.marked ∧ n ≠ 0 then mark else []) (Nat.toDigits base n))
  match letter with
  | 's' =>
    let (t, f) := f.next
    some (f.put (d.pad (cut t)))
  | 'b' =>
    let (t, f) := f.next
    let (t, stopped) := unescaped t
    some { f.put (d.pad (cut t)) with stopped }
  | 'c' =>
    let (t, f) := f.next
    some (f.put (d.pad [t.headD '\x00']))
  | 'd' | 'i' =>
    let (n, f) := f.nextNumber
    let sign := if n < 0 then ['-'] else if d.plus then ['+'] else if d.space then [' '] else []
    some (f.put (d.digits sign (toString n.natAbs).toList))
  | 'u' =>
    let (n, f) := f.nextNumber
    some (number f (Sum.bits n) 10 [])
  | 'o' =>
    let (n, f) := f.nextNumber
    some (number f (Sum.bits n) 8 ['0'])
  | 'x' =>
    let (n, f) := f.nextNumber
    some (number f (Sum.bits n) 16 ['0', 'x'])
  | 'X' =>
    let (n, f) := f.nextNumber
    let digits := (Nat.toDigits 16 (Sum.bits n)).map upper
    some (f.put (d.digits (if d.marked ∧ n ≠ 0 then ['0', 'X'] else []) digits))
  | _ => none

def fill : Nat → List Char → Filled → Filled
  | 0, _, f | _, [], f => f
  | fuel + 1, '\\' :: c :: rest, f =>
    if isOctal c then
      let (d, rest) := takeOctal 3 (c :: rest)
      fill fuel rest (f.put [d])
    else
      match escaped? c with
      | some d => fill fuel rest (f.put [d])
      | none => fill fuel rest (f.put ['\\', c])
  | fuel + 1, '%' :: '%' :: rest, f => fill fuel rest (f.put ['%'])
  | fuel + 1, '%' :: rest, f =>
    let (d, rest) := Directive.takeFlags {} rest
    let (width, f, rest) := takeCount f rest
    let d := { d with width := width.natAbs, left := d.left || decide (width < 0) }
    let (d, f, rest) := match rest with
      | '.' :: rest =>
        let (precision, f, rest) := takeCount f rest
        ({ d with precision := some precision.toNat }, f, rest)
      | rest => (d, f, rest)
    match rest with
    | [] => { f with status := 2, stopped := true }
    | letter :: rest =>
      match fillOne f d letter with
      | none => { f with status := 2, stopped := true }
      | some f => if f.stopped then f else fill fuel rest f
  | fuel + 1, c :: rest, f => fill fuel rest (f.put [c])

def fillAll (format : List Char) : Nat → Filled → Filled
  | 0, f => f
  | fuel + 1, f =>
    let g := fill (format.length + 1) format f
    if g.stopped || g.arguments.isEmpty || g.arguments.length = f.arguments.length then g
    else fillAll format fuel g

def filled (format : List Char) (arguments : List (List Char)) : Filled :=
  fillAll format (arguments.length + 1) { arguments }

end Retest.Shell.Format
