import Retest.Shell.Syntax

/-! Sums of whole numbers in scripts. Numbers have 64 bits and wrap around. -/

namespace Retest.Shell

inductive Sum where
  | number (n : Int)
  | named (name : List Char)
  | unary (sign : Char) (a : Sum)
  | binary (sign : String) (a b : Sum)
  | choice (test yes no : Sum)
  | assign (name : List Char) (sign : String) (value : Sum)
  deriving Repr, Inhabited

namespace Sum

def skipSpace (s : List Char) : List Char := s.dropWhile fun c => isBlankSpace c || c = '\n'

def digitValue (c : Char) : Nat :=
  if c.isDigit then c.toNat - 48
  else if 'a' ≤ c ∧ c ≤ 'f' then c.toNat - 87
  else if 'A' ≤ c ∧ c ≤ 'F' then c.toNat - 55
  else 16

def ofDigits (base : Nat) (s : List Char) : Nat := s.foldl (fun n c => n * base + digitValue c) 0

/-- A number at the front of a text: hexadecimal behind `0x`, octal behind `0`, else decimal. -/
def takeNumber (s : List Char) : Nat × List Char :=
  let digits (base : Nat) (s : List Char) : Nat × List Char :=
    let inside := s.takeWhile fun c => decide (digitValue c < base)
    (ofDigits base inside, s.drop inside.length)
  match s with
  | '0' :: x :: d :: rest =>
    if (x = 'x' ∨ x = 'X') ∧ digitValue d < 16 then digits 16 (d :: rest) else digits 8 s
  | '0' :: _ => digits 8 s
  | _ => digits 10 s

def numberOf? (s : List Char) : Option Int :=
  let unsigned (s : List Char) : Option Int :=
    match s with
    | c :: _ =>
      let (n, rest) := takeNumber s
      if c.isDigit ∧ (skipSpace rest).isEmpty then some n else none
    | [] => none
  match skipSpace s with
  | '-' :: rest => (unsigned rest).map fun n => -n
  | '+' :: rest => unsigned rest
  | rest => unsigned rest

/-- The signs between two sums, the loosest first. Of two that begin alike the longer stands
first. -/
def levels : List (List String) :=
  [["||"], ["&&"], ["|"], ["^"], ["&"], ["==", "!="], ["<=", ">=", "<", ">"], ["<<", ">>"],
    ["+", "-"], ["*", "/", "%"]]

def assignSigns : List String :=
  ["<<=", ">>=", "+=", "-=", "*=", "/=", "%=", "&=", "|=", "^=", "="]

def allSigns : List String :=
  ["<<=", ">>=", "||", "&&", "==", "!=", "<=", ">=", "<<", ">>", "+=", "-=", "*=", "/=", "%=",
    "&=", "|=", "^=", "|", "^", "&", "<", ">", "+", "-", "*", "/", "%", "="]

def takeSign (s : List Char) : Option (String × List Char) :=
  let s := skipSpace s
  (allSigns.find? fun t => t.toList.isPrefixOf s).map fun t => (t, s.drop t.length)

mutual

def readWhole : Nat → List Char → Option (Sum × List Char)
  | 0, _ => none
  | fuel + 1, s =>
    let s := skipSpace s
    let name := s.takeWhile isNameChar
    let assigned := if isName name then
        (takeSign (s.drop name.length)).filter fun r => assignSigns.contains r.1
      else none
    match assigned with
    | some (sign, rest) =>
      (readWhole fuel rest).map fun r =>
        (.assign name (String.ofList (sign.toList.dropLast)) r.1, r.2)
    | none => do
      let (test, rest) ← readLevel fuel levels s
      match skipSpace rest with
      | '?' :: rest => do
        let (yes, rest) ← readWhole fuel rest
        match skipSpace rest with
        | ':' :: rest => do
          let (no, rest) ← readWhole fuel rest
          return (.choice test yes no, rest)
        | _ => none
      | _ => return (test, rest)

def readLevel : Nat → List (List String) → List Char → Option (Sum × List Char)
  | 0, _, _ => none
  | fuel + 1, [], s => readUnary fuel s
  | fuel + 1, signs :: tighter, s => do
    let (first, rest) ← readLevel fuel tighter s
    readRest fuel signs tighter first rest

def readRest : Nat → List String → List (List String) → Sum → List Char →
    Option (Sum × List Char)
  | 0, _, _, _, _ => none
  | fuel + 1, signs, tighter, first, s =>
    match takeSign s with
    | some (sign, rest) =>
      if signs.contains sign then do
        let (second, rest) ← readLevel fuel tighter rest
        readRest fuel signs tighter (.binary sign first second) rest
      else some (first, s)
    | none => some (first, s)

def readUnary : Nat → List Char → Option (Sum × List Char)
  | 0, _ => none
  | fuel + 1, s =>
    match skipSpace s with
    | [] => none
    | c :: rest =>
      if c = '(' then
        match readWhole fuel rest with
        | none => none
        | some (inner, rest) =>
          match skipSpace rest with
          | ')' :: rest => some (inner, rest)
          | _ => none
      else if c = '-' ∨ c = '+' ∨ c = '!' ∨ c = '~' then
        (readUnary fuel rest).map fun r => (.unary c r.1, r.2)
      else if c.isDigit then
        let (n, rest) := takeNumber (c :: rest)
        some (.number n, rest)
      else if isNameStart c then
        some (.named (c :: rest.takeWhile isNameChar), rest.dropWhile isNameChar)
      else none

end

def ofText? (s : List Char) : Option Sum :=
  match readWhole (16 * s.length + 64) s with
  | some (sum, rest) => if (skipSpace rest).isEmpty then some sum else none
  | none => none

def wrap (n : Int) : Int := Int.bmod n 0x10000000000000000

def truth (b : Bool) : Int := if b then 1 else 0

def bits (n : Int) : Nat := (n % 0x10000000000000000).toNat

def bitwise (f : Nat → Nat → Nat) (a b : Int) : Int :=
  wrap (f (bits a) (bits b))

/-- The value of two numbers with a sign between them. Nothing is divided by zero. -/
def combine (sign : String) (a b : Int) : Option Int :=
  match sign with
  | "+" => some (wrap (a + b))
  | "-" => some (wrap (a - b))
  | "*" => some (wrap (a * b))
  | "/" => if b = 0 then none else some (wrap (a.tdiv b))
  | "%" => if b = 0 then none else some (wrap (a.tmod b))
  | "<<" => some (wrap (a * Int.pow 2 (b % 64).toNat))
  | ">>" => some (a / Int.pow 2 (b % 64).toNat)
  | "<" => some (truth (a < b))
  | ">" => some (truth (b < a))
  | "<=" => some (truth (a ≤ b))
  | ">=" => some (truth (b ≤ a))
  | "==" => some (truth (a = b))
  | "!=" => some (truth (a ≠ b))
  | "&" => some (bitwise Nat.land a b)
  | "|" => some (bitwise Nat.lor a b)
  | "^" => some (bitwise Nat.xor a b)
  | _ => none

/-- The number that a name stands for: what was assigned last, else what is looked up. -/
def current (look : List Char → Option Int) (name : List Char) :
    StateT (List (List Char × Int)) Option Int := do
  match (← get).find? fun e => e.1 = name with
  | some e => return e.2
  | none => look name

/-- The value of a sum. The state holds what was assigned on the way, the latest first; other names
are looked up, and may have no number for a value. -/
def value (look : List Char → Option Int) : Sum → StateT (List (List Char × Int)) Option Int
  | .number n => return wrap n
  | .named name => current look name
  | .unary sign a => do
    let n ← value look a
    match sign with
    | '-' => return wrap (-n)
    | '!' => return truth (n = 0)
    | '~' => return -n - 1
    | _ => return n
  | .binary "&&" a b => do
    if (← value look a) = 0 then return 0
    return truth ((← value look b) ≠ 0)
  | .binary "||" a b => do
    if (← value look a) ≠ 0 then return 1
    return truth ((← value look b) ≠ 0)
  | .binary sign a b => do
    let m ← value look a
    let n ← value look b
    combine sign m n
  | .choice test yes no => do
    if (← value look test) ≠ 0 then value look yes else value look no
  | .assign name sign v => do
    let n ← value look v
    let n ← if sign = "" then pure n
      else do
        let old ← current look name
        combine sign old n
    modify fun l => (name, n) :: l
    return n

end Sum

end Retest.Shell
