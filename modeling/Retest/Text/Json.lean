/-! JSON: values, a reader that keeps what a strict reader would refuse only later, and a writer. -/

namespace Retest

/-- A JSON value. A string is `none` if its escapes name half of a surrogate pair; a number keeps
its literal; an object keeps every entry in order, repeated keys too. -/
inductive Json where
  | null
  | bool (b : Bool)
  | number (literal : List Char)
  | string (s : Option (List Char))
  | array (items : List Json)
  | object (entries : List (Option (List Char) × Json))
  deriving Repr, Inhabited

namespace Json

def isSpace (c : Char) : Bool := c = ' ' || c = '\n' || c = '\t' || c = '\r'

def skipSpaces (s : List Char) : List Char := s.dropWhile isSpace

def hexDigit? (c : Char) : Option Nat :=
  if '0' ≤ c ∧ c ≤ '9' then some (c.toNat - 48)
  else if 'a' ≤ c ∧ c ≤ 'f' then some (c.toNat - 87)
  else if 'A' ≤ c ∧ c ≤ 'F' then some (c.toNat - 55)
  else none

def hexQuad? : List Char → Option (Nat × List Char)
  | a :: b :: c :: d :: rest => do
    let a ← hexDigit? a
    let b ← hexDigit? b
    let c ← hexDigit? c
    let d ← hexDigit? d
    return (((a * 16 + b) * 16 + c) * 16 + d, rest)
  | _ => none

def simpleEscape? : Char → Option Char
  | '"' => some '"'
  | '\\' => some '\\'
  | '/' => some '/'
  | 'b' => some '\x08'
  | 'f' => some '\x0c'
  | 'n' => some '\n'
  | 'r' => some '\r'
  | 't' => some '\t'
  | _ => none

inductive StringUnit where
  | char (c : Char)
  | half (n : Nat)
  deriving Repr, DecidableEq

/-- The units of a string up to its closing quote, and what follows that. Control characters must be
escaped. -/
def readUnits : Nat → List StringUnit → List Char → Option (List StringUnit × List Char)
  | 0, _, _ => none
  | _ + 1, _, [] => none
  | fuel + 1, acc, c :: rest =>
    if c = '"' then some (acc.reverse, rest)
    else if c.toNat < 0x20 then none
    else if c ≠ '\\' then readUnits fuel (.char c :: acc) rest
    else
      match rest with
      | [] => none
      | 'u' :: rest =>
        match hexQuad? rest with
        | none => none
        | some (n, rest) =>
          let unit := if 0xD800 ≤ n ∧ n < 0xE000 then StringUnit.half n else .char (Char.ofNat n)
          readUnits fuel (unit :: acc) rest
      | e :: rest =>
        match simpleEscape? e with
        | none => none
        | some d => readUnits fuel (.char d :: acc) rest

def joinUnits : List StringUnit → Option (List Char)
  | [] => some []
  | .char c :: rest => (joinUnits rest).map (c :: ·)
  | .half a :: .half b :: rest =>
    if a < 0xDC00 ∧ 0xDC00 ≤ b then
      (joinUnits rest).map (Char.ofNat (0x10000 + (a - 0xD800) * 0x400 + (b - 0xDC00)) :: ·)
    else none
  | .half _ :: _ => none

def readString (s : List Char) : Option (Option (List Char) × List Char) :=
  (readUnits (s.length + 1) [] s).map fun r => (joinUnits r.1, r.2)

def digits1 (s : List Char) : Option (List Char × List Char) :=
  match s.takeWhile Char.isDigit with
  | [] => none
  | ds => some (ds, s.dropWhile Char.isDigit)

def wholePart : List Char → Option (List Char × List Char)
  | '0' :: rest => if (rest.head?.map Char.isDigit).getD false then none else some (['0'], rest)
  | s => digits1 s

def fraction : List Char → Option (List Char × List Char)
  | '.' :: rest => (digits1 rest).map fun r => ('.' :: r.1, r.2)
  | s => some ([], s)

def exponent : List Char → Option (List Char × List Char)
  | e :: rest =>
    if e = 'e' ∨ e = 'E' then
      match rest with
      | sign :: more =>
        if sign = '+' ∨ sign = '-' then (digits1 more).map fun r => (e :: sign :: r.1, r.2)
        else (digits1 rest).map fun r => (e :: r.1, r.2)
      | [] => none
    else some ([], e :: rest)
  | [] => some ([], [])

def readNumber (s : List Char) : Option (List Char × List Char) := do
  let (sign, s) := match s with
    | '-' :: rest => (['-'], rest)
    | _ => ([], s)
  let (whole, s) ← wholePart s
  let (frac, s) ← fraction s
  let (exp, s) ← exponent s
  return (sign ++ whole ++ frac ++ exp, s)

mutual

def readValue : Nat → List Char → Option (Json × List Char)
  | 0, _ => none
  | fuel + 1, s =>
    match skipSpaces s with
    | 'n' :: 'u' :: 'l' :: 'l' :: rest => some (.null, rest)
    | 't' :: 'r' :: 'u' :: 'e' :: rest => some (.bool true, rest)
    | 'f' :: 'a' :: 'l' :: 's' :: 'e' :: rest => some (.bool false, rest)
    | '"' :: rest => (readString rest).map fun r => (.string r.1, r.2)
    | '[' :: rest =>
      match skipSpaces rest with
      | ']' :: rest => some (.array [], rest)
      | _ => readItems fuel [] rest
    | '{' :: rest =>
      match skipSpaces rest with
      | '}' :: rest => some (.object [], rest)
      | _ => readEntries fuel [] rest
    | s => (readNumber s).map fun r => (.number r.1, r.2)

def readItems : Nat → List Json → List Char → Option (Json × List Char)
  | 0, _, _ => none
  | fuel + 1, acc, s =>
    match readValue fuel s with
    | none => none
    | some (v, rest) =>
      match skipSpaces rest with
      | ',' :: rest => readItems fuel (v :: acc) rest
      | ']' :: rest => some (.array (v :: acc).reverse, rest)
      | _ => none

def readEntries : Nat → List (Option (List Char) × Json) → List Char → Option (Json × List Char)
  | 0, _, _ => none
  | fuel + 1, acc, s =>
    match skipSpaces s with
    | '"' :: rest =>
      match readString rest with
      | none => none
      | some (key, rest) =>
        match skipSpaces rest with
        | ':' :: rest =>
          match readValue fuel rest with
          | none => none
          | some (v, rest) =>
            match skipSpaces rest with
            | ',' :: rest => readEntries fuel ((key, v) :: acc) rest
            | '}' :: rest => some (.object ((key, v) :: acc).reverse, rest)
            | _ => none
        | _ => none
    | _ => none

end

def ofText? (s : List Char) : Option Json :=
  match readValue (s.length + 1) s with
  | some (v, rest) => if skipSpaces rest = [] then some v else none
  | none => none

def decimal (ds : List Char) : Nat := ds.foldl (fun n c => n * 10 + (c.toNat - 48)) 0

/-- The first digits of a number, while the number stays below 2 to the 64, put behind those that
are known already, and how many digits are left out. -/
def leadingDigits (known : Nat) : List Char → Nat × Nat
  | [] => (known, 0)
  | c :: rest =>
    let next := known * 10 + (c.toNat - 48)
    if next < 0x10000000000000000 then leadingDigits next rest else (known, rest.length + 1)

/-- What a strict reader keeps of a literal: its leading digits as one number, and the power of ten
to scale it by. -/
def scaled (literal : List Char) : Nat × Int :=
  let body := literal.filter fun c => c ≠ '+'
  let body := match body with
    | '-' :: rest => rest
    | s => s
  let mantissa := body.takeWhile fun c => c ≠ 'e' && c ≠ 'E'
  let frac := (mantissa.dropWhile (· ≠ '.')).drop 1
  let (whole, before) := leadingDigits 0 (mantissa.takeWhile (· ≠ '.'))
  let (digits, left) := leadingDigits whole frac
  let power : Int := match (body.dropWhile fun c => c ≠ 'e' && c ≠ 'E').drop 1 with
    | '-' :: ds => -(decimal ds : Int)
    | ds => (decimal ds : Int)
  (digits, power + before - (frac.length - left))

/-- The nearest number of which 53 binary digits at most count, as many as a 64-bit float has.
Of two that are equally near it is the one whose last digit is zero. -/
def nearestFloat (n : Nat) : Nat :=
  if n < Nat.pow 2 53 then n
  else
    let unit := Nat.pow 2 (Nat.log2 n - 52)
    let low := n / unit
    let rest := n % unit
    let up := unit < 2 * rest || (unit = 2 * rest && low % 2 = 1)
    (if up then low + 1 else low) * unit

/-- Whether a number is too large for a 64-bit float. The leading digits and the power of ten are
rounded each before they are multiplied. -/
def isHuge (literal : List Char) : Bool :=
  let (digits, power) := scaled literal
  digits ≠ 0 && 0 ≤ power && (308 < power ||
    Nat.pow 2 1024 - Nat.pow 2 970 ≤
      nearestFloat digits * nearestFloat (Nat.pow 10 power.toNat))

mutual

/-- Whether a strict reader takes a value that may nest so many levels of arrays and objects: every
string is a text and no number is too large. -/
def isReadable : Nat → Json → Bool
  | _, .null | _, .bool _ => true
  | _, .number literal => !isHuge literal
  | _, .string s => s.isSome
  | 0, .array _ | 0, .object _ => false
  | depth + 1, .array items => allReadable depth items
  | depth + 1, .object entries => allEntriesReadable depth entries

def allReadable : Nat → List Json → Bool
  | _, [] => true
  | depth, v :: rest => isReadable depth v && allReadable depth rest

def allEntriesReadable : Nat → List (Option (List Char) × Json) → Bool
  | _, [] => true
  | depth, (key, v) :: rest =>
    key.isSome && isReadable depth v && allEntriesReadable depth rest

end

def valuesOf (entries : List (Option (List Char) × Json)) (key : String) : List Json :=
  (entries.filter fun e => e.1 = some key.toList).map (·.2)

def ofString (s : String) : Json := .string (some s.toList)

def ofNat (n : Nat) : Json := .number (toString n).toList

def ofOption {α : Type} (f : α → Json) : Option α → Json
  | none => .null
  | some a => f a

def ofFields (fields : List (String × Json)) : Json :=
  .object (fields.map fun e => (some e.1.toList, e.2))

end Json

end Retest
