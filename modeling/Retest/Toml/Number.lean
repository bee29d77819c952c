import Retest.Toml.Text
import Retest.Toml.Value

namespace Retest.Toml

def readDigits (isDigit : Char → Bool) : List Char → Option (List Char × List Char)
  | [] => none
  | c :: rest => if isDigit c then more [c] rest else none
where
  /-- After a digit. An underscore asks for another digit. -/
  more (acc : List Char) : List Char → Option (List Char × List Char)
    | '_' :: d :: rest => if isDigit d then more (d :: acc) rest else none
    | ['_'] => none
    | d :: rest => if isDigit d then more (d :: acc) rest else some (acc.reverse, d :: rest)
    | [] => some (acc.reverse, [])

def isHexDigit (c : Char) : Bool := (Json.hexDigit? c).isSome

def isOctalDigit (c : Char) : Bool := '0' ≤ c && c ≤ '7'

def isBinaryDigit (c : Char) : Bool := c = '0' || c = '1'

def isDecimalDigit (c : Char) : Bool := '0' ≤ c && c ≤ '9'

def valueInBase (base : Nat) (digits : List Char) : Nat :=
  digits.foldl (fun n c => n * base + (Json.hexDigit? c).getD 0) 0

/-- Integers have 64 bits. -/
def isInteger (n : Int) : Bool := -0x8000000000000000 ≤ n && n < 0x8000000000000000

def integer? (n : Int) : Option Toml := if isInteger n then some (.integer n) else none

def readSign : List Char → List Char × List Char
  | '+' :: rest => (['+'], rest)
  | '-' :: rest => (['-'], rest)
  | s => ([], s)

/-- A decimal whole number without its sign: a zero alone, or digits that start with another one. -/
def readWhole : List Char → Option (List Char × List Char)
  | '0' :: rest => some (['0'], rest)
  | s => readDigits isDecimalDigit s

def readBased (base : Nat) (isDigit : Char → Bool) (s : List Char) : Option (Toml × List Char) :=
  match readDigits isDigit s with
  | none => none
  | some (digits, rest) => (integer? (valueInBase base digits)).map fun v => (v, rest)

def readInteger (s : List Char) : Option (Toml × List Char) :=
  match s with
  | '0' :: 'x' :: rest => readBased 16 isHexDigit rest
  | '0' :: 'o' :: rest => readBased 8 isOctalDigit rest
  | '0' :: 'b' :: rest => readBased 2 isBinaryDigit rest
  | _ =>
    let (sign, rest) := readSign s
    match readWhole rest with
    | none => none
    | some (digits, rest) =>
      let n : Int := valueInBase 10 digits
      (integer? (if sign = ['-'] then -n else n)).map fun v => (v, rest)

def readPower : List Char → Option (List Char × List Char)
  | e :: rest =>
    if e = 'e' ∨ e = 'E' then
      let (sign, rest) := readSign rest
      (readDigits isDecimalDigit rest).map fun r => ('e' :: sign ++ r.1, r.2)
    else none
  | [] => none

def readScale (s : List Char) : Option (List Char × List Char) :=
  match s with
  | '.' :: rest =>
    match readDigits isDecimalDigit rest with
    | none => none
    | some (digits, rest) =>
      match rest with
      | e :: _ =>
        if e = 'e' ∨ e = 'E' then
          (readPower rest).map fun r => ('.' :: digits ++ r.1, r.2)
        else some ('.' :: digits, rest)
      | [] => some ('.' :: digits, [])
  | _ => readPower s

def readFloat (s : List Char) : Option (Toml × List Char) :=
  let (sign, rest) := readSign s
  match rest with
  | 'i' :: 'n' :: 'f' :: rest => some (.float, rest)
  | 'n' :: 'a' :: 'n' :: rest => some (.float, rest)
  | _ =>
    match readWhole rest with
    | none => none
    | some (whole, rest) =>
      match readScale rest with
      | none => none
      | some (scale, rest) =>
        if sign ≠ ['-'] ∧ Json.isHuge (whole ++ scale) then none else some (.float, rest)

def readField (width low high : Nat) (s : List Char) : Option (Nat × List Char) :=
  let digits := s.take width
  let n := Json.decimal digits
  if digits.length = width ∧ digits.all isDecimalDigit ∧ low ≤ n ∧ n ≤ high then
    some (n, s.drop width)
  else none

def expect (c : Char) : List Char → Option (List Char)
  | d :: rest => if d = c then some rest else none
  | [] => none

def isLeapYear (year : Nat) : Bool := year % 4 = 0 && (year % 100 ≠ 0 || year % 400 = 0)

def daysIn (year month : Nat) : Nat :=
  if month = 2 then (if isLeapYear year then 29 else 28)
  else if month = 4 ∨ month = 6 ∨ month = 9 ∨ month = 11 then 30
  else 31

def skipDay (s : List Char) : Option (List Char) := do
  let (year, s) ← readField 4 0 9999 s
  let s ← expect '-' s
  let (month, s) ← readField 2 1 12 s
  let s ← expect '-' s
  let (_, s) ← readField 2 1 (daysIn year month) s
  return s

/-- What follows a time of day. It has seconds, which may have a fraction. -/
def skipTime (s : List Char) : Option (List Char) := do
  let (_, s) ← readField 2 0 23 s
  let s ← expect ':' s
  let (_, s) ← readField 2 0 59 s
  let s ← expect ':' s
  let (_, s) ← readField 2 0 60 s
  match s with
  | '.' :: c :: rest => if isDecimalDigit c then some (rest.dropWhile isDecimalDigit) else none
  | ['.'] => none
  | s => some s

def skipOffset (s : List Char) : Option (List Char) :=
  match s with
  | c :: rest =>
    if c = 'Z' ∨ c = 'z' then some rest
    else if c = '+' ∨ c = '-' then do
      let (_, s) ← readField 2 0 23 rest
      let s ← expect ':' s
      let (_, s) ← readField 2 0 59 s
      return s
    else some s
  | [] => some []

def readDate (s : List Char) : Option (Toml × List Char) :=
  match skipDay s with
  | none => (skipTime s).map fun rest => (.date, rest)
  | some rest =>
    match rest with
    | c :: time =>
      if c = 'T' ∨ c = 't' then
        ((skipTime time).bind skipOffset).map fun rest => (.date, rest)
      else if c = ' ' then
        match (skipTime time).bind skipOffset with
        | some rest => some (.date, rest)
        | none => some (.date, rest)
      else some (.date, rest)
    | [] => some (.date, [])

/-- A value that starts with a digit, a sign or a letter of a special float. A date goes first, then
a float. -/
def readNumber (s : List Char) : Option (Toml × List Char) :=
  match readDate s with
  | some r => some r
  | none =>
    match readFloat s with
    | some r => some r
    | none => readInteger s

end Retest.Toml
