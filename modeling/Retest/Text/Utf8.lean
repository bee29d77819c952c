/-! Reading bytes as UTF-8, strictly and with replacement characters. A small machine takes one
byte at a time; it refuses a byte exactly when no character can go on with it. -/

namespace Retest.Utf8

/-- Where the reader stands inside a character. The bounds say which byte may come next, `owed` how
many bytes are missing, `code` what the bytes so far amount to. -/
structure Partial where
  low : Nat
  high : Nat
  owed : Nat
  code : Nat
  deriving Repr, DecidableEq

inductive First where
  | char (code : Nat)
  | more (p : Partial)
  | refused
  deriving Repr, DecidableEq

/-- The leading byte of a character fixes its length and, for four leading bytes, narrows the
second byte: no overlong forms, no surrogates, nothing above U+10FFFF. -/
def first (b : Nat) : First :=
  if b < 0x80 then .char b
  else if b < 0xC2 then .refused
  else if b < 0xE0 then .more ⟨0x80, 0xBF, 1, b - 0xC0⟩
  else if b = 0xE0 then .more ⟨0xA0, 0xBF, 2, 0⟩
  else if b = 0xED then .more ⟨0x80, 0x9F, 2, 0xD⟩
  else if b < 0xF0 then .more ⟨0x80, 0xBF, 2, b - 0xE0⟩
  else if b = 0xF0 then .more ⟨0x90, 0xBF, 3, 0⟩
  else if b < 0xF4 then .more ⟨0x80, 0xBF, 3, b - 0xF0⟩
  else if b = 0xF4 then .more ⟨0x80, 0x8F, 3, 4⟩
  else .refused

def Partial.accepts (p : Partial) (b : Nat) : Bool := p.low ≤ b && b ≤ p.high

def Partial.push (p : Partial) (b : Nat) : Partial :=
  ⟨0x80, 0xBF, p.owed - 1, p.code * 64 + (b - 0x80)⟩

/-- One piece of a text: a character, or the longest run of bytes that starts no character. -/
inductive Piece where
  | char (c : Char)
  | broken
  deriving Repr, DecidableEq

/-- Splits bytes into characters and broken runs. A run ends before the byte that breaks it, and
that byte is read again from between characters. -/
def pieces : Option Partial → List Nat → List Piece
  | none, [] => []
  | some _, [] => [.broken]
  | none, b :: rest =>
    match first b with
    | .char code => .char (Char.ofNat code) :: pieces none rest
    | .more p => pieces (some p) rest
    | .refused => .broken :: pieces none rest
  | some p, b :: rest =>
    if p.accepts b then
      if p.owed ≤ 1 then .char (Char.ofNat (p.push b).code) :: pieces none rest
      else pieces (some (p.push b)) rest
    else
      match first b with
      | .char code => .broken :: .char (Char.ofNat code) :: pieces none rest
      | .more q => .broken :: pieces (some q) rest
      | .refused => .broken :: .broken :: pieces none rest

def replacement : Char := Char.ofNat 0xFFFD

def Piece.toChar : Piece → Char
  | .char c => c
  | .broken => replacement

def decodeLossy (bytes : List UInt8) : List Char :=
  (pieces none (bytes.map UInt8.toNat)).map Piece.toChar

def decode? (bytes : List UInt8) : Option (List Char) :=
  (pieces none (bytes.map UInt8.toNat)).mapM fun
    | .char c => some c
    | .broken => none

def encodeChar (c : Char) : List UInt8 :=
  let n := c.toNat
  if n < 0x80 then [n.toUInt8]
  else if n < 0x800 then [(0xC0 + n / 64).toUInt8, (0x80 + n % 64).toUInt8]
  else if n < 0x10000 then
    [(0xE0 + n / 4096).toUInt8, (0x80 + n / 64 % 64).toUInt8, (0x80 + n % 64).toUInt8]
  else
    [(0xF0 + n / 262144).toUInt8, (0x80 + n / 4096 % 64).toUInt8, (0x80 + n / 64 % 64).toUInt8,
      (0x80 + n % 64).toUInt8]

def encode (s : List Char) : List UInt8 := s.flatMap encodeChar

def encodeString (s : String) : List UInt8 := encode s.toList

end Retest.Utf8
