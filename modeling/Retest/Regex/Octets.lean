/-! Ranges of characters as sequences of ranges of bytes: in each sequence, every byte can be chosen
independently of the others. -/

namespace Retest.Regex

structure ByteRange where
  low : Nat
  high : Nat
  deriving Repr, DecidableEq

def bytesOfCode (n : Nat) : List Nat :=
  if n < 0x80 then [n]
  else if n < 0x800 then [0xC0 + n / 64, 0x80 + n % 64]
  else if n < 0x10000 then [0xE0 + n / 4096, 0x80 + n / 64 % 64, 0x80 + n % 64]
  else [0xF0 + n / 262144, 0x80 + n / 4096 % 64, 0x80 + n / 64 % 64, 0x80 + n % 64]

def lengthBounds : List Nat := [0x80, 0x800, 0x10000]

/-- Where a range has to be cut so that the bits which its last bytes hold are free on either side:
once behind `low` is filled up, or before the incomplete rest at `high`. -/
def cutForBits (low high : Nat) : List Nat → Option Nat
  | [] => none
  | unit :: units =>
    if low / unit ≠ high / unit then
      if low % unit ≠ 0 then some ((low / unit + 1) * unit)
      else if high % unit ≠ unit - 1 then some (high / unit * unit)
      else cutForBits low high units
    else cutForBits low high units

def cutOf (low high : Nat) : Option Nat :=
  match lengthBounds.find? fun b => low < b && b ≤ high with
  | some b => some b
  | none => if high < 0x80 then none else cutForBits low high [64, 4096, 262144]

/-- The sequences of a range without surrogates, in increasing order. The fuel bounds how often a
range is cut. -/
def octetsOfRange : Nat → Nat → Nat → List (List ByteRange)
  | 0, _, _ => []
  | fuel + 1, low, high =>
    match cutOf low high with
    | some cut => octetsOfRange fuel low (cut - 1) ++ octetsOfRange fuel cut high
    | none => [List.zipWith ByteRange.mk (bytesOfCode low) (bytesOfCode high)]

def maxCuts : Nat := 32

def octetsOf (ranges : List (Nat × Nat)) : List (List ByteRange) :=
  ranges.flatMap fun r => octetsOfRange maxCuts r.1 r.2

end Retest.Regex
