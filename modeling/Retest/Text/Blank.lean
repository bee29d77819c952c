namespace Retest

/-- The 25 characters with the property `White_Space`. -/
def isBlank (c : Char) : Bool :=
  let n := c.toNat
  (9 ≤ n && n ≤ 13) || n == 0x20 || n == 0x85 || n == 0xA0 || n == 0x1680 ||
    (0x2000 ≤ n && n ≤ 0x200A) || n == 0x2028 || n == 0x2029 || n == 0x202F || n == 0x205F ||
    n == 0x3000

def trimWith (p : Char → Bool) (s : List Char) : List Char :=
  (((s.dropWhile p).reverse).dropWhile p).reverse

def trimBlank (s : List Char) : List Char := trimWith isBlank s

def isBlankText (s : String) : Bool := s.toList.all isBlank

end Retest
