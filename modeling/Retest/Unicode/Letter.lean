import Retest.Unicode.Property

/-! Letters and numbers as names of programs and of files know them. They follow Unicode 17, which
adds to what Unicode 16 has and takes nothing away. -/

namespace Retest.Unicode

def letter : CharSet :=
  .union alphabetic
    (readSet
      ["2191 1 972 1 127 1 39665 2 2 1 1 1 28 1 24910 26 1387 3 50 2 3172 8 584 44 20676",
        "25 2 25 286 5 6145 8 1289 22 97 115 22733 31 1 22 8 2 53306 6 5986 12 21762 4298"])

def number : CharSet := .union (categories ["nd", "nl", "no"]) (readSet ["73184 10 21002 3"])

def letterOrNumber : CharSet := .union letter number

end Retest.Unicode
