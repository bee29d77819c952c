import Retest.Unicode.CharSet

/-! Simple case folding of Unicode 16: which single characters are the same letter in another case.
-/

namespace Retest

namespace Unicode

/-- Runs of pairs, four numbers each: how far the first member of the first pair is from that of the
run before, how far apart the members of a pair are, how far apart the pairs are, and how many there
are. -/
def foldPairRuns : List String :=
  ["65 32 1 10 11 32 1 7 8 32 1 7 108 32 1 5 6 32 1 17 18 32 1 7 7 7615 1 1 32 121 1 1 1",
    "1 2 24 50 1 2 3 7 1 2 8 17 1 2 23 47 1 2 3 7 195 1 1 1 210 1 1 1 1 2 2 4 206 1 1 1 1",
    "1 1 2 205 1 2 2 1 1 1 3 79 1 1 1 202 1 1 1 203 1 1 1 1 1 1 2 205 1 1 1 207 1 1 1 97",
    "1 1 1 211 1 1 1 209 1 1 1 1 1 1 2 163 1 1 1 42561 1 1 1 211 1 1 1 213 1 1 1 130 1 1",
    "1 214 1 1 1 1 2 3 6 218 1 1 1 1 1 1 2 218 1 1 3 1 1 1 2 218 1 1 1 1 1 1 2 217 1 2 2",
    "1 2 2 4 219 1 1 1 1 1 1 4 1 1 1 3 56 1 1 14 1 2 8 17 1 2 9 22 1 1 1 4 1 2 20 42 1 2",
    "9 24 10795 1 1 1 1 1 1 3 10792 1 1 1 10815 1 2 2 1 1 1 3 69 1 1 1 71 1 1 1 1 2 5 10",
    "10783 1 1 1 10780 1 1 1 10782 1 1 10 42319 1 1 5 42315 1 1 3 42343 1 1 1 42280 1 1 1",
    "42308 1 1 4 42308 1 1 1 10743 1 1 1 42305 1 1 5 10749 1 1 12 10727 1 1 5 42307 1 1 5",
    "42282 1 1 22 42261 1 1 1 42258 1 1 210 1 2 2 6 1 1 1 5 130 1 3 4 116 1 1 7 38 1 1 2",
    "37 1 3 4 64 1 1 2 63 1 2 2 7235 1 1 1 32 2 2 3 32 2 2 3 32 1 1 4 32 2 2 3 32 1 2 6",
    "32 1 2 3 32 1 2 3 32 1 2 6 7219 1 1 31 8 1 1 9 1 2 12 26 7 1 1 5 1 1 1 3 1 1 1 6 80",
    "1 16 16 32 1 2 3 32 2 2 3 32 1 8 9 32 1 2 4 32 1 7 8 32 1 5 53 1 1 1 4 1 2 15 38 1 2",
    "27 54 15 1 1 1 1 2 7 15 1 2 48 97 48 1 38 2927 7264 1 38 39 7264 1 1 6 7264 1 1 3",
    "3008 1 43 45 3008 1 3 675 38864 1 80 80 8 1 6 2201 1 1 1 240 35332 1 1 4 3814 1 1 17",
    "35384 1 1 114 1 2 48 98 1 2 26 62 1 2 48 96 8 1 8 16 8 1 6 16 8 1 8 16 8 1 8 16 8 1",
    "6 17 8 2 4 15 8 1 8 16 74 1 2 2 86 1 4 4 100 1 2 2 128 1 2 2 112 1 2 2 126 1 2 4 8 1",
    "8 16 8 1 8 16 8 1 8 16 8 1 2 3 9 1 1 16 9 1 1 13 8 1 2 16 8 1 2 5 7 1 1 14 9 1 1 319",
    "28 1 1 46 16 1 16 35 1 1 1 819 26 1 26 1866 48 1 48 96 1 1 1 7 1 2 3 11 1 1 1 3 1 1",
    "1 11 1 2 50 107 1 2 2 7 1 1 1 31054 1 2 5 12 1 2 17 52 1 2 14 162 1 2 7 16 1 2 31 71",
    "1 2 2 5 1 2 5 13 1 1 1 5 1 2 2 4 48 1 1 2 1 2 10 29 928 1 1 1 1 2 8 19 1 2 2 5 1 1 1",
    "4 1 1 1 6 1 2 3 31 1 1 1 21264 1 1 1 1052 32 1 26 1247 40 1 40 176 40 1 36 192 39 1",
    "11 12 39 1 15 16 39 1 7 8 39 1 2 1772 64 1 51 208 32 1 22 2896 32 1 32 21920 32 1 32",
    "31424 34 1 34"]

def foldGroups : List String :=
  ["3 75 107 8490 3 83 115 383 3 181 924 956 3 197 229 8491 3 452 453 454 3 455 456 457",
    "3 458 459 460 3 497 498 499 4 837 921 953 8126 3 914 946 976 3 917 949 1013",
    "4 920 952 977 1012 3 922 954 1008 3 928 960 982 3 929 961 1009 3 931 962 963",
    "3 934 966 981 3 937 969 8486 3 1042 1074 7296 3 1044 1076 7297 3 1054 1086 7298",
    "3 1057 1089 7299 4 1058 1090 7300 7301 3 1066 1098 7302 3 1122 1123 7303",
    "3 7304 42570 42571 3 7776 7777 7835"]

def pairRun (start apart stride : Nat) : Nat → List (List Nat)
  | 0 => []
  | count + 1 => [start, start + apart] :: pairRun (start + stride) apart stride count

def readPairRuns : Nat → List Nat → List (List Nat)
  | start, gap :: apart :: stride :: count :: rest =>
    pairRun (start + gap) apart stride count ++ readPairRuns (start + gap) rest
  | _, _ => []

/-- Reads groups that follow each other, each behind its size; the fuel is the number of numbers. -/
def readGroups : Nat → List Nat → List (List Nat)
  | 0, _ => []
  | _, [] => []
  | fuel + 1, size :: rest => rest.take size :: readGroups fuel (rest.drop size)

def caseGroups : List (List Nat) :=
  let groups := readNumbers foldGroups
  readPairRuns 0 (readNumbers foldPairRuns) ++ readGroups groups.length groups

end Unicode

namespace CharSet

def foldCase (s : CharSet) : CharSet :=
  let touched := Unicode.caseGroups.filter fun g => g.any s.hasCode
  .union s (.ofRanges (touched.flatMap fun g => g.map fun n => (n, n)))

def foldAsciiCase (s : CharSet) : CharSet :=
  let letters := (List.range 26).filter fun i => s.hasCode (65 + i) || s.hasCode (97 + i)
  .union s (.ofRanges (letters.flatMap fun i => [(65 + i, 65 + i), (97 + i, 97 + i)]))

end CharSet

end Retest
