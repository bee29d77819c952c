import Retest.Unicode.CharSet

namespace Retest.Unicode

/-- The characters of each category, by its short and long names. Unassigned characters are in none
of them. -/
def categoryTable : List NamedSet :=
  [⟨["cc", "control", "cntrl"],
    ["0 32 95 33"]⟩,
    ⟨["cf", "format"],
    ["173 1 1362 6 22 1 192 1 49 1 384 2 80 1 3883 1 2044 5 26 5 49 5 1 10 56975 1 249 3",
      "4289 1 15 1 9058 16 34912 4 5327 8 798342 1 30 96"]⟩,
    ⟨["co", "privateuse"],
    ["57344 6400 919296 65534 2 65534"]⟩,
    ⟨["ll", "lowercaseletter"],
    ["97 26 58 1 41 24 1 8 1 1 1 1 1 1 1 1 1 1 1 1 1 1 1 1 1 1 1 1 1 1 1 1 1 1 1 1 1 1 1",
      "1 1 1 1 1 1 1 1 1 1 1 1 1 1 1 1 1 1 1 1 1 1 1 1 2 1 1 1 1 1 1 1 1 1 1 1 1 1 1 1 2",
      "1 1 1 1 1 1 1 1 1 1 1 1 1 1 1 1 1 1 1 1 1 1 1 1 1 1 1 1 1 1 1 1 1 1 1 1 1 1 1 1 1",
      "1 1 1 1 1 2 1 1 1 1 3 2 1 1 1 2 1 3 2 4 1 2 1 3 3 2 1 2 1 1 1 1 1 2 1 1 2 1 1 2 1",
      "3 1 1 1 2 2 2 3 6 1 2 1 2 1 1 1 1 1 1 1 1 1 1 1 1 1 1 1 1 2 1 1 1 1 1 1 1 1 1 1 1",
      "1 1 1 1 1 1 2 2 1 1 1 3 1 1 1 1 1 1 1 1 1 1 1 1 1 1 1 1 1 1 1 1 1 1 1 1 1 1 1 1 1",
      "1 1 1 1 1 1 1 1 1 1 1 1 1 1 1 1 1 1 1 1 1 1 1 1 1 1 1 1 1 7 2 1 2 2 1 1 4 1 1 1 1",
      "1 1 1 1 69 1 27 193 1 1 1 3 1 3 3 18 1 27 35 1 2 3 3 1 1 1 1 1 1 1 1 1 1 1 1 1 1 1",
      "1 1 1 1 1 1 1 1 5 1 1 2 1 2 2 51 48 1 1 1 1 1 1 1 1 1 1 1 1 1 1 1 1 1 1 1 1 1 1 1",
      "1 1 1 1 1 1 1 1 1 1 1 9 1 1 1 1 1 1 1 1 1 1 1 1 1 1 1 1 1 1 1 1 1 1 1 1 1 1 1 1 1",
      "1 1 1 1 1 1 1 1 1 1 1 1 1 1 1 1 1 1 1 1 1 1 1 1 2 1 1 1 1 1 1 1 1 1 1 1 1 2 1 1 1",
      "1 1 1 1 1 1 1 1 1 1 1 1 1 1 1 1 1 1 1 1 1 1 1 1 1 1 1 1 1 1 1 1 1 1 1 1 1 1 1 1 1",
      "1 1 1 1 1 1 1 1 1 1 1 1 1 1 1 1 1 1 1 1 1 1 1 1 1 1 1 1 1 1 1 1 1 1 1 1 1 1 1 1 1",
      "1 1 1 1 1 1 1 1 1 1 1 48 41 2887 43 2 3 760 6 2178 9 1 1 117 44 63 13 1 34 102 1 1",
      "1 1 1 1 1 1 1 1 1 1 1 1 1 1 1 1 1 1 1 1 1 1 1 1 1 1 1 1 1 1 1 1 1 1 1 1 1 1 1 1 1",
      "1 1 1 1 1 1 1 1 1 1 1 1 1 1 1 1 1 1 1 1 1 1 1 1 1 1 1 1 1 1 1 1 1 1 1 1 1 1 1 1 1",
      "1 1 1 1 1 1 1 1 1 1 1 1 1 1 1 1 1 1 1 1 1 1 1 1 1 1 1 1 1 1 1 1 1 1 1 1 1 1 1 1 1",
      "1 1 1 1 1 1 1 1 1 1 1 1 1 1 1 1 1 1 1 1 1 1 1 9 1 1 1 1 1 1 1 1 1 1 1 1 1 1 1 1 1",
      "1 1 1 1 1 1 1 1 1 1 1 1 1 1 1 1 1 1 1 1 1 1 1 1 1 1 1 1 1 1 1 1 1 1 1 1 1 1 1 1 1",
      "1 1 1 1 1 1 1 1 1 1 1 1 1 1 1 1 1 1 1 1 1 1 1 1 1 1 1 1 1 1 1 1 1 1 1 1 1 1 1 9 8",
      "6 10 8 8 8 8 6 10 8 8 8 8 14 2 8 8 8 8 8 8 5 1 2 6 1 3 3 1 2 8 4 2 2 8 8 10 3 1 2",
      "274 1 3 2 3 1 27 1 4 1 4 1 2 2 8 4 4 1 53 1 2731 48 1 1 3 2 1 1 1 1 1 1 4 1 1 2 1",
      "6 5 1 1 1 1 1 1 1 1 1 1 1 1 1 1 1 1 1 1 1 1 1 1 1 1 1 1 1 1 1 1 1 1 1 1 1 1 1 1 1",
      "1 1 1 1 1 1 1 1 1 1 1 1 1 1 1 1 1 1 1 1 1 1 1 1 1 1 1 1 1 1 1 1 1 1 1 1 1 1 1 1 1",
      "1 1 1 1 1 1 1 1 1 1 1 1 1 1 1 1 1 1 2 7 1 1 1 4 1 12 38 1 1 5 1 30995 1 1 1 1 1 1",
      "1 1 1 1 1 1 1 1 1 1 1 1 1 1 1 1 1 1 1 1 1 1 1 1 1 1 1 1 1 1 1 1 1 1 1 1 1 1 1 19 1",
      "1 1 1 1 1 1 1 1 1 1 1 1 1 1 1 1 1 1 1 1 1 1 1 1 1 1 135 1 1 1 1 1 1 1 1 1 1 1 1 3",
      "1 1 1 1 1 1 1 1 1 1 1 1 1 1 1 1 1 1 1 1 1 1 1 1 1 1 1 1 1 1 1 1 1 1 1 1 1 1 1 1 1",
      "1 1 1 1 1 1 1 1 1 1 1 1 1 1 1 1 1 1 1 1 1 1 8 1 1 1 1 2 1 1 1 1 1 1 1 1 1 4 1 1 1",
      "2 1 1 3 1 1 1 1 1 1 1 1 1 1 1 1 1 1 1 1 1 1 1 1 5 1 5 1 1 1 1 1 1 1 1 1 1 1 1 1 1",
      "1 4 1 1 1 2 1 3 1 1 1 1 1 1 1 1 1 1 1 26 1 3 1 821 43 5 9 7 80 20288 7 12 5 1065",
      "26 1229 40 136 36 155 11 1 15 1 7 1 2 1795 51 125 22 2874 32 21888 32 26010 26 26",
      "7 1 18 26 26 26 4 1 1 1 7 1 11 26 26 26 26 26 26 26 26 26 26 26 26 26 26 26 26 26",
      "28 28 25 1 6 26 25 1 6 26 25 1 6 26 25 1 6 26 25 1 6 1 1 1844 10 1 20 6 6 2551 34"]⟩,
    ⟨["lm", "modifierletter"],
    ["688 18 4 12 14 5 7 1 1 1 133 1 5 1 478 1 230 1 164 2 269 2 4 1 31 1 9 1 3 1 160 1",
      "167 1 1236 1 127 1 565 1 1754 1 107 1 611 1 464 6 174 63 13 1 34 37 689 1 13 1 16",
      "13 3039 2 241 1 191 1 469 1 43 5 5 1 97 2 93 3 28438 1 1250 6 270 1 114 1 28 2 121",
      "9 80 1 23 1 105 3 3 2 469 1 22 1 137 1 108 1 21 2 103 4 9 1 21510 1 45 2 2016 6 1",
      "42 1 9 1427 1 32 1 24016 4 508 3 40 2 550 13 64 2 1 1 16396 4 1 7 1 2 12337 62 201",
      "7 941 1 1119 1"]⟩,
    ⟨["lo", "otherletter"],
    ["170 1 15 1 256 1 4 4 208 1 827 27 4 4 45 32 1 10 35 2 1 99 1 1 24 2 10 3 2 1 16 1",
      "1 30 29 89 11 1 24 33 21 22 42 25 7 11 5 24 1 6 17 41 59 54 3 1 18 1 7 10 16 15 4",
      "8 2 2 2 22 1 7 1 1 3 4 3 1 16 1 13 2 1 3 14 2 10 1 8 6 4 2 2 22 1 7 1 2 1 2 1 2 31",
      "4 1 1 19 3 16 9 1 3 1 22 1 7 1 2 1 5 3 1 18 1 15 2 23 1 11 8 2 2 2 22 1 7 1 2 1 5",
      "3 1 30 2 1 3 15 1 17 1 1 6 3 3 1 4 3 2 1 1 1 2 3 2 3 3 3 12 22 1 52 8 1 3 1 23 1",
      "16 3 1 26 3 2 1 2 2 30 1 4 8 1 3 1 23 1 10 1 5 3 1 31 2 1 2 15 2 17 9 1 3 1 41 2 1",
      "16 1 5 3 8 3 24 6 5 18 3 24 1 9 1 1 2 7 58 48 1 2 12 6 59 2 1 1 1 5 1 24 1 1 1 10",
      "1 2 9 1 2 5 23 4 32 1 63 8 1 36 27 5 115 43 20 1 16 6 4 4 3 1 3 2 7 3 4 13 12 1",
      "113 329 1 4 2 7 1 1 1 4 2 41 1 4 2 33 1 4 2 7 1 1 1 4 2 15 1 57 1 4 2 67 37 16 113",
      "620 2 17 1 26 5 75 6 8 7 18 13 19 14 18 14 13 1 3 15 52 40 1 67 35 1 53 7 5 2 34 1",
      "1 5 70 10 31 49 30 2 5 11 44 4 26 54 23 9 53 176 47 17 8 54 30 13 2 10 44 26 36 41",
      "3 10 30 113 4 1 6 1 2 3 1 1082 4 3063 56 24 23 9 7 1 7 1 7 1 7 1 7 1 7 1 7 1 7 551",
      "1 53 1 4 86 8 1 1 90 4 1 5 43 1 94 17 32 48 16 512 6592 64 21013 1 1143 67 40 8",
      "268 4 16 10 2 66 1 49 70 169 1 103 1 3 7 1 3 1 4 1 23 29 52 14 50 62 6 3 1 1 2 11",
      "28 10 23 25 29 7 47 45 5 2 9 10 5 1 41 23 3 1 8 20 16 1 6 3 1 3 50 1 1 3 2 2 5 2 1",
      "1 1 24 2 3 11 7 1 14 6 2 6 2 6 9 7 1 7 145 35 29 11172 12 23 4 49 8452 366 2 106",
      "67 1 1 10 1 13 1 5 1 1 1 2 1 2 1 108 33 363 18 64 2 54 40 12 116 5 1 135 105 10 1",
      "45 2 31 3 6 2 6 2 6 2 3 35 12 1 26 1 19 1 2 1 15 2 14 34 123 389 29 3 49 47 32 13",
      "20 1 8 6 38 10 30 2 36 4 8 128 78 98 40 8 52 92 52 12 311 9 22 10 8 152 6 2 1 1 44",
      "1 2 3 1 2 23 10 23 9 31 65 19 1 2 10 22 10 26 70 56 6 2 64 1 15 4 1 3 1 29 42 29 3",
      "29 35 8 1 28 27 54 10 22 10 19 13 18 110 73 183 36 38 4 1 1 304 42 6 2 16 3 59 29",
      "10 1 8 22 42 18 46 21 27 23 12 53 57 2 2 1 13 45 32 25 26 36 29 1 2 1 8 35 3 1 12",
      "48 14 4 21 1 1 1 35 18 1 25 19 2 63 7 1 1 1 4 1 15 1 10 7 47 38 8 2 2 2 22 1 7 1 2",
      "1 5 3 1 18 1 12 5 30 10 1 1 2 1 1 38 1 1 25 1 1 1 44 53 18 4 20 3 30 48 20 2 1 1",
      "184 47 41 4 36 48 20 1 59 43 13 1 71 27 37 7 185 44 211 8 2 1 2 8 1 2 1 24 15 1 1",
      "1 94 8 2 39 16 1 1 1 28 1 10 40 7 1 21 1 11 46 19 1 18 73 199 33 31 9 1 37 17 1 49",
      "30 112 7 1 2 1 38 21 1 25 6 1 2 1 32 14 1 327 19 15 1 1 13 1 34 124 1 79 922 230",
      "196 2636 97 15 1072 17 6 25 3995 5 583 6841 30 1762 569 7 31 17 79 17 30 18 48 51",
      "21 5 19 435 40 405 75 5 1 175 6136 8 1238 41 10 8951 291 15 1 29 3 2 1 14 4 8 396",
      "2308 107 5 13 3 9 7 10 8816 1 501 45 33 1 321 30 18 44 484 27 229 30 2 1 495 7 1 4",
      "1 2 1 15 1 197 1339 4 1 27 1 2 1 1 2 1 1 10 1 4 1 1 1 1 6 1 4 1 1 1 1 1 1 3 1 2 1",
      "1 2 1 1 1 1 1 1 1 1 1 1 2 1 1 2 4 1 7 1 4 1 4 1 1 1 10 1 17 5 3 1 5 1 17 4420",
      "42720 32 4154 6 222 2 5762 14 7473 15 622 2466 542 1506 4939 5 4192"]⟩,
    ⟨["lt", "titlecaseletter"],
    ["453 1 2 1 2 1 38 1 7573 8 8 8 8 8 12 1 15 1 47 1"]⟩,
    ⟨["lu", "uppercaseletter"],
    ["65 26 101 23 1 7 33 1 1 1 1 1 1 1 1 1 1 1 1 1 1 1 1 1 1 1 1 1 1 1 1 1 1 1 1 1 1 1",
      "1 1 1 1 1 1 1 1 1 1 1 1 1 1 1 1 1 1 1 1 1 1 1 1 2 1 1 1 1 1 1 1 1 1 1 1 1 1 1 1 2",
      "1 1 1 1 1 1 1 1 1 1 1 1 1 1 1 1 1 1 1 1 1 1 1 1 1 1 1 1 1 1 1 1 1 1 1 1 1 1 1 1 1",
      "1 1 1 1 1 2 1 1 1 1 3 2 1 1 1 2 1 3 2 4 1 2 1 3 3 2 1 2 1 1 1 1 1 2 1 1 2 1 1 2 1",
      "3 1 1 1 2 3 1 7 1 2 1 2 1 2 1 1 1 1 1 1 1 1 1 1 1 1 1 1 1 2 1 1 1 1 1 1 1 1 1 1 1",
      "1 1 1 1 1 1 2 1 2 1 1 3 1 1 1 1 1 1 1 1 1 1 1 1 1 1 1 1 1 1 1 1 1 1 1 1 1 1 1 1 1",
      "1 1 1 1 1 1 1 1 1 1 1 1 1 1 1 1 1 1 1 1 1 1 1 1 1 1 1 1 1 7 2 1 2 2 1 1 4 1 1 1 1",
      "1 1 1 1 289 1 1 1 3 1 8 1 6 1 1 3 1 1 1 2 1 17 1 9 35 1 2 3 3 1 1 1 1 1 1 1 1 1 1",
      "1 1 1 1 1 1 1 1 1 1 1 1 1 5 1 2 1 1 2 2 51 48 1 1 1 1 1 1 1 1 1 1 1 1 1 1 1 1 1 1",
      "1 1 1 1 1 1 1 1 1 1 1 1 1 1 1 9 1 1 1 1 1 1 1 1 1 1 1 1 1 1 1 1 1 1 1 1 1 1 1 1 1",
      "1 1 1 1 1 1 1 1 1 1 1 1 1 1 1 1 1 1 1 1 1 1 1 1 1 1 1 1 1 2 1 1 1 1 1 1 1 1 1 1 1",
      "1 2 1 1 1 1 1 1 1 1 1 1 1 1 1 1 1 1 1 1 1 1 1 1 1 1 1 1 1 1 1 1 1 1 1 1 1 1 1 1 1",
      "1 1 1 1 1 1 1 1 1 1 1 1 1 1 1 1 1 1 1 1 1 1 1 1 1 1 1 1 1 1 1 1 1 1 1 1 1 1 1 1 1",
      "1 1 1 1 1 1 1 1 1 1 1 1 1 1 1 2 38 2889 38 1 1 5 1 722 86 2195 1 6 43 2 3 320 1 1",
      "1 1 1 1 1 1 1 1 1 1 1 1 1 1 1 1 1 1 1 1 1 1 1 1 1 1 1 1 1 1 1 1 1 1 1 1 1 1 1 1 1",
      "1 1 1 1 1 1 1 1 1 1 1 1 1 1 1 1 1 1 1 1 1 1 1 1 1 1 1 1 1 1 1 1 1 1 1 1 1 1 1 1 1",
      "1 1 1 1 1 1 1 1 1 1 1 1 1 1 1 1 1 1 1 1 1 1 1 1 1 1 1 1 1 1 1 1 1 1 1 1 1 1 1 1 1",
      "1 1 1 1 1 1 1 1 1 1 1 1 1 1 1 1 1 1 1 1 1 1 1 1 9 1 1 1 1 1 1 1 1 1 1 1 1 1 1 1 1",
      "1 1 1 1 1 1 1 1 1 1 1 1 1 1 1 1 1 1 1 1 1 1 1 1 1 1 1 1 1 1 1 1 1 1 1 1 1 1 1 1 1",
      "1 1 1 1 1 1 1 1 1 1 1 1 1 1 1 1 1 1 1 1 1 1 1 1 1 1 1 1 1 1 1 1 1 1 1 1 1 1 1 1 9",
      "8 8 6 10 8 8 8 8 6 11 1 1 1 1 1 1 1 8 8 72 4 12 4 12 4 12 5 11 4 262 1 4 1 3 3 2 3",
      "2 1 3 5 6 1 1 1 1 1 1 4 2 4 10 2 5 1 61 1 2684 48 48 1 1 3 2 1 1 1 1 1 1 4 1 1 2 1",
      "8 3 1 1 1 1 1 1 1 1 1 1 1 1 1 1 1 1 1 1 1 1 1 1 1 1 1 1 1 1 1 1 1 1 1 1 1 1 1 1 1",
      "1 1 1 1 1 1 1 1 1 1 1 1 1 1 1 1 1 1 1 1 1 1 1 1 1 1 1 1 1 1 1 1 1 1 1 1 1 1 1 1 1",
      "1 1 1 1 1 1 1 1 1 1 1 1 1 1 1 1 1 1 8 1 1 1 4 1 31053 1 1 1 1 1 1 1 1 1 1 1 1 1 1",
      "1 1 1 1 1 1 1 1 1 1 1 1 1 1 1 1 1 1 1 1 1 1 1 1 1 1 1 1 1 1 1 19 1 1 1 1 1 1 1 1 1",
      "1 1 1 1 1 1 1 1 1 1 1 1 1 1 1 1 1 1 135 1 1 1 1 1 1 1 1 1 1 1 1 1 3 1 1 1 1 1 1 1",
      "1 1 1 1 1 1 1 1 1 1 1 1 1 1 1 1 1 1 1 1 1 1 1 1 1 1 1 1 1 1 1 1 1 1 1 1 1 1 1 1 1",
      "1 1 1 1 1 1 1 1 1 1 1 1 1 10 1 1 1 1 2 1 1 1 1 1 1 1 1 4 1 1 1 2 1 1 1 3 1 1 1 1 1",
      "1 1 1 1 1 1 1 1 1 1 1 1 1 1 1 5 1 5 1 1 1 1 1 1 1 1 1 1 1 1 1 1 1 4 1 1 1 2 3 1 5",
      "1 1 1 1 1 1 1 24 1 22315 26 1221 40 136 36 156 11 1 15 1 7 1 2 1770 51 157 22 2874",
      "32 21888 32 26016 26 26 26 26 26 26 1 1 2 2 1 2 2 2 4 1 8 26 26 26 2 1 4 2 8 1 7",
      "27 2 1 4 1 5 1 1 3 7 27 26 26 26 26 26 26 26 26 26 26 26 30 25 33 25 33 25 33 25",
      "33 25 33 1 4405 34"]⟩,
    ⟨["mc", "spacingmark"],
    ["2307 1 55 1 2 3 8 4 1 2 50 2 58 3 6 2 2 2 10 1 43 1 58 3 66 1 58 3 8 1 1 2 53 2 58",
      "1 1 1 6 2 2 2 10 1 102 2 1 2 3 3 1 3 10 1 41 3 61 4 61 2 58 1 1 5 2 2 1 2 9 2 28 1",
      "14 2 58 3 5 3 1 3 10 1 42 2 75 3 6 8 18 2 330 2 63 1 171 2 4 1 6 1 2 2 25 2 10 3 2",
      "7 21 2 2 6 2 1 10 3 1656 1 30 1 129 1 7 8 1 2 346 4 2 3 4 2 1 6 224 2 58 1 1 1 9 1",
      "1 2 8 6 145 1 48 1 5 1 1 5 1 2 61 1 30 1 4 2 2 1 60 1 2 3 1 1 3 2 48 8 8 2 171 1",
      "21 1 4918 2 30707 2 2 1 88 2 50 16 142 2 47 1 48 2 4 2 2 3 110 2 2 2 24 1 45 1 1 1",
      "109 1 2 2 5 1 237 2 1 2 1 2 1 1 25619 1 1 1 127 1 45 3 4 2 115 1 24 2 59 1 48 3 9",
      "2 13 1 93 3 3 2 1 1 170 3 31 2 58 2 1 4 2 2 2 3 9 1 10 2 84 3 7 1 2 1 1 4 1 2 1 1",
      "101 3 8 2 3 1 106 3 6 1 1 4 2 1 237 3 6 4 2 1 113 3 8 2 1 1 109 1 1 2 6 1 103 1 1",
      "2 4 1 261 3 9 1 247 6 1 2 4 1 2 1 1 1 142 3 8 4 4 1 84 1 29 2 62 1 407 1 14 1 106",
      "1 7 1 2 1 213 5 4 2 1 1 350 2 12 1 48 2 8 2 1 1 16872 3 3620 55 104 2 24947 2 6 6"]⟩,
    ⟨["me", "enclosingmark"],
    ["1160 2 5684 1 1566 4 1 3 34187 3"]⟩,
    ⟨["mn", "nonspacingmark"],
    ["768 112 275 5 265 45 1 1 1 2 1 2 1 1 72 11 48 21 16 1 101 7 2 6 2 2 1 4 35 1 30 27",
      "91 11 58 9 9 1 24 4 1 9 1 3 1 5 43 3 59 9 42 24 1 32 55 1 1 1 4 8 4 1 3 7 10 2 29",
      "1 58 1 4 4 8 1 20 2 26 1 2 2 57 1 4 2 4 2 2 3 3 1 30 2 3 1 11 2 57 1 4 5 1 2 4 1",
      "20 2 22 6 1 1 58 1 2 1 1 4 8 1 7 2 11 2 30 1 61 1 12 1 50 1 3 1 55 1 1 3 5 3 1 4 7",
      "2 11 2 29 1 58 1 2 1 6 1 5 2 20 2 28 2 57 2 4 4 8 1 20 2 29 1 72 1 7 3 1 1 90 1 2",
      "7 12 8 98 1 2 9 11 7 73 2 27 1 1 1 1 1 55 14 1 5 1 2 5 11 1 36 9 1 102 4 1 6 1 2 2",
      "2 25 2 4 3 16 4 13 1 2 2 6 1 15 1 703 3 946 3 29 2 30 2 30 2 64 2 1 7 8 1 2 11 9 1",
      "45 3 1 1 117 2 34 1 118 3 4 2 9 1 6 3 219 2 2 1 58 1 1 7 1 1 1 1 2 8 6 10 2 1 48",
      "14 1 16 49 4 48 1 1 5 1 1 5 1 40 9 12 2 32 4 2 2 1 3 56 1 1 2 3 1 1 3 58 8 2 2 152",
      "3 1 13 1 7 4 1 6 1 3 2 198 64 720 13 4 1 3 12 3070 3 141 1 96 32 554 4 107 2 30164",
      "1 4 10 32 2 80 2 272 1 3 1 4 1 25 2 5 1 151 2 26 18 13 1 38 8 25 11 46 3 48 1 2 4",
      "2 2 39 1 67 6 2 2 2 2 12 1 8 1 47 1 51 1 1 3 2 2 5 2 1 1 42 2 8 1 238 1 2 1 4 1",
      "20272 1 737 16 16 16 973 1 226 1 149 5 1670 3 1 2 5 4 40 3 4 1 165 2 573 4 65 5",
      "317 2 79 4 70 11 49 4 123 1 54 15 41 1 2 2 10 3 49 4 2 2 7 1 61 3 36 5 1 8 62 1 12",
      "2 52 9 10 4 2 1 95 3 2 1 1 2 6 1 2 1 157 1 3 8 21 2 57 2 3 1 37 7 3 5 70 6 13 1 1",
      "1 1 1 14 2 85 8 2 3 1 1 23 1 84 6 1 1 4 2 1 2 238 4 6 2 1 2 27 2 85 8 2 1 1 2 106",
      "1 1 1 2 6 1 1 101 1 1 1 2 4 1 5 259 9 1 2 256 2 1 1 4 1 144 4 2 2 4 1 32 10 40 6 2",
      "4 8 1 9 6 2 3 46 13 1 2 406 7 1 6 1 1 82 22 2 7 1 2 1 2 122 6 3 1 1 2 1 7 1 1 72 2",
      "3 1 1 1 347 2 11 2 52 5 5 1 1 1 23 1 5349 1 6 15 11464 12 3 3 2496 5 59 7 1048 1",
      "63 4 81 1 19640 2 4705 46 2 23 544 3 17 8 2 7 30 4 148 3 1979 55 4 50 8 1 14 1 22",
      "5 1 15 1360 7 1 17 2 7 1 2 1 5 100 1 160 7 375 1 61 4 508 4 254 2 736 7 109 7",
      "792501 240"]⟩,
    ⟨["nd", "decimalnumber", "digit"],
    ["48 10 1574 10 134 10 198 10 412 10 118 10 118 10 118 10 118 10 118 10 118 10 118",
      "10 118 10 118 10 96 10 118 10 70 10 278 10 70 10 1862 10 38 10 300 10 128 10 166",
      "10 6 10 182 10 86 10 134 10 6 10 35270 10 678 10 38 10 198 10 22 10 86 10 406 10",
      "21270 10 1414 10 2182 10 6 10 796 10 128 10 60 10 144 10 278 10 342 10 118 10 374",
      "10 102 10 6 20 76 10 422 10 102 10 662 10 86 10 246 10 70 10 422 10 16854 10 2342",
      "10 86 10 134 10 534 10 24438 10 2772 50 2368 10 422 10 502 10 247 10 853 10 4758",
      "10"]⟩,
    ⟨["nl", "letternumber"],
    ["5870 3 2671 35 2 4 3710 1 25 9 14 3 30379 10 23120 53 460 1 8 1 134 5 8234 111"]⟩,
    ⟨["no", "othernumber"],
    ["178 2 5 1 2 3 2357 6 376 6 120 3 133 7 217 7 17 9 433 10 1077 20 1139 10 480 1",
      "1685 1 3 6 6 10 198 16 41 1 726 60 78 22 630 30 1385 1 1172 4 138 10 30 8 1 15 32",
      "10 39 15 30064 6 22737 45 65 4 17 2 341 27 36 4 1332 8 25 7 39 9 75 5 22 6 160 2 2",
      "16 2 46 64 9 52 2 30 3 75 5 104 8 24 8 41 7 330 6 352 31 158 10 42 4 112 7 134 20",
      "379 20 1349 2 430 9 871 19 851 21 19334 7 798 23 25641 20 12 20 108 25 5454 9 929",
      "59 1 3 1 4 76 45 1 15 962 13"]⟩,
    ⟨["pc", "connectorpunctuation"],
    ["95 1 8159 2 19 1 56798 2 24 3 239 1"]⟩,
    ⟨["pd", "dashpunctuation"],
    ["45 1 1372 1 51 1 3649 1 1029 1 2057 6 3585 1 2 1 31 2 4 1 28 1 446 1 19 1 111 1",
      "52624 2 37 1 10 1 169 1 3680 1 318 1"]⟩,
    ⟨["pe", "closepunctuation"],
    ["41 1 51 1 31 1 3773 1 1 1 1886 1 2473 1 55 1 15 1 634 1 1 1 30 1 1086 1 1 1 1 1 1",
      "1 1 1 1 1 1 1 80 1 32 1 1 1 1 1 1 1 1 1 404 1 1 1 1 1 1 1 1 1 1 1 1 1 1 1 1 1 1 1",
      "1 1 64 1 1 1 33 1 1061 1 1 1 1 1 1 1 44 1 1 1 1 1 1 1 428 1 1 1 1 1 1 1 1 1 3 1 1",
      "1 1 1 1 1 2 2 52510 1 217 1 29 1 1 1 1 1 1 1 1 1 1 1 1 1 1 1 3 1 17 1 1 1 1 1 170",
      "1 51 1 31 1 2 1 2 1"]⟩,
    ⟨["pf", "finalpunctuation"],
    ["187 1 8029 1 3 1 28 1 3528 1 1 1 4 1 2 1 15 1 3 1"]⟩,
    ⟨["pi", "initialpunctuation"],
    ["171 1 8044 1 2 2 2 1 25 1 3528 1 1 1 4 1 2 1 15 1 3 1"]⟩,
    ⟨["po", "otherpunctuation"],
    ["33 3 1 3 2 1 1 1 1 2 10 2 3 2 27 1 68 1 5 1 14 2 7 1 702 1 8 1 466 6 41 1 54 1 2 1",
      "2 1 44 2 20 2 1 2 13 1 1 3 74 4 102 1 43 14 233 3 54 15 31 1 261 2 10 1 140 1 120",
      "1 121 1 390 1 12 1 367 1 90 1 10 2 168 15 1 1 112 1 74 5 4 2 111 6 171 1 612 9 773",
      "1 124 3 71 2 157 3 1 3 37 6 1 4 313 2 216 2 128 7 1 6 160 2 10 7 28 3 124 4 59 5",
      "62 2 64 8 11 1 834 2 8 8 8 9 2 4 2 3 3 11 1 1 1 10 3226 4 1 2 112 1 143 2 4 3 2 1",
      "2 9 1 2 1 1 2 2 10 5 1 10 2 4 1 1 1 13 2 3 428 3 57 1 189 1 29698 2 269 3 99 1 10",
      "1 115 6 380 4 86 2 40 3 1 1 49 2 47 1 97 13 16 2 124 4 126 2 16 2 249 1 21028 7 2",
      "1 22 1 20 2 2 4 3 3 1 4 7 3 6 1 1 2 149 3 1 3 2 1 1 1 1 2 10 2 3 2 27 1 36 1 2 2",
      "410 3 668 1 48 1 414 1 743 1 199 1 31 1 272 9 38 1 112 7 66 7 89 4 952 5 44 4 189",
      "7 109 2 1 4 126 4 48 2 79 4 4 1 13 1 1 3 88 6 107 1 298 2 1 2 114 5 10 2 1 1 104 1",
      "250 23 105 3 28 13 76 1 130 3 252 1 264 3 155 1 92 8 83 3 1 5 93 10 215 1 95 5 42",
      "2 645 2 74 13 175 1 1136 5 2940 2 14971 2 133 1 65 5 8 1 552 3 295 4 327 1 19644 1",
      "7655 5 2931 1 862 2"]⟩,
    ⟨["ps", "openpunctuation"],
    ["40 1 50 1 31 1 3774 1 1 1 1886 1 2430 1 3 1 38 1 55 1 15 1 634 1 1 1 30 1 1086 1 1",
      "1 1 1 1 1 1 1 1 1 1 1 80 1 32 1 1 1 1 1 1 1 1 1 404 1 1 1 1 1 1 1 1 1 1 1 1 1 1 1",
      "1 1 1 1 1 1 64 1 1 1 33 1 1061 1 1 1 1 1 1 1 25 1 18 1 1 1 1 1 1 1 428 1 1 1 1 1 1",
      "1 1 1 3 1 1 1 1 1 1 1 2 1 52513 1 215 1 29 1 1 1 1 1 1 1 1 1 1 1 1 1 1 1 3 1 17 1",
      "1 1 1 1 170 1 50 1 31 1 3 1 2 1"]⟩,
    ⟨["sc", "currencysymbol"],
    ["36 1 125 4 1257 1 123 1 498 2 498 2 7 1 245 1 263 1 581 1 2459 1 2244 33 34679 1",
      "21955 1 108 1 154 1 219 2 3 2 8182 4 49950 1 2480 1"]⟩,
    ⟨["sk", "modifiersymbol"],
    ["94 1 1 1 71 1 6 1 4 1 3 1 521 4 12 14 5 7 1 1 1 17 117 1 14 2 1282 1 5940 1 1 3 11",
      "3 13 3 13 3 13 2 4252 2 30307 23 9 2 103 2 976 1 14 2 20550 17 891 1 1 1 162 1",
      "62487 5"]⟩,
    ⟨["sm", "mathsymbol"],
    ["43 1 16 3 61 1 1 1 45 1 4 1 37 1 31 1 766 1 527 3 6715 1 13 1 39 3 13 3 139 1 39 5",
      "6 1 68 5 5 2 4 1 2 1 2 1 7 1 31 2 2 1 1 1 31 268 32 2 90 1 30 25 40 6 469 1 9 1 54",
      "8 111 1 336 5 2 31 10 16 256 131 22 63 4 32 2 258 48 21 2 6 53212 1 824 1 1 3 164",
      "1 16 3 61 1 1 1 131 1 6 4 3489 2 51505 1 25 1 31 1 25 1 31 1 25 1 31 1 25 1 31 1",
      "25 1 5932 2"]⟩,
    ⟨["so", "othersymbol"],
    ["166 1 2 1 4 1 1 1 977 1 266 2 127 2 206 1 10 1 19 2 247 1 515 1 373 1 130 6 1 1",
      "132 1 207 1 41 1 391 3 15 1 1 3 2 6 20 1 1 1 1 1 133 8 1 6 1 2 5 4 197 2 752 10",
      "723 1 722 1 157 34 353 10 9 9 1411 2 1 4 1 2 10 1 1 2 6 6 1 1 1 1 1 1 4 1 11 2 14",
      "1 1 2 1 1 58 2 9 5 2 4 1 2 1 2 1 7 1 31 2 2 1 1 1 31 268 8 4 20 2 7 2 81 1 30 25",
      "40 6 72 22 11 81 78 22 183 1 9 1 54 8 111 1 248 44 44 64 256 512 48 21 2 6 39 2 32",
      "1 105 229 6 357 2 46 26 1 89 12 214 26 16 4 1 13 2 12 1 21 2 6 2 336 2 4 10 32 38",
      "9 1 16 31 11 30 8 1 15 32 10 39 15 320 6592 64 22160 55 865 4 10 2 1 1 573 3 21190",
      "16 127 1 45 3 484 1 3 1 4 2 13 2 313 9 57 17 2 3 1 13 3 1 47 45 1658 2 591 1 3190",
      "1 2197 8 4 17 19274 4 5 1 20822 1 3939 240 16 436 156 116 60 246 10 39 2 60 5 3 22",
      "2 7 30 4 61 21 66 3 1 186 87 1193 512 55 4 50 8 1 14 1 2 1736 1 2908 1 129 1 721",
      "44 4 100 12 15 2 15 1 15 1 37 23 161 56 29 13 44 4 9 7 2 14 6 154 251 5 728 4 17 3",
      "13 3 119 4 95 6 12 4 1 15 12 4 56 8 10 6 40 8 30 2 12 4 2 62 340 12 14 2 13 3 10 5",
      "56 7 15 2 11 6 9 7 147 1 92"]⟩,
    ⟨["zl", "lineseparator"],
    ["8232 1"]⟩,
    ⟨["zp", "paragraphseparator"],
    ["8233 1"]⟩,
    ⟨["zs", "spaceseparator"],
    ["32 1 127 1 5599 1 2431 11 36 1 47 1 4000 1"]⟩]

def categoryUnions : List (List String × List String) :=
  [(["lc", "casedletter"], ["lu", "ll", "lt"]),
    (["l", "letter"], ["lu", "ll", "lt", "lm", "lo"]),
    (["m", "mark", "combiningmark"], ["mn", "mc", "me"]),
    (["n", "number"], ["nd", "nl", "no"]),
    (["p", "punctuation", "punct"], ["pc", "pd", "ps", "pe", "pi", "pf", "po"]),
    (["s", "symbol"], ["sm", "sc", "sk", "so"]),
    (["z", "separator"], ["zs", "zl", "zp"])]

def categories (names : List String) : CharSet :=
  .unions ((categoryTable.filter fun s => s.names.any names.contains).map (·.chars))

def assigned : CharSet := .unions (categoryTable.map (·.chars))

def category? (name : String) : Option CharSet :=
  if name = "any" then some .all
  else if name = "ascii" then some (.range 0 0x7F)
  else if name = "assigned" then some assigned
  else if name = "cn" ∨ name = "unassigned" then some (.diff .all assigned)
  else if name = "c" ∨ name = "other" then
    some (.union (categories ["cc", "cf", "co"]) (.diff .all assigned))
  else
    match categoryUnions.find? fun u => u.1.contains name with
    | some u => some (categories u.2)
    | none => charsNamed? categoryTable name

end Retest.Unicode
