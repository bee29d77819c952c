import Retest.Unicode.CharSet

namespace Retest.Unicode

def scriptTable : List NamedSet :=
  [⟨["adlm", "adlam"],
    ["125184 76 4 10 4 2"]⟩,
    ⟨["aghb", "caucasianalbanian"],
    ["66864 52 11 1"]⟩,
    ⟨["ahom"],
    ["71424 27 2 15 4 23"]⟩,
    ⟨["arab", "arabic"],
    ["1536 5 1 6 1 14 1 3 1 32 1 10 11 26 1 108 1 34 80 48 240 31 1 2 5 75 1 29 62032",
      "115 16 363 2 80 2 54 7 1 32 16 112 5 1 135 3939 31 67 3 55 4 57088 4 1 27 1 2 1 1",
      "2 1 1 10 1 4 1 1 1 1 6 1 4 1 1 1 1 1 1 3 1 2 1 1 2 1 1 1 1 1 1 1 1 1 1 2 1 1 2 4 1",
      "7 1 4 1 4 1 1 1 10 1 17 5 3 1 5 1 17 52 2"]⟩,
    ⟨["armi", "imperialaramaic"],
    ["67648 22 1 9"]⟩,
    ⟨["armn", "armenian"],
    ["1329 38 2 50 2 3 62851 5"]⟩,
    ⟨["avst", "avestan"],
    ["68352 54 3 7"]⟩,
    ⟨["bali", "balinese"],
    ["6912 77 1 50"]⟩,
    ⟨["bamu", "bamum"],
    ["42656 88 49416 569"]⟩,
    ⟨["bass", "bassavah"],
    ["92880 30 2 6"]⟩,
    ⟨["batk", "batak"],
    ["7104 52 8 4"]⟩,
    ⟨["beng", "bengali"],
    ["2432 4 1 8 2 2 2 22 1 7 1 1 3 4 2 9 2 2 2 4 8 1 4 2 1 5 2 25"]⟩,
    ⟨["bhks", "bhaiksuki"],
    ["72704 9 1 45 1 14 10 29"]⟩,
    ⟨["bopo", "bopomofo"],
    ["746 2 11801 43 112 32"]⟩,
    ⟨["brah", "brahmi"],
    ["69632 78 4 36 9 1"]⟩,
    ⟨["brai", "braille"],
    ["10240 256"]⟩,
    ⟨["bugi", "buginese"],
    ["6656 28 2 2"]⟩,
    ⟨["buhd", "buhid"],
    ["5952 20"]⟩,
    ⟨["cakm", "chakma"],
    ["69888 53 1 18"]⟩,
    ⟨["cans", "canadianaboriginal"],
    ["5120 640 560 70 65978 16"]⟩,
    ⟨["cari", "carian"],
    ["66208 49"]⟩,
    ⟨["cham"],
    ["43520 55 9 14 2 10 2 4"]⟩,
    ⟨["cher", "cherokee"],
    ["5024 86 2 6 38770 80"]⟩,
    ⟨["chrs", "chorasmian"],
    ["69552 28"]⟩,
    ⟨["copt", "coptic", "qaac"],
    ["994 14 10384 116 5 7"]⟩,
    ⟨["cpmn", "cyprominoan"],
    ["77712 99"]⟩,
    ⟨["cprt", "cypriot"],
    ["67584 6 2 1 1 44 1 2 3 1 2 1"]⟩,
    ⟨["cyrl", "cyrillic"],
    ["1024 133 2 169 5968 11 160 1 76 1 4199 32 30784 96 22414 2 57856 62 33 1"]⟩,
    ⟨["deva", "devanagari"],
    ["2304 81 4 15 2 26 40800 32 29184 10"]⟩,
    ⟨["diak", "divesakuru"],
    ["71936 7 2 1 2 8 1 2 1 30 1 2 2 12 9 10"]⟩,
    ⟨["dogr", "dogra"],
    ["71680 60"]⟩,
    ⟨["dsrt", "deseret"],
    ["66560 80"]⟩,
    ⟨["dupl", "duployan"],
    ["113664 107 5 13 3 9 7 10 2 4"]⟩,
    ⟨["egyp", "egyptianhieroglyphs"],
    ["77824 1110 10 3995"]⟩,
    ⟨["elba", "elbasan"],
    ["66816 40"]⟩,
    ⟨["elym", "elymaic"],
    ["69600 23"]⟩,
    ⟨["ethi", "ethiopic"],
    ["4608 73 1 4 2 7 1 1 1 4 2 41 1 4 2 33 1 4 2 7 1 1 1 4 2 15 1 57 1 4 2 67 2 32 3 26",
      "6630 23 9 7 1 7 1 7 1 7 1 7 1 7 1 7 1 7 32034 6 2 6 2 6 9 7 1 7 81073 7 1 4 1 2 1",
      "15"]⟩,
    ⟨["gara", "garay"],
    ["68928 38 3 29 8 2"]⟩,
    ⟨["geor", "georgian"],
    ["4256 38 1 1 5 1 2 43 1 4 2960 43 2 3 4160 38 1 1 5 1"]⟩,
    ⟨["glag", "glagolitic"],
    ["11264 96 111520 7 1 17 2 7 1 2 1 5"]⟩,
    ⟨["gong", "gunjalagondi"],
    ["73056 6 1 2 1 37 1 2 1 6 7 10"]⟩,
    ⟨["gonm", "masaramgondi"],
    ["72960 7 1 2 1 44 3 1 1 2 1 9 8 10"]⟩,
    ⟨["goth", "gothic"],
    ["66352 27"]⟩,
    ⟨["gran", "grantha"],
    ["70400 4 1 8 2 2 2 22 1 7 1 2 1 5 2 9 2 2 2 3 2 1 6 1 5 7 2 7 3 5"]⟩,
    ⟨["grek", "greek"],
    ["880 4 1 3 2 4 1 1 4 1 1 1 1 3 1 1 1 20 1 63 14 16 6438 5 50 5 4 5 84 1 320 22 2 6",
      "2 38 2 6 2 8 1 1 1 1 1 1 1 31 2 53 1 15 1 14 2 6 1 19 2 3 1 9 295 1 35390 1 21978",
      "79 17 1 53343 70"]⟩,
    ⟨["gujr", "gujarati"],
    ["2689 3 1 9 1 3 1 22 1 7 1 2 1 5 2 10 1 3 1 3 2 1 15 4 2 12 7 7"]⟩,
    ⟨["gukh", "gurungkhema"],
    ["90368 58"]⟩,
    ⟨["guru", "gurmukhi"],
    ["2561 3 1 6 4 2 2 22 1 7 1 2 1 2 1 2 2 1 1 5 4 2 2 3 3 1 7 4 1 1 7 17"]⟩,
    ⟨["hang", "hangul"],
    ["4352 256 7726 2 257 94 113 31 65 31 30433 29 643 11172 12 23 4 49 10148 31 3 6 2 6",
      "2 6 2 3"]⟩,
    ⟨["hani", "han"],
    ["11904 26 1 89 12 214 47 1 1 1 25 9 14 4 964 6592 64 20992 22784 366 2 106 29960 2",
      "12 2 36878 42720 32 4154 6 222 2 5762 14 7473 15 622 2466 542 1506 4939 5 4192"]⟩,
    ⟨["hano", "hanunoo"],
    ["5920 21"]⟩,
    ⟨["hatr", "hatran"],
    ["67808 19 1 2 5 5"]⟩,
    ⟨["hebr", "hebrew"],
    ["1425 55 8 27 4 6 62760 26 1 5 1 1 1 2 1 2 1 10"]⟩,
    ⟨["hira", "hiragana"],
    ["12353 86 6 3 98145 287 18 1 29 3 16557 1"]⟩,
    ⟨["hluw", "anatolianhieroglyphs"],
    ["82944 583"]⟩,
    ⟨["hmng", "pahawhhmong"],
    ["92928 70 10 10 1 7 1 21 5 19"]⟩,
    ⟨["hmnp", "nyiakengpuachuehmong"],
    ["123136 45 3 14 2 10 4 2"]⟩,
    ⟨["hung", "oldhungarian"],
    ["68736 51 13 51 7 6"]⟩,
    ⟨["ital", "olditalic"],
    ["66304 36 9 3"]⟩,
    ⟨["java", "javanese"],
    ["43392 78 2 10 4 2"]⟩,
    ⟨["kali", "kayahli"],
    ["43264 46 1 1"]⟩,
    ⟨["kana", "katakana"],
    ["12449 90 2 3 240 16 208 47 1 88 52238 10 1 45 45138 4 1 7 1 2 1 1 287 3 50 1 14 4"]⟩,
    ⟨["kawi"],
    ["73472 17 1 41 3 29"]⟩,
    ⟨["khar", "kharoshthi"],
    ["68096 4 1 2 5 8 1 3 1 29 2 3 4 10 7 9"]⟩,
    ⟨["khmr", "khmer"],
    ["6016 94 2 10 6 10 486 32"]⟩,
    ⟨["khoj", "khojki"],
    ["70144 18 1 47"]⟩,
    ⟨["kits", "khitansmallscript"],
    ["94180 1 6939 470 41 1"]⟩,
    ⟨["knda", "kannada"],
    ["3200 13 1 3 1 23 1 10 1 5 2 9 1 3 1 4 7 2 6 2 1 4 2 10 1 3"]⟩,
    ⟨["krai", "kiratrai"],
    ["93504 58"]⟩,
    ⟨["kthi", "kaithi"],
    ["69760 67 10 1"]⟩,
    ⟨["lana", "taitham"],
    ["6688 63 1 29 2 11 6 10 6 14"]⟩,
    ⟨["laoo", "lao"],
    ["3713 2 1 1 1 5 1 24 1 1 1 23 2 5 1 1 1 7 1 10 2 4"]⟩,
    ⟨["latn", "latin"],
    ["65 26 6 26 47 1 15 1 5 23 1 31 1 449 39 5 6683 38 6 49 5 4 5 13 1 70 65 256 369 1",
      "13 1 16 13 141 2 6 1 27 1 17 41 2775 32 31394 102 3 67 2 2 1 1 1 8 21 14 816 43 1",
      "9 1 4 20374 7 1050 26 6 26 2085 6 1 42 1 9 55109 31 6 6"]⟩,
    ⟨["lepc", "lepcha"],
    ["7168 56 3 15 3 3"]⟩,
    ⟨["limb", "limbu"],
    ["6400 31 1 12 4 12 4 1 3 12"]⟩,
    ⟨["lina", "lineara"],
    ["67072 311 9 22 10 8"]⟩,
    ⟨["linb", "linearb"],
    ["65536 12 1 26 1 19 1 2 1 15 2 14 34 123"]⟩,
    ⟨["lisu"],
    ["42192 48 31408 1"]⟩,
    ⟨["lyci", "lycian"],
    ["66176 29"]⟩,
    ⟨["lydi", "lydian"],
    ["67872 26 5 1"]⟩,
    ⟨["mahj", "mahajani"],
    ["69968 39"]⟩,
    ⟨["maka", "makasar"],
    ["73440 25"]⟩,
    ⟨["mand", "mandaic"],
    ["2112 28 2 1"]⟩,
    ⟨["mani", "manichaean"],
    ["68288 39 4 12"]⟩,
    ⟨["marc", "marchen"],
    ["72816 32 2 22 1 14"]⟩,
    ⟨["medf", "medefaidrin"],
    ["93760 91"]⟩,
    ⟨["mend", "mendekikakui"],
    ["124928 197 2 16"]⟩,
    ⟨["merc", "meroiticcursive"],
    ["68000 24 4 20 2 46"]⟩,
    ⟨["mero", "meroitichieroglyphs"],
    ["67968 32"]⟩,
    ⟨["mlym", "malayalam"],
    ["3328 13 1 3 1 51 1 3 1 6 4 16 2 26"]⟩,
    ⟨["modi"],
    ["71168 69 11 10"]⟩,
    ⟨["mong", "mongolian"],
    ["6144 2 2 1 1 20 6 89 7 43 64949 13"]⟩,
    ⟨["mroo", "mro"],
    ["92736 31 1 10 4 2"]⟩,
    ⟨["mtei", "meeteimayek"],
    ["43744 23 201 46 2 10"]⟩,
    ⟨["mult", "multani"],
    ["70272 7 1 1 1 4 1 15 1 11"]⟩,
    ⟨["mymr", "myanmar"],
    ["4096 160 39232 31 97 32 27728 20"]⟩,
    ⟨["nagm", "nagmundari"],
    ["124112 42"]⟩,
    ⟨["nand", "nandinagari"],
    ["72096 8 2 46 2 11"]⟩,
    ⟨["narb", "oldnortharabian"],
    ["68224 32"]⟩,
    ⟨["nbat", "nabataean"],
    ["67712 31 8 9"]⟩,
    ⟨["newa"],
    ["70656 92 1 5"]⟩,
    ⟨["nkoo", "nko"],
    ["1984 59 2 3"]⟩,
    ⟨["nshu", "nushu"],
    ["94177 1 16782 396"]⟩,
    ⟨["ogam", "ogham"],
    ["5760 29"]⟩,
    ⟨["olck", "olchiki"],
    ["7248 48"]⟩,
    ⟨["onao", "olonal"],
    ["124368 43 4 1"]⟩,
    ⟨["orkh", "oldturkic"],
    ["68608 73"]⟩,
    ⟨["orya", "oriya"],
    ["2817 3 1 8 2 2 2 22 1 7 1 2 1 5 2 9 2 2 2 3 7 3 4 2 1 5 2 18"]⟩,
    ⟨["osge", "osage"],
    ["66736 36 4 36"]⟩,
    ⟨["osma", "osmanya"],
    ["66688 30 2 10"]⟩,
    ⟨["ougr", "olduyghur"],
    ["69488 26"]⟩,
    ⟨["palm", "palmyrene"],
    ["67680 32"]⟩,
    ⟨["pauc", "paucinhau"],
    ["72384 57"]⟩,
    ⟨["perm", "oldpermic"],
    ["66384 43"]⟩,
    ⟨["phag", "phagspa"],
    ["43072 56"]⟩,
    ⟨["phli", "inscriptionalpahlavi"],
    ["68448 19 5 8"]⟩,
    ⟨["phlp", "psalterpahlavi"],
    ["68480 18 7 4 12 7"]⟩,
    ⟨["phnx", "phoenician"],
    ["67840 28 3 1"]⟩,
    ⟨["plrd", "miao"],
    ["93952 75 4 57 7 17"]⟩,
    ⟨["prti", "inscriptionalparthian"],
    ["68416 22 2 8"]⟩,
    ⟨["rjng", "rejang"],
    ["43312 36 11 1"]⟩,
    ⟨["rohg", "hanifirohingya"],
    ["68864 40 8 10"]⟩,
    ⟨["runr", "runic"],
    ["5792 75 3 11"]⟩,
    ⟨["samr", "samaritan"],
    ["2048 46 2 15"]⟩,
    ⟨["sarb", "oldsoutharabian"],
    ["68192 32"]⟩,
    ⟨["saur", "saurashtra"],
    ["43136 70 8 12"]⟩,
    ⟨["sgnw", "signwriting"],
    ["120832 652 15 5 1 15"]⟩,
    ⟨["shaw", "shavian"],
    ["66640 48"]⟩,
    ⟨["shrd", "sharada"],
    ["70016 96"]⟩,
    ⟨["sidd", "siddham"],
    ["71040 54 2 38"]⟩,
    ⟨["sind", "khudawadi"],
    ["70320 59 5 10"]⟩,
    ⟨["sinh", "sinhala"],
    ["3457 3 1 18 3 24 1 9 1 1 2 7 3 1 4 6 1 1 1 8 6 10 2 3 66540 20"]⟩,
    ⟨["sogd", "sogdian"],
    ["69424 42"]⟩,
    ⟨["sogo", "oldsogdian"],
    ["69376 40"]⟩,
    ⟨["sora", "sorasompeng"],
    ["69840 25 7 10"]⟩,
    ⟨["soyo", "soyombo"],
    ["72272 83"]⟩,
    ⟨["sund", "sundanese"],
    ["7040 64 256 8"]⟩,
    ⟨["sunu", "sunuwar"],
    ["72640 34 14 10"]⟩,
    ⟨["sylo", "sylotinagri"],
    ["43008 45"]⟩,
    ⟨["syrc", "syriac"],
    ["1792 14 1 60 2 3 272 11"]⟩,
    ⟨["tagb", "tagbanwa"],
    ["5984 13 1 3 1 2"]⟩,
    ⟨["takr", "takri"],
    ["71296 58 6 10"]⟩,
    ⟨["tale", "taile"],
    ["6480 30 2 5"]⟩,
    ⟨["talu", "newtailue"],
    ["6528 44 4 26 6 11 3 2"]⟩,
    ⟨["taml", "tamil"],
    ["2946 2 1 6 3 3 1 4 3 2 1 1 1 2 3 2 3 3 3 12 4 5 3 3 1 4 2 1 6 1 14 21 70597 50 13",
      "1"]⟩,
    ⟨["tang", "tangut"],
    ["94176 1 31 6136 8 768 512 9"]⟩,
    ⟨["tavt", "taiviet"],
    ["43648 67 24 5"]⟩,
    ⟨["telu", "telugu"],
    ["3072 13 1 3 1 23 1 16 2 9 1 3 1 4 7 2 1 3 2 1 2 4 2 10 7 9"]⟩,
    ⟨["tfng", "tifinagh"],
    ["11568 56 7 2 14 1"]⟩,
    ⟨["tglg", "tagalog"],
    ["5888 22 9 1"]⟩,
    ⟨["thaa", "thaana"],
    ["1920 50"]⟩,
    ⟨["thai"],
    ["3585 58 5 28"]⟩,
    ⟨["tibt", "tibetan"],
    ["3840 72 1 36 4 39 1 36 1 15 1 7 4 2"]⟩,
    ⟨["tirh", "tirhuta"],
    ["70784 72 8 10"]⟩,
    ⟨["tnsa", "tangsa"],
    ["92784 79 1 10"]⟩,
    ⟨["todr", "todhri"],
    ["67008 52"]⟩,
    ⟨["toto"],
    ["123536 31"]⟩,
    ⟨["tutg", "tulutigalari"],
    ["70528 10 1 1 2 1 1 38 1 10 1 1 2 1 1 4 1 10 1 2 8 2"]⟩,
    ⟨["ugar", "ugaritic"],
    ["66432 30 1 1"]⟩,
    ⟨["vaii", "vai"],
    ["42240 300"]⟩,
    ⟨["vith", "vithkuqi"],
    ["66928 11 1 15 1 7 1 2 1 11 1 15 1 7 1 2"]⟩,
    ⟨["wara", "warangciti"],
    ["71840 83 12 1"]⟩,
    ⟨["wcho", "wancho"],
    ["123584 58 5 1"]⟩,
    ⟨["xpeo", "oldpersian"],
    ["66464 36 4 14"]⟩,
    ⟨["xsux", "cuneiform"],
    ["73728 922 102 111 1 5 11 196"]⟩,
    ⟨["yezi", "yezidi"],
    ["69248 42 1 3 2 2"]⟩,
    ⟨["yiii", "yi"],
    ["40960 1165 3 55"]⟩,
    ⟨["zanb", "zanabazarsquare"],
    ["72192 72"]⟩,
    ⟨["zinh", "inherited", "qaai"],
    ["768 112 277 2 452 11 26 1 736 4 4443 31 513 3 1 13 1 7 4 1 6 1 3 2 198 64 524 2",
      "194 33 3897 4 107 2 52581 16 16 14 975 1 226 1 4186 1 48068 46 2 23 544 3 17 8 2 7",
      "30 4 798546 240"]⟩,
    ⟨["zyyy", "common"],
    ["0 65 26 6 26 47 1 15 1 5 23 1 31 1 449 39 5 5 2 20 116 1 9 1 6 1 1 1 637 1 6 1 14",
      "1 3 1 32 1 156 1 516 1 129 2 1241 1 405 4 290 1 1519 3 71 2 203 2 1 1 1229 1 13 1",
      "7 4 1 6 1 3 2 1 773 12 2 87 1 11 3 11 1 15 17 33 63 38 1 3 2 6 1 27 1 17 41 3 4",
      "666 22 11 21 928 256 628 2 32 1 105 512 94 402 21 1 1 1 25 15 8 4 4 91 2 3 1 90 2",
      "147 16 32 38 9 1 48 64 31 81 47 1 88 168 6592 64 22784 34 102 3 165 10 244 1 160 1",
      "395 1 14 2 20946 2 208 10 22 35 1 19 1 4 147 1 1 32 26 6 26 11 10 1 45 2 64 7 1 7",
      "10 5 258 3 4 45 3 9 80 13 51 45 228 27 47524 4 3932 250 6 436 156 116 60 246 10 39",
      "2 62 3 17 8 2 7 30 4 61 213 20 12 20 12 87 9 25 135 85 1 71 1 2 2 1 2 2 2 4 1 12 1",
      "1 1 7 1 65 1 4 2 8 1 7 1 28 1 4 1 5 1 1 3 7 1 340 2 292 2 50 5233 68 76 61 706 44",
      "4 100 12 15 2 15 1 15 1 37 10 174 56 26 1 2 13 44 4 9 7 2 14 6 154 984 4 17 3 13 3",
      "119 4 95 6 12 4 1 15 12 4 56 8 10 6 40 8 30 2 12 4 2 62 340 12 14 2 13 3 10 5 56 7",
      "15 2 11 6 9 7 147 1 102 787463 1 30 96"]⟩]

def scriptExtensionTable : List NamedSet :=
  [⟨["adlm"],
    ["1567 1 32 1 6670 1 3569 1"]⟩,
    ⟨["aghb"],
    ["772 1 44 1 44 1"]⟩,
    ⟨["arab"],
    ["1548 1 14 1 3 1 32 1 10 11 26 1 6622 1 3569 1 52988 2 1440 28"]⟩,
    ⟨["armn"],
    ["776 1"]⟩,
    ⟨["avst"],
    ["183 1 11640 2"]⟩,
    ⟨["beng"],
    ["700 1 1684 2 17 2 4970 1 1 1 2 2 1 1 8 1 8 1 2 1 4 1 2 3 35833 1"]⟩,
    ⟨["bopo"],
    ["711 1 1 3 13 1 11559 3 4 10 1 13 10 4 2 1 6 1 195 1 52553 2 282 5"]⟩,
    ⟨["bugi"],
    ["43471 1"]⟩,
    ⟨["buhd"],
    ["5941 2"]⟩,
    ⟨["cakm"],
    ["2534 10 1616 10"]⟩,
    ⟨["cari"],
    ["183 1 8098 1 2 1 3539 1"]⟩,
    ⟨["cher"],
    ["768 3 1 1 6 2 22 2 11 2"]⟩,
    ⟨["copt"],
    ["183 1 584 1 3 2 1 1 108 2 10913 1 54472 28"]⟩,
    ⟨["cpmn"],
    ["65792 2"]⟩,
    ⟨["cprt"],
    ["65792 3 4 45 3 9"]⟩,
    ⟨["cyrl"],
    ["700 1 67 3 1 1 1 1 1 1 2 1 5 1 371 2 6513 1 4170 1"]⟩,
    ⟨["deva"],
    ["700 1 1684 2 17 2 4970 39 1 2 1014 1 34623 10"]⟩,
    ⟨["dogr"],
    ["2404 12 40640 10"]⟩,
    ⟨["dupl"],
    ["183 1 591 2 1 1 24 2 11031 1 101987 4"]⟩,
    ⟨["elba"],
    ["183 1 589 1"]⟩,
    ⟨["ethi"],
    ["782 1"]⟩,
    ⟨["gara"],
    ["1548 1 14 1 3 1"]⟩,
    ⟨["geor"],
    ["183 1 1233 1 2929 1 3934 1 3542 1"]⟩,
    ⟨["glag"],
    ["183 1 587 1 1 1 382 1 2 1 257 1 2929 1 3934 1 3560 1 30763 1"]⟩,
    ⟨["gong"],
    ["183 1 2220 2"]⟩,
    ⟨["gonm"],
    ["2404 2"]⟩,
    ⟨["goth"],
    ["183 1 588 2 2 1 40 1"]⟩,
    ⟨["gran"],
    ["2385 2 17 2 640 14 4316 1 1 2 30 3 3 2 1014 1 62026 1 3220 2 1 1"]⟩,
    ⟨["grek"],
    ["183 1 584 2 2 1 1 1 1 1 10 1 46 1 2 1 46 1 6731 2 667 1"]⟩,
    ⟨["gujr"],
    ["2385 2 17 2 40650 10"]⟩,
    ⟨["gukh"],
    ["2405 1"]⟩,
    ⟨["guru"],
    ["2385 2 17 2 40650 10"]⟩,
    ⟨["hang"],
    ["12289 3 4 10 1 13 16 1 6 1 195 1 52553 2 282 5"]⟩,
    ⟨["hani"],
    ["183 1 12088 16 1 3 2 1 1 10 1 13 10 4 2 1 6 1 4 4 187 1 148 16 32 38 9 1 48 40 56",
      "49 15 12 51 1 88 25 10 5 96 31 29441 8 22333 2 282 5 54266 18 7902 2"]⟩,
    ⟨["hano"],
    ["5941 2"]⟩,
    ⟨["hebr"],
    ["775 2"]⟩,
    ⟨["hira"],
    ["12289 3 4 10 1 13 16 6 1 1 4 2 91 4 3 1 90 2 52552 2 282 5 10 1 45 2"]⟩,
    ⟨["hung"],
    ["8282 1 2 1 3539 1 15 1"]⟩,
    ⟨["java"],
    ["43471 1"]⟩,
    ⟨["kali"],
    ["43310 1"]⟩,
    ⟨["kana"],
    ["773 1 29 1 11485 3 4 10 1 13 16 6 1 1 4 2 91 4 3 1 90 2 52552 2 282 5 10 1 45 2"]⟩,
    ⟨["khoj"],
    ["2790 10 40256 10"]⟩,
    ⟨["knda"],
    ["2385 2 17 2 4970 1 1 2 6 1 23 1 1 1 35643 6"]⟩,
    ⟨["kthi"],
    ["2406 10 9409 1 31230 10"]⟩,
    ⟨["latn"],
    ["183 1 516 1 10 1 1 3 1 1 9 1 1 1 38 15 1 2 1 1 15 3 7 2 1 2 38 1 5 1 4 13 277 2",
      "1226 2 1960 1 3324 1 566 1 192 1 3366 1 30952 8 550 1"]⟩,
    ⟨["limb"],
    ["2405 1"]⟩,
    ⟨["lina"],
    ["65799 45"]⟩,
    ⟨["linb"],
    ["65792 3 4 45 3 9"]⟩,
    ⟨["lisu"],
    ["700 1 16 1 11580 2"]⟩,
    ⟨["lyci"],
    ["8282 1"]⟩,
    ⟨["lydi"],
    ["183 1 11641 1"]⟩,
    ⟨["mahj"],
    ["183 1 2220 12 40640 10"]⟩,
    ⟨["mand"],
    ["1600 1"]⟩,
    ⟨["mani"],
    ["1600 1"]⟩,
    ⟨["mero"],
    ["8285 1"]⟩,
    ⟨["mlym"],
    ["2385 2 17 2 4980 1 23 1 35645 3"]⟩,
    ⟨["modi"],
    ["43056 10"]⟩,
    ⟨["mong"],
    ["6146 2 1 1 2089 1 4049 2 5 4"]⟩,
    ⟨["mult"],
    ["2662 10"]⟩,
    ⟨["mymr"],
    ["43310 1"]⟩,
    ⟨["nand"],
    ["2385 1 18 2 896 10 4089 1 8 1 7 1 35637 6"]⟩,
    ⟨["newa"],
    ["2385 2 4994 1 1 2 9 1 6 1 1 1 1 1"]⟩,
    ⟨["nkoo"],
    ["1548 1 14 1 3 1 63262 2"]⟩,
    ⟨["onao"],
    ["2404 2"]⟩,
    ⟨["orkh"],
    ["8282 1 3541 1"]⟩,
    ⟨["orya"],
    ["2385 2 17 2 4980 1 23 1"]⟩,
    ⟨["osge"],
    ["769 1 2 1 6 1 76 1"]⟩,
    ⟨["ougr"],
    ["1600 1 66737 1"]⟩,
    ⟨["perm"],
    ["183 1 584 1 5 3 10 1 367 1"]⟩,
    ⟨["phag"],
    ["6146 2 1 1 2089 1 4050 1"]⟩,
    ⟨["phlp"],
    ["1600 1"]⟩,
    ⟨["rohg"],
    ["1548 1 14 1 3 1 32 1 147 1"]⟩,
    ⟨["runr"],
    ["5867 3"]⟩,
    ⟨["samr"],
    ["11825 1"]⟩,
    ⟨["shaw"],
    ["183 1"]⟩,
    ⟨["shrd"],
    ["2385 1 4997 1 1 1 2 2 2 1 9 1 2 1 35650 6 2 1"]⟩,
    ⟨["sind"],
    ["2404 2 40650 10"]⟩,
    ⟨["sinh"],
    ["2404 2 5004 1"]⟩,
    ⟨["sogd"],
    ["1600 1"]⟩,
    ⟨["sunu"],
    ["768 2 1 1 9 1 2 1 28 1 3 1"]⟩,
    ⟨["sylo"],
    ["2404 2 128 10"]⟩,
    ⟨["syrc"],
    ["771 2 2 2 1 1 24 3 7 2 1 1 731 1 14 2 2 1 32 1 10 11 26 1 6023 1 1 1"]⟩,
    ⟨["tagb"],
    ["5941 2"]⟩,
    ⟨["takr"],
    ["2404 2 40650 10"]⟩,
    ⟨["tale"],
    ["768 2 5 2 3 1 3379 10"]⟩,
    ⟨["taml"],
    ["2385 2 17 2 4980 1 35864 1 27149 1 1 1 55 2"]⟩,
    ⟨["tang"],
    ["12272 16 495 1"]⟩,
    ⟨["telu"],
    ["2385 2 17 2 4975 2 1 1 1 1 23 1"]⟩,
    ⟨["tfng"],
    ["770 1 1 1 2 1 1 1"]⟩,
    ⟨["tglg"],
    ["5941 2"]⟩,
    ⟨["thaa"],
    ["1548 1 14 2 2 1 64 10 63368 1 10 1"]⟩,
    ⟨["thai"],
    ["700 1 26 1 43 1 45 1"]⟩,
    ⟨["tibt"],
    ["12296 4"]⟩,
    ⟨["tirh"],
    ["2385 2 17 2 4975 1 12 1 15 1 35645 10"]⟩,
    ⟨["todr"],
    ["769 1 2 1 2 1 9 1 1 1 74 1"]⟩,
    ⟨["toto"],
    ["700 1"]⟩,
    ⟨["tutg"],
    ["3302 10 4098 1 1 1 35643 6 187 1"]⟩,
    ⟨["yezi"],
    ["1548 1 14 1 3 1 64 10"]⟩,
    ⟨["yiii"],
    ["12289 2 5 10 2 8 223 1 52837 5"]⟩]

def script? (name : String) : Option NamedSet :=
  scriptTable.find? fun s => s.names.contains name

def scriptExtension? (name : String) : Option CharSet :=
  (script? name).map fun s =>
    let more := scriptExtensionTable.filter fun e => e.names.any s.names.contains
    if s.names.contains "common" ∨ s.names.contains "inherited" then
      .diff s.chars (.unions (scriptExtensionTable.map (·.chars)))
    else .unions (s.chars :: more.map (·.chars))

end Retest.Unicode
