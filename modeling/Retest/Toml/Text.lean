import Retest.Text.Json

namespace Retest.Toml

def isBlankSpace (c : Char) : Bool := c = ' ' || c = '\t'

def skipBlanks (s : List Char) : List Char := s.dropWhile isBlankSpace

/-- What may stand in a comment: a tab and all characters that are no control characters. -/
def isCommentChar (c : Char) : Bool := c = '\t' || (0x20 ≤ c.toNat && c.toNat ≠ 0x7F)

def lineEnd? : List Char → Option (List Char)
  | '\n' :: rest => some rest
  | '\r' :: '\n' :: rest => some rest
  | _ => none

def skipComment : List Char → List Char
  | '#' :: rest => rest.dropWhile isCommentChar
  | s => s

def finishLine (s : List Char) : Option (List Char) :=
  match skipComment (skipBlanks s) with
  | [] => some []
  | s => lineEnd? s

def skipFiller : Nat → List Char → List Char
  | 0, s => s
  | fuel + 1, s =>
    let s := skipBlanks s
    match lineEnd? (skipComment s) with
    | some rest => skipFiller fuel rest
    | none => s

def isBareChar (c : Char) : Bool := c.isAlphanum || c = '-' || c = '_'

def isStringChar (c : Char) : Bool := c = '\t' || (0x20 ≤ c.toNat && c.toNat ≠ 0x7F)

def hexDigits? : Nat → Nat → List Char → Option (Nat × List Char)
  | 0, acc, s => some (acc, s)
  | _, _, [] => none
  | n + 1, acc, c :: rest =>
    match Json.hexDigit? c with
    | none => none
    | some d => hexDigits? n (acc * 16 + d) rest

def codePoint? (digits : Nat) (s : List Char) : Option (Char × List Char) :=
  match hexDigits? digits 0 s with
  | none => none
  | some (n, rest) => if n.isValidChar then some (Char.ofNat n, rest) else none

def escape? : List Char → Option (Char × List Char)
  | 'u' :: rest => codePoint? 4 rest
  | 'U' :: rest => codePoint? 8 rest
  | '/' :: _ => none
  | c :: rest => (Json.simpleEscape? c).map fun d => (d, rest)
  | [] => none

/-- A string on one line, behind its opening quote. Escapes count between double quotes only. -/
def readShort (quote : Char) : Nat → List Char → List Char → Option (List Char × List Char)
  | 0, _, _ => none
  | _, _, [] => none
  | fuel + 1, acc, c :: rest =>
    if c = quote then some (acc.reverse, rest)
    else if c = '\\' ∧ quote = '"' then
      match escape? rest with
      | none => none
      | some (d, rest) => readShort quote fuel (d :: acc) rest
    else if isStringChar c then readShort quote fuel (c :: acc) rest
    else none

def skipGap : Nat → List Char → List Char
  | 0, s => s
  | fuel + 1, s =>
    match lineEnd? (skipBlanks s) with
    | some rest => skipGap fuel rest
    | none => skipBlanks s

/-- What follows a backslash at the end of a line: the blanks and line ends behind it are no part of
the string. -/
def continuation? (s : List Char) : Option (List Char) :=
  (lineEnd? (skipBlanks s)).map fun rest => skipGap (rest.length + 1) rest

def quoteRun (quote : Char) (s : List Char) : Nat × List Char :=
  ((s.takeWhile (· = quote)).length, s.dropWhile (· = quote))

/-- A string over several lines, behind its opening quotes and their line. Three quotes close it;
one or two more that stand before them belong to it. -/
def readLong (quote : Char) : Nat → List Char → List Char → Option (List Char × List Char)
  | 0, _, _ => none
  | _, _, [] => none
  | fuel + 1, acc, c :: rest =>
    if c = quote then
      let (n, after) := quoteRun quote (c :: rest)
      if n < 3 then readLong quote fuel (List.replicate n quote ++ acc) after
      else
        let own := Nat.min (n - 3) 2
        some ((List.replicate own quote ++ acc).reverse, (c :: rest).drop (own + 3))
    else if c = '\\' ∧ quote = '"' then
      match continuation? rest with
      | some rest => readLong quote fuel acc rest
      | none =>
        match escape? rest with
        | none => none
        | some (d, rest) => readLong quote fuel (d :: acc) rest
    else
      match lineEnd? (c :: rest) with
      | some rest => readLong quote fuel ('\n' :: acc) rest
      | none => if isStringChar c then readLong quote fuel (c :: acc) rest else none

def skipFirstLineEnd (s : List Char) : List Char := (lineEnd? s).getD s

def readString (s : List Char) : Option (List Char × List Char) :=
  match s with
  | '"' :: '"' :: '"' :: rest => readLong '"' (rest.length + 1) [] (skipFirstLineEnd rest)
  | '\'' :: '\'' :: '\'' :: rest => readLong '\'' (rest.length + 1) [] (skipFirstLineEnd rest)
  | '"' :: rest => readShort '"' (rest.length + 1) [] rest
  | '\'' :: rest => readShort '\'' (rest.length + 1) [] rest
  | _ => none

def readSimpleKey (s : List Char) : Option (String × List Char) :=
  match s with
  | '"' :: rest => (readShort '"' (rest.length + 1) [] rest).map fun r => (String.ofList r.1, r.2)
  | '\'' :: rest => (readShort '\'' (rest.length + 1) [] rest).map fun r => (String.ofList r.1, r.2)
  | _ =>
    match s.takeWhile isBareChar with
    | [] => none
    | key => some (String.ofList key, s.dropWhile isBareChar)

def depthLimit : Nat := 80

def readKeyParts : Nat → List Char → Option (List String × List Char)
  | 0, _ => none
  | fuel + 1, s =>
    match readSimpleKey (skipBlanks s) with
    | none => none
    | some (part, rest) =>
      match skipBlanks rest with
      | '.' :: rest => (readKeyParts fuel rest).map fun r => (part :: r.1, r.2)
      | rest => some ([part], rest)

def readKey (s : List Char) : Option (List String × List Char) := readKeyParts (depthLimit - 1) s

end Retest.Toml
