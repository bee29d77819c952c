/-! What shell scripts are made of: words, which become texts when they are used, and commands. The
characters of a script stand for bytes. -/

namespace Retest.Shell

/-- What is made of a parameter. In some of them an empty value counts as no value. -/
inductive Use where
  | value
  | size
  | fallback (emptyToo : Bool)
  | assign (emptyToo : Bool)
  | demand (emptyToo : Bool)
  | instead (emptyToo : Bool)
  | dropFront (longest : Bool)
  | dropBack (longest : Bool)
  | mistaken
  deriving Repr, DecidableEq, Inhabited

inductive Direction where
  | input
  | output
  | append
  | both
  | duplicate
  | document
  deriving Repr, DecidableEq, Inhabited

mutual

/-- A part of a word. What stands in quotes is neither split into fields nor a pattern. -/
inductive Piece where
  | text (s : List Char) (quoted : Bool)
  | parameter (name : List Char) (use : Use) (word : List Piece) (quoted : Bool)
  | output (body : Command) (quoted : Bool)
  | sum (body : List Piece) (quoted : Bool)

/-- A command. A redirection has the number of a channel and the word that says where to. -/
inductive Command where
  | empty
  | simple (assignments : List (List Char × List Piece)) (words : List (List Piece))
      (redirections : List (Nat × Direction × List Piece))
  | redirected (body : Command) (redirections : List (Nat × Direction × List Piece))
  | pipeline (stages : List Command)
  | negation (c : Command)
  | both (first second : Command)
  | either (first second : Command)
  | sequence (first second : Command)
  | background (c : Command)
  | subshell (body : Command)
  | condition (test yes no : Command)
  | loop (until_ : Bool) (test body : Command)
  | each (name : List Char) (words : List (List Piece)) (body : Command)
  | choice (subject : List Piece) (branches : List (List (List Piece) × Command))
  | definition (name : List Char) (body : Command)

end

instance : Inhabited Command := ⟨.empty⟩

abbrev Word := List Piece

abbrev Redirection := Nat × Direction × Word

def isBlankSpace (c : Char) : Bool := c = ' ' || c = '\t'

def isMeta (c : Char) : Bool := isBlankSpace c || "\n;&|()<>".toList.contains c

def isNameStart (c : Char) : Bool := c.isAlpha || c = '_'

def isNameChar (c : Char) : Bool := c.isAlphanum || c = '_'

def isName (s : List Char) : Bool := s.all isNameChar && (s.head?.map isNameStart).getD false

def isSpecialName (c : Char) : Bool := c.isDigit || "?$#@*-!".toList.contains c

def plainText? : Word → Option (List Char)
  | [.text s false] => some s
  | _ => none

def joinTexts : Word → Word
  | .text a q :: rest =>
    match joinTexts rest with
    | .text b r :: more =>
      if q = r then .text (a ++ b) q :: more else .text a q :: .text b r :: more
    | word => .text a q :: word
  | piece :: rest => piece :: joinTexts rest
  | [] => []

def assignment? : Word → Option (List Char × Word)
  | .text s false :: rest =>
    let name := s.takeWhile (· ≠ '=')
    match s.drop name.length with
    | '=' :: value =>
      if isName name then
        some (name, if value.isEmpty then rest else .text value false :: rest)
      else none
    | _ => none
  | _ => none

end Retest.Shell
