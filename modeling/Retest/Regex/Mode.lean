import Retest.Text.Blank

namespace Retest.Regex

inductive SyntaxError where
  | unexpectedEnd
  | groupUnopened
  | groupUnclosed
  | lookAround
  | badGroupName
  | badFlag
  | nothingToRepeat
  | badRepetition
  | badEscape
  | backreference
  | badClass
  | badRange
  | unknownClass
  | notAscii
  | nestedTooDeep
  | tooLarge
  deriving Repr, DecidableEq

structure Mode where
  ignoreCase : Bool := false
  multiLine : Bool := false
  dotAll : Bool := false
  lazy : Bool := false
  wideLines : Bool := false
  wide : Bool := true
  spaced : Bool := false
  deriving Repr, DecidableEq, Inhabited

def Mode.setFlag? (m : Mode) (on : Bool) : Char → Option Mode
  | 'i' => some { m with ignoreCase := on }
  | 'm' => some { m with multiLine := on }
  | 's' => some { m with dotAll := on }
  | 'U' => some { m with lazy := on }
  | 'R' => some { m with wideLines := on }
  | 'u' => some { m with wide := on }
  | 'x' => some { m with spaced := on }
  | _ => none

inductive FlagsEnd where
  | alone
  | group
  deriving Repr, DecidableEq

/-- Reads flags up to the closing parenthesis or colon. Each letter may stand there once, and so may
the hyphen behind which flags are switched off; it must not come last. -/
def readFlags (m : Mode) (used : List Char) (off dangling : Bool) :
    List Char → Except SyntaxError (Mode × List Char × FlagsEnd × List Char)
  | [] => .error .unexpectedEnd
  | c :: rest =>
    if c = ':' ∨ c = ')' then
      if dangling then .error .badFlag
      else .ok (m, used, if c = ')' then .alone else .group, rest)
    else if c = '-' then
      if off then .error .badFlag else readFlags m used true true rest
    else
      match m.setFlag? (!off) c with
      | none => .error .badFlag
      | some m' =>
        if used.contains c then .error .badFlag else readFlags m' (c :: used) off false rest

def skipComment : List Char → List Char
  | [] => []
  | '\n' :: rest => rest
  | _ :: rest => skipComment rest

/-- In spaced mode, what follows blanks and comments. A comment goes from a hash to the end of its
line. -/
def skipSpace : Nat → List Char → List Char
  | 0, s => s
  | _ + 1, [] => []
  | fuel + 1, c :: rest =>
    if isBlank c then skipSpace fuel rest
    else if c = '#' then skipSpace fuel (skipComment rest)
    else c :: rest

def Mode.skip (m : Mode) (s : List Char) : List Char :=
  if m.spaced then skipSpace s.length s else s

end Retest.Regex
