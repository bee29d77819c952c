import Retest.Regex.CharClass
import Retest.Regex.Mode
import Retest.Regex.Pattern
import Retest.Text.Line

namespace Retest.Regex

inductive Atom where
  | literal (c : Char)
  | byte (c : Char)
  | dot
  | assertion (a : Assertion)
  | shorthand (k : Shorthand) (negated : Bool)
  | property (s : CharSet) (negated : Bool)
  deriving Repr, DecidableEq

def hexValue? (c : Char) : Option Nat :=
  if '0' ≤ c ∧ c ≤ '9' then some (c.toNat - 48)
  else if 'a' ≤ c ∧ c ≤ 'f' then some (c.toNat - 87)
  else if 'A' ≤ c ∧ c ≤ 'F' then some (c.toNat - 55)
  else none

def charOfCode? (n : Nat) : Option Char := if n.isValidChar then some (Char.ofNat n) else none

def hexFixed (m : Mode) : Nat → Nat → List Char → Except SyntaxError (Nat × List Char)
  | 0, n, s => .ok (n, s)
  | _ + 1, _, [] => .error .unexpectedEnd
  | count + 1, n, c :: rest =>
    match hexValue? c with
    | none => .error .badEscape
    | some d => hexFixed m count (n * 16 + d) (m.skip rest)

def hexBraced (m : Mode) : Nat → Option Nat → List Char → Except SyntaxError (Nat × List Char)
  | 0, _, _ => .error .unexpectedEnd
  | _ + 1, _, [] => .error .unexpectedEnd
  | fuel + 1, n, c :: rest =>
    if c = '}' then
      match n with
      | none => .error .badEscape
      | some v => .ok (v, m.skip rest)
    else
      match hexValue? c with
      | none => .error .badEscape
      | some d => hexBraced m fuel (some (n.getD 0 * 16 + d)) (m.skip rest)

/-- The digits behind `\x`, `\u` and `\U`: two, four and eight of them, or any number in braces. -/
def hexEscape (m : Mode) (count : Nat) (s : List Char) : Except SyntaxError (Atom × List Char) :=
  match m.skip s with
  | [] => .error .unexpectedEnd
  | '{' :: rest => do
    let rest := m.skip rest
    let (n, rest) ← hexBraced m (rest.length + 1) none rest
    match charOfCode? n with
    | none => .error .badEscape
    | some c => return (.literal c, rest)
  | c :: rest => do
    let (n, rest) ← hexFixed m count 0 (c :: rest)
    match charOfCode? n with
    | none => .error .badEscape
    | some c => return (if count = 2 then .byte c else .literal c, rest)

def bracedText (m : Mode) : Nat → List Char → List Char → Except SyntaxError (List Char × List Char)
  | 0, _, _ => .error .unexpectedEnd
  | _ + 1, _, [] => .error .unexpectedEnd
  | fuel + 1, acc, c :: rest =>
    if c = '}' then .ok (acc.reverse, rest) else bracedText m fuel (c :: acc) (m.skip rest)

/-- The set that a property names, and whether an unequal sign asks for all others. -/
def namedSet (text : List Char) : Except SyntaxError (CharSet × Bool) :=
  let found := match cutAt? ['!', '='] text with
    | some (p, v) => (setOfValue? p v).map (·, true)
    | none =>
      match cutAt? [':'] text with
      | some (p, v) => (setOfValue? p v).map (·, false)
      | none =>
        match cutAt? ['='] text with
        | some (p, v) => (setOfValue? p v).map (·, false)
        | none => (setOfName? text).map (·, false)
  match found with
  | some r => .ok r
  | none => .error .unknownClass

def propertyEscape (m : Mode) (negated : Bool) (s : List Char) :
    Except SyntaxError (Atom × List Char) :=
  match m.skip s with
  | [] => .error .unexpectedEnd
  | '{' :: rest => do
    let rest := m.skip rest
    let (text, rest) ← bracedText m (rest.length + 1) [] rest
    let (set, flipped) ← namedSet text
    return (.property set (negated != flipped), rest)
  | c :: rest =>
    if c = '\\' then .error .unknownClass
    else do
      let (set, _) ← namedSet [c]
      return (.property set negated, m.skip rest)

def isMeta (c : Char) : Bool :=
  ['\\', '.', '+', '*', '?', '(', ')', '|', '[', ']', '{', '}', '^', '$', '#', '&', '-',
    '~'].contains c

def isEscapable (c : Char) : Bool :=
  isMeta c || (c.toNat < 0x80 && !c.isAlphanum && c ≠ '<' && c ≠ '>')

def isBoundaryNameChar (c : Char) : Bool := c.isAlpha || c = '-'

def boundaryName (m : Mode) : Nat → List Char → List Char → List Char × List Char
  | 0, acc, s => (acc.reverse, s)
  | _ + 1, acc, [] => (acc.reverse, [])
  | fuel + 1, acc, c :: rest =>
    if isBoundaryNameChar c then boundaryName m fuel (c :: acc) (m.skip rest)
    else (acc.reverse, c :: rest)

/-- What follows `\b`: a name in braces makes it a special boundary. Braces that begin otherwise are
left for a repetition. -/
def boundaryEscape (m : Mode) (s : List Char) : Except SyntaxError (Atom × List Char) :=
  match s with
  | '{' :: rest =>
    match m.skip rest with
    | [] => .error .unexpectedEnd
    | c :: more =>
      if !isBoundaryNameChar c then .ok (.assertion (.wordBoundary m.wide), s)
      else
        match boundaryName m (more.length + 1) [] (c :: more) with
        | (name, '}' :: rest) =>
          match String.ofList name with
          | "start" => .ok (.assertion (.wordStart m.wide), rest)
          | "end" => .ok (.assertion (.wordEnd m.wide), rest)
          | "start-half" => .ok (.assertion (.wordStartHalf m.wide), rest)
          | "end-half" => .ok (.assertion (.wordEndHalf m.wide), rest)
          | _ => .error .badEscape
        | _ => .error .badEscape
  | _ => .ok (.assertion (.wordBoundary m.wide), s)

def escape (m : Mode) : List Char → Except SyntaxError (Atom × List Char)
  | [] => .error .unexpectedEnd
  | c :: rest =>
    if c.isDigit then .error .backreference
    else if isEscapable c then .ok (.literal c, rest)
    else
      match c with
      | 'x' => hexEscape m 2 rest
      | 'u' => hexEscape m 4 rest
      | 'U' => hexEscape m 8 rest
      | 'p' => propertyEscape m false rest
      | 'P' => propertyEscape m true rest
      | 'd' => .ok (.shorthand .digit false, rest)
      | 'D' => .ok (.shorthand .digit true, rest)
      | 's' => .ok (.shorthand .space false, rest)
      | 'S' => .ok (.shorthand .space true, rest)
      | 'w' => .ok (.shorthand .word false, rest)
      | 'W' => .ok (.shorthand .word true, rest)
      | 'a' => .ok (.literal '\x07', rest)
      | 'f' => .ok (.literal '\x0c', rest)
      | 't' => .ok (.literal '\t', rest)
      | 'n' => .ok (.literal '\n', rest)
      | 'r' => .ok (.literal '\r', rest)
      | 'v' => .ok (.literal '\x0b', rest)
      | 'A' => .ok (.assertion .textStart, rest)
      | 'z' => .ok (.assertion .textEnd, rest)
      | 'b' => boundaryEscape m rest
      | 'B' => .ok (.assertion (.notWordBoundary m.wide), rest)
      | '<' => .ok (.assertion (.wordStart m.wide), rest)
      | '>' => .ok (.assertion (.wordEnd m.wide), rest)
      | _ => .error .badEscape

def plainAtom (m : Mode) (c : Char) : Atom :=
  if c = '.' then .dot
  else if c = '^' then
    .assertion (if m.multiLine then (if m.wideLines then .wideLineStart else .lineStart)
      else .textStart)
  else if c = '$' then
    .assertion (if m.multiLine then (if m.wideLines then .wideLineEnd else .lineEnd) else .textEnd)
  else .literal c

def Mode.fold (m : Mode) (s : CharSet) : CharSet :=
  if m.ignoreCase then (if m.wide then s.foldCase else s.foldAsciiCase) else s

def dotChars (m : Mode) : CharSet :=
  if m.dotAll then .all
  else if m.wideLines then CharSet.negate (.ofRanges [(10, 10), (13, 13)])
  else CharSet.negate (.range 10 10)

/-- The pattern of an atom. In ASCII mode nothing may match a part of a character, so neither the
dot nor a negated class nor a high byte is allowed there. -/
def Atom.pattern (m : Mode) : Atom → Except SyntaxError Pattern
  | .literal c => .ok (.oneOf (m.fold (.single c)))
  | .byte c =>
    if !m.wide && 0x80 ≤ c.toNat then .error .notAscii else .ok (.oneOf (m.fold (.single c)))
  | .dot => if m.wide then .ok (.oneOf (dotChars m)) else .error .notAscii
  | .assertion a => .ok (.assertion a)
  | .shorthand k negated =>
    if !m.wide && negated then .error .notAscii
    else .ok (.oneOf ((k.chars m.wide).negateIf negated))
  | .property s negated =>
    if m.wide then .ok (.oneOf ((m.fold s).negateIf negated)) else .error .notAscii

end Retest.Regex
