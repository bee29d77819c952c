import Retest.Shell.State
import Retest.Shell.Arithmetic

namespace Retest.Shell.Condition

inductive Kind where
  | unary
  | binary
  | negation
  | conjunction
  | disjunction
  | open_
  | close
  deriving Repr, DecidableEq

def unarySigns : List String :=
  ["-b", "-c", "-d", "-e", "-f", "-g", "-G", "-h", "-k", "-L", "-n", "-O", "-p", "-r", "-s", "-S",
    "-t", "-u", "-w", "-x", "-z"]

def binarySigns : List String :=
  ["=", "!=", "<", ">", "-eq", "-ne", "-lt", "-le", "-gt", "-ge", "-nt", "-ot", "-ef"]

def kind? (word : List Char) : Option Kind :=
  match String.ofList word with
  | "!" => some .negation
  | "-a" => some .conjunction
  | "-o" => some .disjunction
  | "(" => some .open_
  | ")" => some .close
  | w =>
    if unarySigns.contains w then some .unary
    else if binarySigns.contains w then some .binary
    else none

/-- What the first of some words is. One that could be a sign with one operand is an operand itself
if nothing follows, or if a sign with two operands does. -/
def first? (words : List (List Char)) : Option Kind :=
  match words with
  | [] => none
  | word :: rest =>
    match kind? word with
    | some .unary =>
      match rest with
      | [] => none
      | [_] => some .unary
      | sign :: operand :: _ =>
        if kind? sign = some .binary ∧ operand ≠ [')'] then none else some .unary
    | some .open_ => if rest.isEmpty then none else some .open_
    | k => k

def number? (t : List Char) : Option Int :=
  let t := Sum.skipSpace t
  let (sign, rest) : Int × List Char := match t with
    | '-' :: rest => (-1, rest)
    | '+' :: rest => (1, rest)
    | rest => (1, rest)
  let digits := rest.takeWhile Char.isDigit
  if digits ≠ [] ∧ (Sum.skipSpace (rest.drop digits.length)).isEmpty then
    some (sign * Sum.ofDigits 10 digits)
  else none

def isProgram (names : List String) : Bool :=
  match names with
  | ["bin", _] | ["usr", "bin", _] | ["sbin", _] | ["usr", "sbin", _] => true
  | _ => false

def unary (tree : FileTree) (sign operand : List Char) : Bool :=
  let path : Path := ⟨spell operand⟩
  let names := (tree.locate path).toOption
  match sign with
  | ['-', 'n'] => operand ≠ []
  | ['-', 'z'] => operand = []
  | ['-', 'd'] => tree.isDir path
  | ['-', 'f'] => tree.isFile path && names ≠ some ["dev", "null"]
  | ['-', 'c'] => names = some ["dev", "null"]
  | ['-', 's'] =>
    match tree.node? path with
    | some (.file data _) => !data.isEmpty
    | some (.directory _) => true
    | none => false
  | ['-', 'x'] => tree.isDir path || names.any isProgram
  | ['-', c] => "erwOG".toList.contains c && tree.pathExists path
  | _ => false

def newer (tree : FileTree) (a b : List Char) : Bool :=
  match tree.node? ⟨spell a⟩, tree.node? ⟨spell b⟩ with
  | some (.file _ s), some (.file _ t) =>
    decide (t.seconds < s.seconds) || (s.seconds = t.seconds && decide (t.nanos < s.nanos))
  | some _, none => true
  | _, _ => false

/-- What a sign with two operands says. There is no answer if numbers are asked for and the operands
are none. -/
def binary (tree : FileTree) (sign a b : List Char) : Option Bool :=
  let onNumbers (f : Int → Int → Bool) : Option Bool := do return f (← number? a) (← number? b)
  match String.ofList sign with
  | "=" => some (a = b)
  | "!=" => some (a ≠ b)
  | "<" => some (a < b)
  | ">" => some (b < a)
  | "-eq" => onNumbers fun m n => m = n
  | "-ne" => onNumbers fun m n => m ≠ n
  | "-lt" => onNumbers fun m n => m < n
  | "-le" => onNumbers fun m n => m ≤ n
  | "-gt" => onNumbers fun m n => n < m
  | "-ge" => onNumbers fun m n => n ≤ m
  | "-nt" => some (newer tree a b)
  | "-ot" => some (newer tree b a)
  | _ => some (a = b)

mutual

/-- Conditions of which one has to hold. What is left begins with the last word that was used. -/
def anyOf (tree : FileTree) : Nat → List (List Char) → Option (Bool × List (List Char))
  | 0, _ => none
  | fuel + 1, words => do
    let (holds, words) ← allOf tree fuel words
    if first? (words.drop 1) = some .disjunction then
      let (more, words) ← anyOf tree fuel (words.drop 2)
      return (holds || more, words)
    else return (holds, words)

def allOf (tree : FileTree) : Nat → List (List Char) → Option (Bool × List (List Char))
  | 0, _ => none
  | fuel + 1, words => do
    let (holds, words) ← single tree fuel words
    if first? (words.drop 1) = some .conjunction then
      let (more, words) ← allOf tree fuel (words.drop 2)
      return (holds && more, words)
    else return (holds, words)

def single (tree : FileTree) : Nat → List (List Char) → Option (Bool × List (List Char))
  | 0, _ => none
  | _, [] => some (false, [])
  | fuel + 1, word :: rest =>
    match first? (word :: rest) with
    | some .negation =>
      match rest with
      | [] => some (true, [word])
      | rest => (single tree fuel rest).map fun r => (!r.1, r.2)
    | some .open_ =>
      if first? rest = some .close then some (false, rest)
      else
        match anyOf tree fuel rest with
        | some (holds, words) =>
          if first? (words.drop 1) = some .close then some (holds, words.drop 1) else none
        | none => none
    | some .unary =>
      match rest with
      | [] => none
      | operand :: _ => some (unary tree word operand, rest)
    | _ =>
      match rest with
      | sign :: operands =>
        if first? rest = some .binary then
          match operands with
          | [] => none
          | b :: _ => (binary tree sign word b).map fun holds => (holds, operands)
        else some (word ≠ [], word :: rest)
      | [] => some (word ≠ [], [word])

end

def evaluate (tree : FileTree) (words : List (List Char)) : Option Bool :=
  let run (words : List (List Char)) : Option Bool :=
    match anyOf tree (4 * words.length + 8) words with
    | some (_, _ :: _ :: _) => none
    | some (holds, _) => some holds
    | none => none
  match words with
  | [] => some false
  | [a, sign, b] =>
    if kind? sign = some .binary then binary tree sign a b
    else if a = ['('] ∧ b = [')'] then run [sign]
    else run words
  | [a, b, c, d] => if a = ['('] ∧ d = [')'] then run [b, c] else run words
  | words => run words

end Retest.Shell.Condition
