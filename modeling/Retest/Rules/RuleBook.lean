import Retest.FileTree
import Retest.Rules.Rule
import Retest.Text.Line
import Retest.Text.Utf8

namespace Retest

inductive RuleFileError where
  | unreadable (file : Path) (reason : FileError)
  | badPattern (file : Path) (line : Nat) (reason : Regex.SyntaxError)
  deriving Repr, DecidableEq

def RuleFileError.message : RuleFileError → String
  | .unreadable file reason => "failed to read filter file " ++ file.text ++ ": " ++ reason.message
  | .badPattern file line _ =>
    "invalid pattern on line " ++ toString line ++ " of " ++ file.text

def RuleFileError.fullMessage (e : RuleFileError) : String :=
  match e with
  | .unreadable _ reason => e.message ++ ": " ++ reason.message
  | .badPattern .. => e.message

/-- Rules and the file they are reloaded from. A book without a file keeps its rules. -/
structure RuleBook where
  file : Option Path := none
  rules : List Rule := []
  deriving Repr

namespace RuleBook

def readLines (file : Path) : Nat → List (List Char) → Except RuleFileError (List Rule)
  | _, [] => .ok []
  | number, line :: rest =>
    match Rule.ofLine line with
    | none => readLines file (number + 1) rest
    | some (.error reason) => .error (.badPattern file number reason)
    | some (.ok rule) => (readLines file (number + 1) rest).map (rule :: ·)

def readText (file : Path) (text : List Char) : Except RuleFileError (List Rule) :=
  readLines file 1 (textLines text)

/-- The rules in a file. A file that does not exist holds none. -/
def readFile (tree : FileTree) (file : Path) : Except RuleFileError (List Rule) :=
  if !tree.pathExists file then .ok []
  else
    match tree.read file with
    | .error reason => .error (.unreadable file reason)
    | .ok bytes =>
      match Utf8.decode? bytes with
      | none => .error (.unreadable file .notText)
      | some text => readText file text

/-- Reads the rules again. Where that fails, none is left. -/
def reload (tree : FileTree) (b : RuleBook) : RuleBook × Except RuleFileError Unit :=
  match b.file with
  | none => (b, .ok ())
  | some file =>
    match readFile tree file with
    | .ok rules => ({ b with rules }, .ok ())
    | .error e => ({ b with rules := [] }, .error e)

def reports (b : RuleBook) (name : String) : Bool := b.rules.any fun r => r.reports name

def acceptsNone (b : RuleBook) : Bool := b.rules.any Rule.isCatchAll

end RuleBook

end Retest
