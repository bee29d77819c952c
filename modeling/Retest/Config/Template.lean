import Retest.Text.Line
import Retest.Unicode.Letter

namespace Retest

structure Environment where
  vars : List (String × String) := []
  deriving Repr, DecidableEq

namespace Environment

def find? (env : Environment) (name : String) : Option String :=
  (env.vars.find? fun e => e.1 = name).map (·.2)

def home? (env : Environment) : Option String :=
  (env.find? "HOME").filter fun dir => dir ≠ ""

def set (env : Environment) (name value : String) : Environment :=
  ⟨(name, value) :: env.vars⟩

end Environment

def isVariableChar (c : Char) : Bool :=
  c = '_' || Unicode.letterOrNumber.contains c

def variableNames (s : List Char) : List String :=
  let (names, last) := s.foldr (fun c (acc : List String × List Char) =>
    if isVariableChar c then (acc.1, c :: acc.2)
    else if acc.2 = [] then acc
    else (String.ofList acc.2 :: acc.1, [])) ([], [])
  if last = [] then names else String.ofList last :: names

/-- The value of what stands between braces: a name, and perhaps a text that replaces an unset
variable. The text is not expanded. An unset variable is the error. -/
def bracedValue (env : Environment) (inside : List Char) : Except String (List Char) :=
  let (name, standIn) : List Char × Option (List Char) :=
    match cutAt? [':', '-'] inside with
    | some ([], _) | none => (inside, none)
    | some (name, text) => (name, some text)
  match env.find? (String.ofList name), standIn with
  | some value, _ => .ok value.toList
  | none, some text => .ok text
  | none, none => .error (String.ofList name)

/-- Replaces the variables of a text. Two dollar signs stand for one; one that starts no name, and
an opening brace that nothing closes, stand for themselves. -/
def replaceVariables (env : Environment) : Nat → List Char → Except String (List Char)
  | 0, s => .ok s
  | _, [] => .ok []
  | fuel + 1, '$' :: rest =>
    match rest with
    | '$' :: rest => (replaceVariables env fuel rest).map ('$' :: ·)
    | '\x7b' :: rest =>
      let inside := rest.takeWhile (· ≠ '\x7d')
      match rest.drop inside.length with
      | [] => (replaceVariables env fuel rest).map (['$', '\x7b'] ++ ·)
      | _ :: after =>
        match bracedValue env inside with
        | .error name => .error name
        | .ok value => (replaceVariables env fuel after).map (value ++ ·)
    | _ =>
      match rest.takeWhile isVariableChar with
      | [] => (replaceVariables env fuel rest).map ('$' :: ·)
      | name =>
        match env.find? (String.ofList name) with
        | none => .error (String.ofList name)
        | some value =>
          (replaceVariables env fuel (rest.dropWhile isVariableChar)).map (value.toList ++ ·)
  | fuel + 1, c :: rest => (replaceVariables env fuel rest).map (c :: ·)

def replaceHome (env : Environment) (s : List Char) : List Char :=
  match s, env.home? with
  | ['~'], some home => home.toList
  | '~' :: '/' :: rest, some home => home.toList ++ '/' :: rest
  | s, _ => s

/-- Expands a text: vars, then the home directory. A tilde that comes out of a variable stands
for itself. The error is the name of a variable that is not set. -/
def expandText (env : Environment) (text : String) : Except String String :=
  let s := text.toList
  (replaceVariables env (s.length + 1) s).map fun t =>
    let own := s.head? = some '~' || t.head? ≠ some '~'
    String.ofList (if own then replaceHome env t else t)

end Retest
