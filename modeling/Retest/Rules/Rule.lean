import Retest.Regex.Syntax
import Retest.Text.Blank

namespace Retest

inductive RuleKind where
  | plain
  | includes
  | excludes
  deriving Repr, DecidableEq, Inhabited

/-- Whether a rule reports a name, given whether its pattern matched. Excluding rules report the
names that do not match. -/
def RuleKind.reports : RuleKind → Bool → Bool
  | .plain, matched | .includes, matched => matched
  | .excludes, matched => !matched

structure Rule where
  kind : RuleKind
  source : String
  pattern : Regex.Pattern
  deriving Repr, DecidableEq

namespace Rule

/-- The text that is compiled for a source. It anchors what the source says at the start of a name,
and it is a text: a parenthesis in the source can close the group that was meant to hold it. -/
def anchored (source : List Char) : List Char := "^(?:".toList ++ source ++ [')']

def ofSource (kind : RuleKind) (source : String) : Except Regex.SyntaxError Rule :=
  (Regex.Pattern.ofText (anchored source.toList)).map fun pattern => { kind, source, pattern }

/-- Whether a line of a rules file says nothing: it is blank or a comment. -/
def isIdleLine (line : List Char) : Bool :=
  line.all isBlank || line.head? = some '!' || line.head? = some '#'

/-- The kind and the source on a line. Two marks and a blank at its start name the kind. -/
def splitLine : List Char → RuleKind × List Char
  | '+' :: '+' :: ' ' :: rest => (.includes, rest)
  | '-' :: '-' :: ' ' :: rest => (.excludes, rest)
  | line => (.plain, line)

def ofLine (line : List Char) : Option (Except Regex.SyntaxError Rule) :=
  if isIdleLine line then none
  else some (ofSource (splitLine line).1 (String.ofList (splitLine line).2))

def reports (r : Rule) (name : String) : Bool := r.kind.reports (r.pattern.matchesIn name.toList)

def occursIn (part : List Char) : List Char → Bool
  | [] => part = []
  | c :: rest => part.isPrefixOf (c :: rest) || occursIn part rest

/-- Spellings of assertions that can fail behind an empty match. -/
def riskyAssertions : List (List Char) := [['$'], ['\\', 'b'], ['\\', 'B'], ['\\', 'z']]

/-- Whether a rule is known to report every name: its pattern matches the empty text, and nothing in
its source asserts an end or the border of a word. -/
def isCatchAll (r : Rule) : Bool :=
  match r.kind with
  | .excludes => false
  | .plain | .includes =>
    r.pattern.matchesIn [] && !riskyAssertions.any fun a => occursIn a r.source.toList

end Rule

end Retest
