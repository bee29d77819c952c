import Retest.Run.Feed
import Retest.Text.Line

namespace Retest

inductive Style where
  | bold
  | dimmed
  | red
  | green
  | yellow
  | blue
  | cyan
  deriving Repr, DecidableEq

def Style.code : Style → String
  | .bold => "1"
  | .dimmed => "2"
  | .red => "31"
  | .green => "32"
  | .yellow => "33"
  | .blue => "34"
  | .cyan => "36"

def styleEnd : List Char := ['\x1b', '[', '0', 'm']

def restyle (again : List Char) : List Char → List Char
  | [] => []
  | c :: rest =>
    if styleEnd.isPrefixOf (c :: rest) then
      c :: (restyleTail again 3 rest)
    else c :: restyle again rest
where
  restyleTail (again : List Char) : Nat → List Char → List Char
    | 0, s => again ++ restyle again s
    | _, [] => again
    | n + 1, c :: rest => c :: restyleTail again n rest

structure Screen where
  colored : Bool := false
  deriving Repr, DecidableEq

namespace Screen

/-- A text in a style. A style that ends inside it takes up again behind that. -/
def paint (s : Screen) (style : Style) (t : String) : String :=
  if s.colored then
    let start := "\x1b[" ++ style.code ++ "m"
    start ++ String.ofList (restyle start.toList t.toList) ++ String.ofList styleEnd
  else t

def paintBold (s : Screen) (style : Style) (t : String) : String :=
  if s.colored then
    let start := "\x1b[1;" ++ style.code ++ "m"
    start ++ String.ofList (restyle start.toList t.toList) ++ String.ofList styleEnd
  else t

def outcomeStyle : Outcome → Style
  | .pass => .green
  | .notRun => .dimmed
  | .fail | .error | .crashed => .red

def stackLines : Nat := 8

def resultText (s : Screen) (r : TestResult) : String :=
  let duration := match r.duration with
    | none => ""
    | some ms => " (" ++ toString ms ++ " ms)"
  let head := "  " ++ s.paint (outcomeStyle r.outcome) r.outcome.symbol ++ " " ++ r.test ++
    s.paint .dimmed duration ++ "\n"
  let detail := match r.diagnostic with
    | none => ""
    | some d =>
      if r.outcome.isPass then ""
      else
        let lines := ((d.stack.map fun t => textLines t.toList).getD []).take stackLines
        "      " ++ s.paint .red d.message ++ "\n" ++
          String.join (lines.map fun l => "      " ++ s.paint .dimmed (String.ofList l) ++ "\n")
  head ++ detail

def summaryText (s : Screen) (m : Summary) : String :=
  let duration := match m.duration with
    | none => ""
    | some ms => " in " ++ toString ms ++ " ms"
  if m.allPassed then
    "\n" ++ s.paint .green "✓" ++ " " ++ s.paint .green (toString m.passed) ++ " test(s) passed" ++
      duration ++ "\n"
  else
    "\n" ++ s.paint .red "✗" ++ " " ++ s.paint .green (toString m.passed) ++ " passed, " ++
      s.paint .red (toString m.failed) ++ " failed, " ++ s.paint .red (toString m.errors) ++
      " errors, " ++ s.paint .red (toString m.crashed) ++ " crashed, " ++ toString m.notRun ++
      " not run" ++ duration ++ "\n"

def noticeText (s : Screen) (message : String) : String :=
  s.paint .yellow "⚠" ++ " " ++ s.paint .yellow message ++ "\n"

def eventText (s : Screen) : Event → String
  | .started .. => ""
  | .finished r => s.resultText r
  | .complete _ m => s.summaryText m
  | .diagnostic _ message => s.noticeText message

end Screen

end Retest
