import Retest.Text.Calendar
import Retest.Text.Json

namespace Retest

/-- How a test ended. A crashed test was running when its worker went away; one that was not run
never started, or its run was called off. -/
inductive Outcome where
  | pass
  | fail
  | error
  | crashed
  | notRun
  deriving Repr, DecidableEq, Inhabited

namespace Outcome

def word : Outcome → String
  | .pass => "pass"
  | .fail => "fail"
  | .error => "error"
  | .crashed => "crashed"
  | .notRun => "not_run"

def all : List Outcome := [.pass, .fail, .error, .crashed, .notRun]

def ofWord? (s : String) : Option Outcome := all.find? fun o => o.word = s

def symbol : Outcome → String
  | .pass => "✓"
  | .fail => "✗"
  | .error => "!"
  | .crashed => "☠"
  | .notRun => "○"

def isPass (o : Outcome) : Bool := o = .pass

def isFailure : Outcome → Bool
  | .fail | .error | .crashed => true
  | .pass | .notRun => false

/-- The outcome that a JSON value names: its word, or an object whose only entry puts null under the
word. -/
def ofJson? : Json → Option Outcome
  | .string (some s) => ofWord? (String.ofList s)
  | .object [(some key, .null)] => ofWord? (String.ofList key)
  | _ => none

end Outcome

structure Diagnostic where
  message : String
  stack : Option String := none
  deriving Repr, DecidableEq

namespace Diagnostic

def text? : Json → Option String
  | .string (some s) => some (String.ofList s)
  | _ => none

def optionalText? : Json → Option (Option String)
  | .null => some none
  | .string (some s) => some (some (String.ofList s))
  | _ => none

/-- The diagnostic that a JSON value holds: an object with a message and perhaps a stack, each of
them once, or an array of the two. Other entries are passed over. -/
def ofJson? : Json → Option Diagnostic
  | .object entries =>
    if entries.any fun e => e.1.isNone then none
    else
      match Json.valuesOf entries "message", Json.valuesOf entries "stack" with
      | [m], [] => (text? m).map fun message => { message }
      | [m], [s] => do
        let message ← text? m
        let stack ← optionalText? s
        return { message, stack }
      | _, _ => none
  | .array [m] => (text? m).map fun message => { message }
  | .array [m, s] => do
    let message ← text? m
    let stack ← optionalText? s
    return { message, stack }
  | _ => none

def toJson (d : Diagnostic) : Json :=
  .ofFields [("message", .ofString d.message), ("stack", .ofOption .ofString d.stack)]

end Diagnostic

abbrev SessionId := Nat

def hexText : Nat → Nat → List Char
  | 0, _ => []
  | width + 1, n => hexText width (n / 16) ++ [Nat.digitChar (n % 16)]

/-- A session number in the form of a 128-bit identifier: groups of 8, 4, 4, 4 and 12 digits. -/
def sessionText (id : SessionId) : String :=
  let part (width shift : Nat) : String := String.ofList (hexText width (id / Nat.pow 16 shift))
  "-".intercalate [part 8 24, part 4 20, part 4 16, part 4 12, part 12 0]

structure TestResult where
  session : SessionId
  test : String
  outcome : Outcome
  diagnostic : Option Diagnostic := none
  duration : Option Nat := none
  finishedAt : Moment := ⟨0⟩
  deriving Repr, DecidableEq

def TestResult.toJson (r : TestResult) : Json :=
  .ofFields [("session_id", .ofString (sessionText r.session)), ("test_name", .ofString r.test),
    ("outcome", .ofString r.outcome.word), ("diagnostic", .ofOption Diagnostic.toJson r.diagnostic),
    ("duration_ms", .ofOption .ofNat r.duration), ("finished_at", .ofString r.finishedAt.text)]

structure Summary where
  passed : Nat := 0
  failed : Nat := 0
  errors : Nat := 0
  crashed : Nat := 0
  notRun : Nat := 0
  startedAt : Moment := ⟨0⟩
  finishedAt : Option Moment := none
  deriving Repr, DecidableEq, Inhabited

namespace Summary

def record (s : Summary) : Outcome → Summary
  | .pass => { s with passed := s.passed + 1 }
  | .fail => { s with failed := s.failed + 1 }
  | .error => { s with errors := s.errors + 1 }
  | .crashed => { s with crashed := s.crashed + 1 }
  | .notRun => { s with notRun := s.notRun + 1 }

def total (s : Summary) : Nat := s.passed + s.failed + s.errors + s.crashed + s.notRun

def allPassed (s : Summary) : Bool := s.passed = s.total

/-- Milliseconds from start to end; negative if the clock went back. -/
def duration (s : Summary) : Option Int :=
  s.finishedAt.map fun t => t.millis - s.startedAt.millis

def toJson (s : Summary) : Json :=
  .ofFields [("passed", .ofNat s.passed), ("failed", .ofNat s.failed), ("errors", .ofNat s.errors),
    ("crashed", .ofNat s.crashed), ("not_run", .ofNat s.notRun),
    ("started_at", .ofString s.startedAt.text),
    ("finished_at", .ofOption (fun t : Moment => .ofString t.text) s.finishedAt)]

end Summary

end Retest
