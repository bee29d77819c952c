import Retest.Collection.SortedMap
import Retest.Run.Outcome

namespace Retest

/-- The last run of a test: whether something was wrong, and how many milliseconds it took. -/
structure LastRun where
  failed : Bool
  duration : Option Nat
  deriving Repr, DecidableEq

structure History where
  runs : SortedMap String LastRun := .empty
  deriving Repr, DecidableEq, Inhabited

namespace History

def size (h : History) : Nat := h.runs.size

/-- Notes a result. A test that was not run says nothing new. -/
def record (h : History) (test : String) (outcome : Outcome) (duration : Option Nat) : History :=
  match outcome with
  | .notRun => h
  | _ => ⟨h.runs.insert test ⟨outcome.isFailure, duration⟩⟩

def lastFailed (h : History) (test : String) : Bool := (h.runs.find? test).any (·.failed)

def lastDuration (h : History) (test : String) : Option Nat :=
  (h.runs.find? test).bind (·.duration)

end History

/-- Where a test stands in fail-fast order: tests that failed come first, then those without a known
duration, then the faster ones. -/
structure Urgency where
  passed : Bool
  duration : Option Nat
  deriving Repr, DecidableEq

namespace Urgency

def ofHistory (h : History) (test : String) : Urgency :=
  match h.runs.find? test with
  | some run => ⟨!run.failed, run.duration⟩
  | none => ⟨true, none⟩

def compareDuration : Option Nat → Option Nat → Ordering
  | none, none => .eq
  | none, some _ => .lt
  | some _, none => .gt
  | some a, some b => compare a b

def order (a b : Urgency) : Ordering :=
  (compare a.passed b.passed).then (compareDuration a.duration b.duration)

end Urgency

end Retest
