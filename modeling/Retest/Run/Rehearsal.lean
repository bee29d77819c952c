import Retest.Run.Crew

/-! Workers that act by a script, to rehearse the engine without processes. The script tells what
happens to each test; a test can be held until it is released. -/

namespace Retest

inductive Deed where
  | report (outcome : Outcome)
  | skip
  | endBatch
  | die (e : WorkerError)
  | sicken
  | reportTwice
  | reportOther (test : String)
  | hold
  deriving Repr, DecidableEq

/-- The part of a test in the script. An untimed test is not reported to begin. -/
structure Part where
  deed : Deed := .report .pass
  diagnostic : Option Diagnostic := none
  untimed : Bool := false
  deriving Repr, DecidableEq, Inhabited

/-- A worker in the middle of a batch: what it says next, the tests behind that, and the test it
holds. -/
structure Performer where
  worker : WorkerId
  lines : List Utterance
  rest : List String
  held : Option String
  deriving Repr

inductive CrewEntry where
  | dispatched (worker : WorkerId) (tests : List String)
  | dismissed (worker : WorkerId)
  deriving Repr, DecidableEq

structure Rehearsal where
  script : SortedMap String Part := .empty
  refusals : List (Nat × WorkerError) := []
  attempts : Nat := 0
  connected : Nat := 0
  sick : List WorkerId := []
  performers : List Performer := []
  diary : List CrewEntry := []
  deriving Repr, Inhabited

namespace Rehearsal

def partOf (r : Rehearsal) (test : String) : Part := (r.script.find? test).getD {}

def connect (r : Rehearsal) : Rehearsal × Except WorkerError WorkerId :=
  let n := r.attempts + 1
  match r.refusals.find? fun e => e.1 = n with
  | some (_, error) => ({ r with attempts := n }, .error error)
  | none => ({ r with attempts := n, connected := r.connected + 1 }, .ok ⟨r.connected + 1⟩)

def healthy (r : Rehearsal) (w : WorkerId) : Bool := !r.sick.contains w

def put (r : Rehearsal) (p : Performer) : Rehearsal :=
  { r with performers := p :: r.performers.filter fun q => q.worker ≠ p.worker }

def drop (r : Rehearsal) (w : WorkerId) : Rehearsal :=
  { r with performers := r.performers.filter fun q => q.worker ≠ w }

def yieldHold (r : Rehearsal) (test : String) : Rehearsal :=
  { r with performers := r.performers.map fun p =>
      if p.held = some test then
        { p with lines := [.tells (.finished test .pass none)], held := none }
      else p }

def linesOf (test : String) (part : Part) : List Utterance :=
  let start : List Utterance := if part.untimed then [] else [.tells (.started test)]
  match part.deed with
  | .report outcome => start ++ [.tells (.finished test outcome part.diagnostic)]
  | .skip => start
  | .endBatch => start ++ [.ends (.ok ())]
  | .die e => start ++ [.ends (.error e)]
  | .sicken => start ++ [.tells (.finished test .pass none)]
  | .reportTwice =>
    start ++ [.tells (.started test), .tells (.finished test .fail none),
      .tells (.finished test .pass none)]
  | .reportOther other =>
    start ++ [.tells (.started other), .tells (.finished other .error part.diagnostic)]
  | .hold => [.tells (.started test)]

def play (r : Rehearsal) (p : Performer) (test : String) (part : Part) : Rehearsal :=
  let r := if part.deed = .hold then r.yieldHold test else r
  let r := if part.deed = .sicken then { r with sick := p.worker :: r.sick } else r
  let held := if part.deed = .hold then some test else none
  r.put { p with lines := linesOf test part, held }

def speak (r : Rehearsal) (w : WorkerId) : List String → Rehearsal × Utterance
  | [] => (r.drop w, .ends (.ok ()))
  | test :: rest =>
    let part := r.partOf test
    match linesOf test part with
    | [] => speak r w rest
    | line :: more =>
      let p : Performer := { worker := w, lines := [], rest, held := none }
      let r := r.play p test part
      match line with
      | .ends _ => (r.drop w, line)
      | _ =>
        ({ r with performers := r.performers.map fun q =>
            if q.worker = w then { q with lines := more } else q }, line)

def listen (r : Rehearsal) (w : WorkerId) (tests : List String) : Rehearsal × Utterance :=
  match r.performers.find? fun p => p.worker = w with
  | none => speak { r with diary := r.diary ++ [.dispatched w tests] } w tests
  | some p =>
    match p.lines with
    | .ends result :: _ => (r.drop w, .ends result)
    | line :: more => (r.put { p with lines := more }, line)
    | [] => if p.held.isSome then (r, .silent) else r.speak w p.rest

def pauses (r : Rehearsal) (w : WorkerId) : Bool :=
  match r.performers.find? fun p => p.worker = w with
  | none => false
  | some p => p.lines.isEmpty && p.held.isSome

def dismiss (r : Rehearsal) (w : WorkerId) : Rehearsal :=
  { r.drop w with diary := r.diary ++ [.dismissed w] }

/-- Releases a held test with a new part. The second part says whether such a test was held. -/
def release (r : Rehearsal) (test : String) (part : Part) : Rehearsal × Bool :=
  match r.performers.find? fun p => p.held = some test with
  | none => (r, false)
  | some p => (r.play { p with held := none } test part, true)

def heldTests (r : Rehearsal) : List String :=
  (SortedSet.ofList (r.performers.filterMap (·.held))).toList

def crew : Crew Rehearsal := { connect, healthy, pauses, listen, dismiss }

end Rehearsal

end Retest
