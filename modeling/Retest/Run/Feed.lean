import Retest.Collection.SortedMap
import Retest.Run.Outcome

/-! Run events and the sessions they belong to. Every event goes to all subscribers; a session ends
with a summary once each of its tests has a result. -/

namespace Retest

inductive Event where
  | started (session : SessionId) (test : String)
  | finished (result : TestResult)
  | complete (session : SessionId) (summary : Summary)
  | diagnostic (session : Option SessionId) (message : String)
  deriving Repr, DecidableEq

def Event.session? : Event → Option SessionId
  | .started s _ => some s
  | .finished r => some r.session
  | .complete s _ => some s
  | .diagnostic s _ => s

structure OpenSession where
  remaining : Nat
  summary : Summary
  deriving Repr, DecidableEq

/-- All events that were published, in order, the open sessions, and how many sessions there were.
Subscribers can go back over the last `capacity` events. -/
structure Feed where
  capacity : Nat
  published : Array Event := #[]
  sessions : SortedMap SessionId OpenSession := .empty
  opened : Nat := 0
  deriving Repr

def powerAtLeast (n : Nat) : Nat := if n ≤ 1 then 1 else Nat.pow 2 (Nat.log2 (n - 1) + 1)

inductive Receipt where
  | lagged (count : Nat)
  | event (e : Event)
  deriving Repr, DecidableEq

namespace Feed

def ofCapacity (n : Nat) : Feed := { capacity := powerAtLeast (Nat.max n 1) }

def maxCapacity : Nat := Nat.pow 2 63 - 1

/-- A new feed, if there is room for as many events. -/
def create? (n : Nat) : Option Feed :=
  if Nat.max n 1 ≤ maxCapacity then some (ofCapacity n) else none

instance : Inhabited Feed := ⟨ofCapacity 1⟩

def openCount (f : Feed) : Nat := f.sessions.size

def publish (f : Feed) (e : Event) : Feed := { f with published := f.published.push e }

/-- Opens a session for so many results. Sessions are numbered from 1. -/
def openSession (f : Feed) (count : Nat) (now : Moment) : Feed × SessionId :=
  let id := f.opened + 1
  let fresh : OpenSession := ⟨count, { startedAt := now }⟩
  ({ f with opened := id, sessions := f.sessions.insert id fresh }, id)

/-- Counts a result of an open session. The session closes with its last result; its summary is the
second part then. Sessions that are not open are passed over. -/
def countDown (f : Feed) (session : SessionId) (outcome : Outcome) : Feed × Option Summary :=
  match f.sessions.find? session with
  | none => (f, none)
  | some s =>
    let summary := s.summary.record outcome
    if s.remaining ≤ 1 then ({ f with sessions := f.sessions.erase session }, some summary)
    else
      let next : OpenSession := ⟨s.remaining - 1, summary⟩
      ({ f with sessions := f.sessions.insert session next }, none)

def started (f : Feed) (session : SessionId) (test : String) : Feed :=
  f.publish (.started session test)

def diagnostic (f : Feed) (session : Option SessionId) (message : String) : Feed :=
  f.publish (.diagnostic session message)

def tail (f : Feed) : Nat := f.published.size

/-- What a subscriber gets who has seen the first `seen` events. Events that are too far back are
only counted. -/
def receive (f : Feed) (seen : Nat) : List Receipt :=
  let missed := f.published.size - f.capacity
  if seen < missed then
    .lagged (missed - seen) :: (f.published.toList.drop missed).map .event
  else (f.published.toList.drop seen).map .event

end Feed

end Retest
