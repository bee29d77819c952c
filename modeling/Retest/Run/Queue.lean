import Retest.Run.Priority

/-! Tests that wait for a worker. Each push is sorted once and appended; entries leave in that
order. A bell tells the one reader that something was pushed or that the queue was closed. -/

namespace Retest

structure QueueEntry where
  session : SessionId
  test : String
  deriving Repr, DecidableEq

/-- The state of the bell: silent, rung with nobody there to hear it, waited for, or rung for a
reader that has not come back yet. -/
inductive Bell where
  | silent
  | rung
  | awaited
  | heard
  deriving Repr, DecidableEq, Inhabited

namespace Bell

/-- Rings once. A ring that nobody waits for is kept, but only one. -/
def ring : Bell → Bell
  | .silent | .rung => .rung
  | .awaited | .heard => .heard

/-- A reader that stops waiting passes on a ring that it has not answered. -/
def leave : Bell → Bell
  | .silent | .awaited => .silent
  | .rung | .heard => .rung

end Bell

structure Queue where
  entries : List QueueEntry := []
  closed : Bool := false
  bell : Bell := .silent
  deriving Repr, DecidableEq, Inhabited

/-- What a reader gets: a batch, the news that the queue is closed, or nothing yet. -/
inductive Delivery where
  | batch (entries : List QueueEntry)
  | closed
  | waiting
  deriving Repr, DecidableEq

namespace Queue

def isEmpty (q : Queue) : Bool := q.entries.isEmpty

def append (q : Queue) (session : SessionId) (tests : List String) : Queue :=
  { q with entries := q.entries ++ tests.map fun test => { session, test } }

def ring (q : Queue) : Queue := { q with bell := q.bell.ring }

/-- Sorts the tests of a session, appends them and rings. Nothing happens without tests. -/
def push (q : Queue) (p : Priority) (h : History) (session : SessionId) (tests : List String) :
    Queue :=
  if tests = [] then q else (q.append session (p.sort h tests)).ring

def frontOf (session : SessionId) : Nat → List QueueEntry → List QueueEntry
  | 0, _ => []
  | _, [] => []
  | max + 1, e :: rest => if e.session = session then e :: frontOf session max rest else []

/-- The entries that leave next: those of the first one's session, one at least if there is any. -/
def nextBatch (max : Nat) (entries : List QueueEntry) : List QueueEntry :=
  match entries with
  | [] => []
  | e :: _ => frontOf e.session (Nat.max max 1) entries

def pop (q : Queue) (max : Nat) : Queue × List QueueEntry :=
  let batch := nextBatch max q.entries
  ({ q with entries := q.entries.drop batch.length }, batch)

/-- Looks for a batch without waiting. A closed queue gives none. -/
def look (q : Queue) (max : Nat) : Queue × Delivery :=
  if q.closed then (q, .closed)
  else
    match q.pop max with
    | (_, []) => (q, .waiting)
    | (q, batch) => (q, .batch batch)

/-- A reader asks for a batch and waits for the bell if there is none. A ring that was kept only
makes it look once more. -/
def ask (q : Queue) (max : Nat) : Queue × Delivery :=
  match q.look max with
  | (q, .waiting) => ({ q with bell := .awaited }, .waiting)
  | r => r

/-- A waiting reader looks again if it heard the bell. -/
def resume (q : Queue) (max : Nat) : Queue × Delivery :=
  match q.bell with
  | .heard => { q with bell := .silent }.ask max
  | _ => (q, .waiting)

def leave (q : Queue) : Queue := { q with bell := q.bell.leave }

/-- Closes the queue for readers. What is queued can only be drained. -/
def close (q : Queue) : Queue := { q with closed := true }.ring

def drain (q : Queue) : Queue × List QueueEntry := ({ q with entries := [] }, q.entries)

end Queue

end Retest
