import Retest.Run.Docket
import Retest.Run.Permits
import Retest.Run.Pool
import Retest.Run.Queue

/-! One shift of the engine, from its first push to its end: a queue, the loop that takes batches
off it, the permits, the worker connections, and the dispatches that are under way. Each function
here is one small step of one of them, so that every interleaving is a sequence of such steps. -/

namespace Retest

/-- Where a dispatch stands. It looks for an idle connection, or else has one made; the worker runs
the tests; the connection goes back, broken or not; and the permit sets out last. -/
inductive Stage where
  | starting
  | connecting
  | running (worker : WorkerId)
  | returning (worker : WorkerId) (broken : Bool)
  | leaving
  deriving Repr, DecidableEq

/-- A batch of tests on its way through a worker. Its errands come before its next step. -/
structure Dispatch where
  number : Nat
  docket : Docket
  stage : Stage := .starting
  errands : List Errand := []
  deriving Repr, DecidableEq

/-- A permit on its way back, under the number of the dispatch that had it. It is counted down by
then. Once it is settled that none is owed, it is sure to arrive, whatever is owed later. -/
structure Parting where
  number : Nat
  settled : Bool := false
  deriving Repr, DecidableEq

/-- Where the loop stands. It chooses the next batch, or holds one and waits for a permit (which it
may not have asked for yet). Once it is called off, it waits for the dispatches, sweeps out the
queue, and is over. -/
inductive Phase where
  | choosing
  | holding (session : SessionId) (tests : List String) (asked : Bool)
  | joining
  | sweeping
  | over
  deriving Repr, DecidableEq

structure Shift where
  queue : Queue := {}
  permits : Permits
  pool : Pool := {}
  cancelled : Bool := false
  phase : Phase := .choosing
  errands : List Errand := []
  dispatches : List Dispatch := []
  parting : List Parting := []
  started : Nat := 0
  retired : List WorkerId := []
  deriving Repr, Inhabited

namespace Shift

def ofPermits (permits : Permits) : Shift := { permits }

def ticket : Ticket := 0

/-- The loop looks for a batch. It gives up when it is called off or the queue is closed. -/
def fetch (s : Shift) (max : Nat) : Shift :=
  let queue := s.queue.leave
  if s.cancelled then { s with queue, phase := .joining }
  else
    match queue.ask max with
    | (queue, .closed) => { s with queue, phase := .joining }
    | (queue, .waiting) => { s with queue }
    | (queue, .batch []) => { s with queue }
    | (queue, .batch (e :: rest)) =>
      { s with queue, phase := .holding e.session ((e :: rest).map (·.test)) false }

def abandon (session : SessionId) (tests : List String) (now : Moment) : List Errand :=
  (({ session, tests } : Docket).cancelRemaining now).2

def launch (s : Shift) (session : SessionId) (tests : List String) : Shift :=
  { s with
    phase := .choosing
    started := s.started + 1
    dispatches := s.dispatches ++ [{ number := s.started, docket := { session, tests } }] }

def allow (s : Shift) (now : Moment) (session : SessionId) (tests : List String) (asked : Bool) :
    Shift :=
  let (permits, grant) :=
    if asked then s.permits.pollUnless s.cancelled ticket
    else s.permits.requestUnless s.cancelled ticket
  match grant with
  | .held => { s with permits }.launch session tests
  | .waiting => { s with permits, phase := .holding session tests true }
  | .refused =>
    { s with permits, phase := .joining, errands := s.errands ++ abandon session tests now }

def bySession (entries : List QueueEntry) : SortedMap SessionId (List String) :=
  entries.foldl (fun m e => m.insert e.session ((m.find? e.session).getD [] ++ [e.test])) .empty

/-- With all dispatches gone, the loop gives up what is still queued. -/
def sweep (s : Shift) (now : Moment) : Shift :=
  let (queue, left) := s.queue.drain
  let given := (bySession left).entries.flatMap fun e => abandon e.1 e.2 now
  { s with queue, phase := .sweeping, errands := s.errands ++ given }

/-- The loop lets go of the idle connections and is over. -/
def finish (s : Shift) : Shift :=
  let (pool, idle) := s.pool.shutdown
  { s with pool, phase := .over, retired := s.retired ++ idle }

def put (s : Shift) (d : Dispatch) : Shift :=
  { s with dispatches := s.dispatches.map fun c => if c.number = d.number then d else c }

def dispatch? (s : Shift) (number : Nat) : Option Dispatch :=
  s.dispatches.find? fun d => d.number = number

/-- A dispatch looks for an idle connection. Unhealthy ones are shut down on the way. -/
def checkout (s : Shift) (d : Dispatch) (healthy : WorkerId → Bool) : Shift :=
  let (pool, retired, found) := s.pool.reuse healthy
  let stage := match found with
    | some w => Stage.running w
    | none => .connecting
  { s with pool, retired := s.retired ++ retired }.put { d with stage }

def connected (s : Shift) (d : Dispatch) (w : WorkerId) : Shift :=
  { s with pool := s.pool.noteSpawned }.put { d with stage := .running w }

def failWith (d : Dispatch) (now : Moment) (notice reason : String) : Dispatch :=
  let (docket, errands) := d.docket.failRemaining now reason
  { d with
    docket
    errands := .publish (.diagnostic (some d.docket.session) notice) :: errands }

def unconnected (s : Shift) (d : Dispatch) (now : Moment) (e : WorkerError) : Shift :=
  s.put { failWith d now ("could not start worker: " ++ e.message) e.message with
    stage := .leaving }

def hear (s : Shift) (d : Dispatch) (now : Moment) (news : WorkerNews) : Shift :=
  let (docket, errands) := d.docket.hear now news
  s.put { d with docket, errands }

def conclude (s : Shift) (d : Dispatch) (now : Moment) (w : WorkerId)
    (result : Except WorkerError Unit) : Shift :=
  match result with
  | .ok () =>
    let (docket, errands) := d.docket.missRemaining now
    s.put { d with docket, errands, stage := .returning w false }
  | .error e =>
    s.put { failWith d now (w.text ++ ": " ++ e.message) e.message with
      stage := .returning w true }

def callOff (s : Shift) (d : Dispatch) (now : Moment) (w : WorkerId) : Shift :=
  let (docket, errands) := d.docket.cancelRemaining now
  s.put { d with docket, errands, stage := .returning w true }

/-- A connection goes back to the pool, which keeps it or shuts it down. -/
def checkin (s : Shift) (d : Dispatch) (w : WorkerId) (broken reusable healthy : Bool) : Shift :=
  let (pool, retire) := s.pool.checkin reusable healthy broken w
  let retired := if retire then s.retired ++ [w] else s.retired
  { s with pool, retired }.put { d with stage := .leaving }

def leave (s : Shift) (d : Dispatch) : Shift :=
  { s with
    permits := s.permits.countDown
    dispatches := s.dispatches.filter fun c => c.number ≠ d.number
    parting := s.parting ++ [{ number := d.number }] }

def parting? (s : Shift) (number : Nat) : Option Parting :=
  s.parting.find? fun c => c.number = number

def arrive (s : Shift) (c : Parting) : Shift :=
  { s with parting := s.parting.filter fun b => b.number ≠ c.number }

def destroy (s : Shift) (c : Parting) (permits : Permits) : Shift := { s with permits }.arrive c

/-- A permit on its way back may go on, as none is owed. -/
def pass (s : Shift) (c : Parting) : Shift :=
  { s with
    parting := s.parting.map fun b =>
      if b.number = c.number then { b with settled := true } else b }

def giveBack (s : Shift) (c : Parting) : Shift :=
  { s with permits := s.permits.giveBack 1 }.arrive c

end Shift

end Retest
