import Retest.Run.Shift

/-! The engine: it starts a shift with the first push and another one after it was shut down. Its
behaviour is a set of small actions, each of which is possible in some states only. What workers do
comes in from outside, as part of the action. -/

namespace Retest

/-- How the engine is set up. Batches have `batchSize` tests at most, and one at least. -/
structure EngineSettings where
  batchSize : Nat := 1
  priority : Priority := .failFast
  reusable : Bool := false
  deriving Inhabited

/-- The latest shift comes first. `idle` holds the bound before there is any shift. A push is midway
while its session is open and its tests are not queued yet. -/
structure Engine where
  settings : EngineSettings
  desk : Desk
  idle : Permits
  shifts : List Shift := []
  midway : Option (SessionId × List String) := none
  deriving Inhabited

/-- One step of the engine. Shifts are told apart by their place, dispatches by their number. -/
inductive Action where
  | openSession (tests : List String)
  | push
  | setLimit (n : Nat)
  | cancel
  | closeQueue (shift : Nat)
  | closePermits (shift : Nat)
  | fetch (shift : Nat)
  | allow (shift : Nat)
  | sweep (shift : Nat)
  | finish (shift : Nat)
  | deliver (shift : Nat)
  | checkout (shift dispatch : Nat) (healthy : WorkerId → Bool)
  | connected (shift dispatch : Nat) (result : Except WorkerError WorkerId)
  | hear (shift dispatch : Nat) (news : WorkerNews)
  | conclude (shift dispatch : Nat) (result : Except WorkerError Unit)
  | callOff (shift dispatch : Nat)
  | checkin (shift dispatch : Nat) (healthy : Bool)
  | leave (shift dispatch : Nat)
  | destroy (shift dispatch : Nat)
  | pass (shift dispatch : Nat)
  | giveBack (shift dispatch : Nat)
  | deliverFor (shift dispatch : Nat)

def distinctNames (l : List String) : List String :=
  (l.foldl (fun acc n => if acc.contains n then acc else n :: acc) []).reverse

namespace Engine

def ofSettings (settings : EngineSettings) (limit capacity : Nat) : Engine :=
  { settings, desk := { feed := .ofCapacity capacity }, idle := .ofLimit limit }

/-- A new engine, if there can be as many permits and as many events to go back over. -/
def create? (settings : EngineSettings) (limit capacity : Nat) : Option Engine := do
  let idle ← Permits.create? limit
  let feed ← Feed.create? capacity
  return { settings, desk := { feed }, idle }

def permits (e : Engine) : Permits :=
  match e.shifts with
  | [] => e.idle
  | s :: _ => s.permits

def isStarted (e : Engine) : Bool :=
  match e.shifts with
  | [] => false
  | s :: _ => !s.cancelled

/-- Whether tests can be run: a shift is on, or a new one can begin with the limit in force. -/
def canRun (e : Engine) : Bool := e.isStarted || (Permits.create? e.permits.limit).isSome

def concurrency (e : Engine) : Nat := e.permits.limit

def inFlight (e : Engine) : Nat := e.permits.inFlight

def shift? (e : Engine) (k : Nat) : Option Shift := e.shifts[k]?

def putShift (e : Engine) (k : Nat) (s : Shift) : Engine := { e with shifts := e.shifts.set k s }

def ensureShift (e : Engine) : Engine :=
  if e.isStarted then e
  else { e with shifts := .ofPermits (.ofLimit e.permits.limit) :: e.shifts }

def openSession (e : Engine) (now : Moment) (tests : List String) : Engine :=
  let e := e.ensureShift
  let (feed, id) := e.desk.feed.openSession tests.length now
  { e with desk := { e.desk with feed }, midway := some (id, tests) }

def push (e : Engine) (session : SessionId) (tests : List String) : Engine :=
  match e.shifts with
  | [] => e
  | s :: rest =>
    let queue := s.queue.push e.settings.priority e.desk.history session tests
    { e with shifts := { s with queue } :: rest, midway := none }

def setLimit (e : Engine) (n : Nat) : Engine :=
  match e.shifts with
  | [] => { e with idle := e.idle.setLimit n }
  | s :: rest => { e with shifts := { s with permits := s.permits.setLimit n } :: rest }

/-- Lets the loop of a shift do one step, if its errands are done. -/
def onLoop (e : Engine) (k : Nat) (step : Shift → Option Shift) : Option Engine :=
  match e.shift? k with
  | none => none
  | some s => if s.errands = [] then (step s).map (e.putShift k) else none

def onDispatch (e : Engine) (k n : Nat) (step : Shift → Dispatch → Option Shift) : Option Engine :=
  match e.shift? k with
  | none => none
  | some s =>
    match s.dispatch? n with
    | none => none
    | some d => if d.errands = [] then (step s d).map (e.putShift k) else none

def onParting (e : Engine) (k n : Nat) (step : Shift → Parting → Option Shift) : Option Engine :=
  match e.shift? k with
  | none => none
  | some s =>
    match s.parting? n with
    | none => none
    | some c => (step s c).map (e.putShift k)

def act (e : Engine) (now : Moment) : Action → Option Engine
  | .openSession tests =>
    if e.midway.isSome || distinctNames tests = [] || !e.canRun then none
    else some (e.openSession now (distinctNames tests))
  | .push =>
    match e.midway with
    | none => none
    | some (session, tests) => some (e.push session tests)
  | .setLimit n => some (e.setLimit n)
  | .cancel =>
    match e.shifts with
    | [] => none
    | s :: rest =>
      if e.midway.isSome || s.cancelled then none
      else some { e with shifts := { s with cancelled := true } :: rest }
  | .closeQueue k =>
    match e.shift? k with
    | none => none
    | some s =>
      if s.cancelled && !s.queue.closed then some (e.putShift k { s with queue := s.queue.close })
      else none
  | .closePermits k =>
    match e.shift? k with
    | none => none
    | some s =>
      if s.queue.closed && !s.permits.closed then
        some (e.putShift k { s with permits := s.permits.close })
      else none
  | .fetch k =>
    e.onLoop k fun s =>
      if s.phase = .choosing then some (s.fetch e.settings.batchSize) else none
  | .allow k =>
    e.onLoop k fun s =>
      match s.phase with
      | .holding session tests asked => some (s.allow now session tests asked)
      | _ => none
  | .sweep k =>
    e.onLoop k fun s =>
      if s.phase = .joining && s.dispatches.isEmpty && s.parting.isEmpty then some (s.sweep now)
      else none
  | .finish k => e.onLoop k fun s => if s.phase = .sweeping then some s.finish else none
  | .deliver k =>
    match e.shift? k with
    | none => none
    | some s =>
      match s.errands with
      | [] => none
      | x :: rest =>
        let (desk, more) := e.desk.deliver now x
        some ({ e with desk }.putShift k { s with errands := more ++ rest })
  | .checkout k n healthy =>
    e.onDispatch k n fun s d => if d.stage = .starting then some (s.checkout d healthy) else none
  | .connected k n result =>
    e.onDispatch k n fun s d =>
      if d.stage = .connecting then
        match result with
        | .ok w => some (s.connected d w)
        | .error x => some (s.unconnected d now x)
      else none
  | .hear k n news =>
    e.onDispatch k n fun s d =>
      match d.stage with
      | .running _ => some (s.hear d now news)
      | _ => none
  | .conclude k n result =>
    e.onDispatch k n fun s d =>
      match d.stage with
      | .running w => some (s.conclude d now w result)
      | _ => none
  | .callOff k n =>
    e.onDispatch k n fun s d =>
      match d.stage with
      | .running w => if s.cancelled then some (s.callOff d now w) else none
      | _ => none
  | .checkin k n healthy =>
    e.onDispatch k n fun s d =>
      match d.stage with
      | .returning w broken => some (s.checkin d w broken e.settings.reusable healthy)
      | _ => none
  | .leave k n => e.onDispatch k n fun s d => if d.stage = .leaving then some (s.leave d) else none
  | .destroy k n =>
    e.onParting k n fun s c => if c.settled then none else s.permits.settle?.map (s.destroy c)
  | .pass k n =>
    e.onParting k n fun s c =>
      if c.settled || s.permits.settle?.isSome then none else some (s.pass c)
  | .giveBack k n => e.onParting k n fun s c => if c.settled then some (s.giveBack c) else none
  | .deliverFor k n =>
    match e.shift? k with
    | none => none
    | some s =>
      match s.dispatch? n with
      | none => none
      | some d =>
        match d.errands with
        | [] => none
        | x :: rest =>
          let (desk, more) := e.desk.deliver now x
          some ({ e with desk }.putShift k (s.put { d with errands := more ++ rest }))

/-- Runs tests: opens a session and queues each name once. The session is the second part, unless
there is nothing to run or no shift can begin. -/
def run (e : Engine) (now : Moment) (tests : List String) : Engine × Option SessionId :=
  match distinctNames tests with
  | [] => (e, none)
  | names =>
    if e.canRun then
      let e := e.openSession now names
      match e.midway with
      | none => (e, none)
      | some (session, names) => (e.push session names, some session)
    else (e, none)

/-- Calls off the latest shift: cancels its loop and its dispatches, closes its queue and its
permits. -/
def stop (e : Engine) : Engine :=
  match e.shifts with
  | [] => e
  | s :: rest =>
    if s.cancelled then e
    else
      { e with shifts :=
          { s with cancelled := true, queue := s.queue.close, permits := s.permits.close } :: rest }

end Engine

end Retest
