import Retest.Run.Engine

/-! The engine at work with a crew of workers: everybody who can move gets a turn, in the order in
which they became able to, until nobody can move any more. -/

namespace Retest

/-- What a listener gets from a worker: news, the end of its batch, or nothing for now. -/
inductive Utterance where
  | tells (news : WorkerNews)
  | ends (result : Except WorkerError Unit)
  | silent
  deriving Repr

/-- Where connections come from and what workers do. Listening to a worker that has no batch gives
it one. A worker that pauses is silent whoever listens. -/
structure Crew (σ : Type) where
  connect : σ → σ × Except WorkerError WorkerId
  healthy : σ → WorkerId → Bool
  pauses : σ → WorkerId → Bool
  listen : σ → WorkerId → List String → σ × Utterance
  dismiss : σ → WorkerId → σ

/-- Who can get a turn: the loop of a shift, or one of its dispatches until its permit is back.
Shifts are counted from the first one on. -/
inductive Actor where
  | loop (shift : Nat)
  | dispatch (shift number : Nat)
  deriving Repr, DecidableEq

structure Floor (σ : Type) where
  engine : Engine
  crew : σ
  line : List Actor := []

def Engine.place (e : Engine) (shift : Nat) : Nat := e.shifts.length - 1 - shift

namespace Floor

variable {σ : Type}

def take (c : Crew σ) (f : Floor σ) (now : Moment) (k : Nat) (a : Action) : Option (Floor σ) :=
  (f.engine.act now a).map fun e =>
    let before := ((f.engine.shift? k).map (·.retired.length)).getD 0
    let fresh := (((e.shift? k).map (·.retired)).getD []).drop before
    { f with engine := e, crew := fresh.foldl c.dismiss f.crew }

def loopAction? (s : Shift) (k : Nat) : Option Action :=
  if s.errands ≠ [] then some (.deliver k)
  else
    match s.phase with
    | .choosing =>
      if s.cancelled || s.queue.closed || !s.queue.isEmpty then some (.fetch k) else none
    | .holding _ _ asked =>
      if !asked || s.cancelled || s.permits.closed || s.permits.granted.contains Shift.ticket then
        some (.allow k)
      else none
    | .joining => if s.dispatches.isEmpty && s.parting.isEmpty then some (.sweep k) else none
    | .sweeping => some (.finish k)
    | .over => none

def partingAction (s : Shift) (k : Nat) (c : Parting) : Action :=
  if c.settled then .giveBack k c.number
  else if s.permits.settle?.isSome then .destroy k c.number
  else .pass k c.number

def isReady (c : Crew σ) (crew : σ) (s : Shift) (d : Dispatch) : Bool :=
  if d.errands ≠ [] then true
  else
    match d.stage with
    | .running w => s.cancelled || !c.pauses crew w
    | _ => true

/-- The next action of a dispatch, if it can move, and what becomes of the crew by it. A dispatch
that is called off no longer listens. -/
def dispatchAction? (c : Crew σ) (crew : σ) (s : Shift) (k : Nat) (d : Dispatch) :
    Option (Action × σ) :=
  if d.errands ≠ [] then some (.deliverFor k d.number, crew)
  else
    match d.stage with
    | .starting => some (.checkout k d.number (c.healthy crew), crew)
    | .connecting =>
      let (crew, result) := c.connect crew
      some (.connected k d.number result, crew)
    | .running w =>
      if s.cancelled then some (.callOff k d.number, crew)
      else
        match c.listen crew w d.docket.tests with
        | (crew, .tells news) => some (.hear k d.number news, crew)
        | (crew, .ends result) => some (.conclude k d.number result, crew)
        | (_, .silent) => none
    | .returning w _ => some (.checkin k d.number (c.healthy crew w), crew)
    | .leaving => some (.leave k d.number, crew)

/-- The next action under the number of a dispatch: of the dispatch, or of the permit it sent back.
-/
def numberAction? (c : Crew σ) (crew : σ) (s : Shift) (k number : Nat) : Option (Action × σ) :=
  match s.dispatch? number with
  | some d => dispatchAction? c crew s k d
  | none => (s.parting? number).map fun p => (partingAction s k p, crew)

def step? (c : Crew σ) (f : Floor σ) (now : Moment) : Actor → Option (Floor σ)
  | .loop shift => do
    let k := f.engine.place shift
    f.take c now k (← loopAction? (← f.engine.shift? k) k)
  | .dispatch shift number => do
    let k := f.engine.place shift
    let (action, crew) ← numberAction? c f.crew (← f.engine.shift? k) k number
    { f with crew }.take c now k action

/-- The actors of a shift that can move: its loop, and its dispatches in the order in which they
started, those with a permit on its way back first. -/
def readyOf (c : Crew σ) (crew : σ) (shift : Nat) (s : Shift) : List Actor :=
  let loop := if (loopAction? s 0).isSome then [.loop shift] else []
  let numbers := s.parting.map (·.number) ++
    (s.dispatches.filter (isReady c crew s)).map (·.number)
  loop ++ numbers.map (.dispatch shift)

def wake (c : Crew σ) (f : Floor σ) : Floor σ :=
  let shifts := f.engine.shifts.reverse
  let ready := ((List.range shifts.length).zip shifts).flatMap fun e => readyOf c f.crew e.1 e.2
  { f with line := f.line ++ ready.filter fun a => !f.line.contains a }

def takeTurns (c : Crew σ) (now : Moment) : Nat → Floor σ → Floor σ
  | 0, f => f
  | fuel + 1, f =>
    match f.line with
    | [] => f
    | a :: rest =>
      match f.step? c now a with
      | none => takeTurns c now fuel { f with line := rest }
      | some f => takeTurns c now fuel (f.wake c)

def settle (c : Crew σ) (now : Moment) (fuel : Nat) (f : Floor σ) : Floor σ :=
  takeTurns c now fuel (f.wake c)

end Floor

end Retest
