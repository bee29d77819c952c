import Retest.Proofs.ShiftState
import Retest.Run.Crew

/-! Runs of the engine: all sequences of possible actions from a fresh engine on, in whatever order
the loops, the dispatches and the callers get to act. What a crew makes the engine do is one of
them. -/

namespace Retest

structure Turn where
  before : Engine
  now : Moment
  action : Action

namespace Turn

def opens : Turn → Option (SessionId × List String)
  | ⟨e, _, .openSession tests⟩ => some (e.desk.feed.opened + 1, tests)
  | _ => none

def pushes : Turn → Option (SessionId × List String)
  | ⟨e, _, .push⟩ => e.midway
  | _ => none

/-- Only the engine opens sessions, and no shift does. -/
theorem opens_of_shift (e : Engine) (now : Moment) (a : Action) (k : Nat) (h : a.shift? = some k) :
    (⟨e, now, a⟩ : Turn).opens = none := by
  cases a with
  | openSession tests => cases h
  | _ => rfl

end Turn

namespace Engine

/-- An engine that has done nothing yet, with what is known from earlier runs. -/
def fresh (settings : EngineSettings) (limit capacity : Nat) (history : History) : Engine :=
  { ofSettings settings limit capacity with desk := { feed := .ofCapacity capacity, history } }

inductive Run (e₀ : Engine) : List Turn → Engine → Prop
  | start : Run e₀ [] e₀
  | step (l : List Turn) (e : Engine) (now : Moment) (a : Action) (e' : Engine) (h : Run e₀ l e)
    (ha : e.act now a = some e') : Run e₀ (l ++ [⟨e, now, a⟩]) e'

variable {e₀ e e' : Engine} {l m : List Turn}

theorem Run.single (now : Moment) (a : Action) (h : e.act now a = some e') :
    e.Run [⟨e, now, a⟩] e' := .step [] e now a e' .start h

theorem Run.trans (h : e₀.Run l e) (h' : e.Run m e') : e₀.Run (l ++ m) e' := by
  induction h' with
  | start =>
    rw [List.append_nil]
    exact h
  | step m d now a d' _ ha ih =>
    rw [← List.append_assoc]
    exact .step _ d now a d' ih ha

def follow (e : Engine) : List (Moment × Action) → Option (List Turn × Engine)
  | [] => some ([], e)
  | (now, a) :: rest =>
    match e.act now a with
    | none => none
    | some d => (d.follow rest).map fun r => (⟨e, now, a⟩ :: r.1, r.2)

theorem run_of_follow (actions : List (Moment × Action)) (r : List Turn × Engine)
    (h : e.follow actions = some r) : e.Run r.1 r.2 := by
  induction actions generalizing e r with
  | nil =>
    rw [← Option.some.inj h]
    exact .start
  | cons x rest ih =>
    obtain ⟨now, a⟩ := x
    rw [follow] at h
    cases ha : e.act now a with
    | none => simp [ha] at h
    | some d =>
      simp only [ha] at h
      obtain ⟨q, hq, rfl⟩ := Option.map_eq_some_iff.mp h
      exact (Run.single now a ha).trans (ih q hq)

end Engine

namespace Floor

variable {σ : Type} (c : Crew σ) (now : Moment)

def action? (f : Floor σ) : Actor → Option Action
  | .loop shift => do
    let k := f.engine.place shift
    loopAction? (← f.engine.shift? k) k
  | .dispatch shift number => do
    let k := f.engine.place shift
    (numberAction? c f.crew (← f.engine.shift? k) k number).map (·.1)

def turnsInLine : Nat → Floor σ → List Turn
  | 0, _ => []
  | fuel + 1, f =>
    match f.line with
    | [] => []
    | a :: rest =>
      match f.step? c now a with
      | none => turnsInLine fuel { f with line := rest }
      | some f' =>
        ((f.action? c a).map fun action => ⟨f.engine, now, action⟩).toList ++
          turnsInLine fuel (f'.wake c)

def turns (fuel : Nat) (f : Floor σ) : List Turn := turnsInLine c now fuel (f.wake c)

theorem act_of_step (f f' : Floor σ) (a : Actor) (h : f.step? c now a = some f') :
    ∃ action, f.action? c a = some action ∧ f.engine.act now action = some f'.engine := by
  have htake (g : Floor σ) (k : Nat) (action : Action) (ht : g.take c now k action = some f') :
      g.engine.act now action = some f'.engine := by
    obtain ⟨e, he, rfl⟩ := Option.map_eq_some_iff.mp ht
    exact he
  cases a with
  | loop shift =>
    simp only [step?, Option.bind_eq_bind, Option.bind_eq_some_iff] at h
    obtain ⟨s, hs, action, haction, ht⟩ := h
    refine ⟨action, ?_, htake f _ action ht⟩
    simp [action?, hs, haction]
  | dispatch shift number =>
    simp only [step?, Option.bind_eq_bind, Option.bind_eq_some_iff] at h
    obtain ⟨s, hs, ⟨action, crew⟩, haction, ht⟩ := h
    refine ⟨action, ?_, htake { f with crew } _ action ht⟩
    simp [action?, hs, haction]

theorem run_turnsInLine (fuel : Nat) (f : Floor σ) :
    f.engine.Run (turnsInLine c now fuel f) (f.takeTurns c now fuel).engine := by
  induction fuel generalizing f with
  | zero => exact .start
  | succ fuel ih =>
    rw [turnsInLine, takeTurns]
    cases hl : f.line with
    | nil => exact .start
    | cons a rest =>
      cases hs : f.step? c now a with
      | none =>
        simp only [hs]
        exact ih { f with line := rest }
      | some f' =>
        obtain ⟨action, haction, hact⟩ := act_of_step c now f f' a hs
        simp only [hs, haction, Option.map_some, Option.toList_some]
        exact (Engine.Run.single now action hact).trans (ih (f'.wake c))

/-- The turns of a floor lead its engine to where it settles. -/
theorem run_turns (fuel : Nat) (f : Floor σ) :
    f.engine.Run (f.turns c now fuel) (f.settle c now fuel).engine :=
  run_turnsInLine c now fuel (f.wake c)

end Floor

end Retest
