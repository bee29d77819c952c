import Mathlib.Data.List.Induction
import Retest.Proofs.Completion

/-! The engine under calls for tests, for new limits and for a stop, as often and in whatever order
they come. After each stop the next tests begin a new shift, which has the last limit. Some calls do
not come back, because there can only be so many permits; these do not count. -/

namespace Retest

inductive Call where
  | run (tests : List String)
  | limit (n : Nat)
  | stop
  deriving DecidableEq

namespace Call

def names? : Call → Option (List String)
  | .run tests => if tests = [] then none else some tests
  | .limit _ | .stop => none

def limit? : Call → Option Nat
  | .limit n => some n
  | .run _ | .stop => none

def Busy (calls : List Call) : Prop :=
  ∃ before tests after, calls = before ++ .run tests :: after ∧ tests ≠ [] ∧ .stop ∉ after

def lastLimit (first : Nat) (calls : List Call) : Nat :=
  (calls.filterMap limit?).getLast?.getD first

variable {calls : List Call} {c : Call} {tests : List String}

theorem busy_concat_run (ht : tests ≠ []) : Busy (calls ++ [.run tests]) :=
  ⟨calls, tests, [], rfl, ht, List.not_mem_nil⟩

/-- A call that neither stops nor asks for any test changes nothing about that. -/
theorem busy_concat_iff (hn : c.names? = none) (hc : c ≠ .stop) :
    Busy (calls ++ [c]) ↔ Busy calls := by
  constructor
  · rintro ⟨before, tests, after, h, ht, hstop⟩
    rcases List.eq_nil_or_concat after with rfl | ⟨rest, last, rfl⟩
    · have hlast := (List.append_inj' h rfl).2
      cases hlast
      simp [names?, ht] at hn
    · rw [List.concat_eq_append, ← List.cons_append, ← List.append_assoc] at h
      refine ⟨before, tests, rest, (List.append_inj' h rfl).1, ht, fun hm => hstop ?_⟩
      rw [List.concat_eq_append]
      exact List.mem_append_left _ hm
  · rintro ⟨before, tests, after, rfl, ht, hstop⟩
    refine ⟨before, tests, after ++ [c], by simp, ht, ?_⟩
    simp [hstop, hc.symm]

theorem lastLimit_concat (first : Nat) : lastLimit first (calls ++ [c]) =
    c.limit?.getD (lastLimit first calls) := by
  cases hc : c.limit? <;> simp [lastLimit, hc]

end Call

/-- A last member adds what it yields. -/
theorem filterMap_concat {α β : Type} (f : α → Option β) (l : List α) (a : α) :
    (l ++ [a]).filterMap f = l.filterMap f ++ (f a).toList := by
  cases h : f a <;> simp [h]

namespace Engine

/-- An engine that serves some calls, each taken apart into its steps. Between these the shifts go
on. To ask for no tests does nothing, nor does a stop while no shift is on; a stop waits for a push
that is midway. Only calls that come back are listed: a limit that is refused is not, and to ask for
tests that cannot be run is no step at all. -/
inductive Serves (e₀ : Engine) : List Call → Engine → Prop
  | start : Serves e₀ [] e₀
  | opens (calls : List Call) (e : Engine) (now : Moment) (tests : List String) (e' : Engine)
    (h : Serves e₀ calls e) (ha : e.act now (.openSession tests) = some e') :
    Serves e₀ (calls ++ [.run tests]) e'
  | passes (calls : List Call) (e : Engine) (h : Serves e₀ calls e) :
    Serves e₀ (calls ++ [.run []]) e
  | adjusts (calls : List Call) (e : Engine) (now : Moment) (n : Nat) (e' : Engine)
    (h : Serves e₀ calls e) (hr : e.permits.refuses n = false)
    (ha : e.act now (.setLimit n) = some e') : Serves e₀ (calls ++ [.limit n]) e'
  | fails (calls : List Call) (e : Engine) (now : Moment) (n : Nat) (e' : Engine)
    (h : Serves e₀ calls e) (hr : e.permits.refuses n = true)
    (ha : e.act now (.setLimit n) = some e') : Serves e₀ calls e'
  | stops (calls : List Call) (e : Engine) (now : Moment) (e' : Engine)
    (h : Serves e₀ calls e) (ha : e.act now .cancel = some e') : Serves e₀ (calls ++ [.stop]) e'
  | rests (calls : List Call) (e : Engine) (h : Serves e₀ calls e) (hm : e.midway = none)
    (hs : e.isStarted = false) : Serves e₀ (calls ++ [.stop]) e
  | goes (calls : List Call) (e : Engine) (now : Moment) (a : Action) (e' : Engine)
    (h : Serves e₀ calls e) (hown : a.isCall = false) (ha : e.act now a = some e') :
    Serves e₀ calls e'

variable {e₀ e e' : Engine} {calls more : List Call} {now : Moment} {a : Action} {l : List Turn}

theorem Serves.trans (h : e₀.Serves calls e) (h' : e.Serves more e') :
    e₀.Serves (calls ++ more) e' := by
  induction h' with
  | start =>
    rw [List.append_nil]
    exact h
  | opens more d now tests d' _ ha ih =>
    rw [← List.append_assoc]
    exact .opens _ d now tests d' ih ha
  | passes more d _ ih =>
    rw [← List.append_assoc]
    exact .passes _ d ih
  | adjusts more d now n d' _ hr ha ih =>
    rw [← List.append_assoc]
    exact .adjusts _ d now n d' ih hr ha
  | fails more d now n d' _ hr ha ih => exact .fails _ d now n d' ih hr ha
  | stops more d now d' _ ha ih =>
    rw [← List.append_assoc]
    exact .stops _ d now d' ih ha
  | rests more d _ hm hs ih =>
    rw [← List.append_assoc]
    exact .rests _ d ih hm hs
  | goes more d now a d' _ hown ha ih => exact .goes _ d now a d' ih hown ha

def OpensFor (e₀ : Engine) (asked : List (List String)) (e : Engine) : Prop :=
  ∃ l, e₀.Run l e ∧ e.desk.feed.opened = e₀.desk.feed.opened + asked.length ∧
    l.filterMap Turn.opens = (asked.zipIdx (e₀.desk.feed.opened + 1)).map Prod.swap

theorem OpensFor.step {asked : List (List String)} (h : e₀.OpensFor asked e)
    (ha : e.act now a = some e') :
    e₀.OpensFor (asked ++ ((⟨e, now, a⟩ : Turn).opens.map (·.2)).toList) e' := by
  obtain ⟨l, hrun, hopened, hl⟩ := h
  have hone := opened_change now a (change_of_act e now a e' ha)
  refine ⟨_, .step l e now a e' hrun ha, ?_⟩
  rw [filterMap_concat, hl, hone, hopened]
  cases ho : (⟨e, now, a⟩ : Turn).opens with
  | none => simp
  | some o =>
    obtain ⟨session, names⟩ := o
    have hsession : session = e.desk.feed.opened + 1 := by
      cases a with
      | openSession tests => exact (Prod.mk.inj (Option.some.inj ho)).1.symm
      | _ => cases ho
    refine ⟨by simp [Nat.add_assoc], ?_⟩
    simp [List.zipIdx_append, hsession, hopened, Nat.add_right_comm]

theorem limit_eq (e : Engine) :
    e.concurrency = (e.shifts.map (·.permits.limit)).head?.getD e.idle.limit := by
  cases hs : e.shifts <;> simp [concurrency, permits, hs]

theorem isStarted_iff (e : Engine) :
    e.isStarted = true ↔ (e.shifts.map (·.cancelled)).head? = some false := by
  cases hs : e.shifts <;> simp [isStarted, hs]

/-- What the calls so far have made of the shifts: the latest one is on if tests were asked for
since the last stop, all others were called off, and the limit is the one that was set last. -/
structure Obeys (first : Nat) (calls : List Call) (e : Engine) : Prop where
  started : e.isStarted = true ↔ Call.Busy calls
  others : ∀ c ∈ (e.shifts.map (·.cancelled)).tail, c = true
  limit : e.concurrency = Nat.max (Call.lastLimit first calls) 1

/-- A call for tests finds the latest shift on, or begins one with the limit in force. -/
theorem Obeys.opens {first : Nat} (h : e.Obeys first calls) (now : Moment) (tests : List String)
    (ht : tests ≠ []) :
    (e.openSession now (distinctNames tests)).Obeys first (calls ++ [.run tests]) := by
  have hlimit : Call.lastLimit first (calls ++ [.run tests]) = Call.lastLimit first calls := by
    rw [Call.lastLimit_concat]
    rfl
  have hbusy : Call.Busy (calls ++ [.run tests]) := Call.busy_concat_run ht
  by_cases hon : e.isStarted = true
  · have hsame : (e.openSession now (distinctNames tests)).shifts = e.shifts := by
      simp [openSession, ensureShift, hon]
    obtain ⟨s, rest, hs⟩ : ∃ s rest, e.shifts = s :: rest := by
      cases hs : e.shifts with
      | nil => simp [isStarted, hs] at hon
      | cons s rest => exact ⟨s, rest, rfl⟩
    refine ⟨?_, hsame ▸ h.others, ?_⟩
    · rw [isStarted_iff, hsame, ← isStarted_iff]
      exact iff_of_true hon hbusy
    · rw [hlimit, ← h.limit, limit_eq, limit_eq, hsame, hs]
      rfl
  · have hsame : (e.openSession now (distinctNames tests)).shifts =
        .ofPermits (.ofLimit e.permits.limit) :: e.shifts := by
      simp [openSession, ensureShift, hon]
    refine ⟨?_, ?_, ?_⟩
    · simp [isStarted_iff, hsame, Shift.ofPermits, hbusy]
    · -- Now all shifts from before are behind the latest one.
      rw [hsame]
      rw [isStarted_iff] at hon
      intro c hc
      have hothers := h.others
      cases hs : e.shifts with
      | nil => simp [hs] at hc
      | cons s rest =>
        simp only [hs, List.map_cons, List.head?_cons, Option.some.injEq, Bool.not_eq_false,
          List.tail_cons, List.mem_cons] at hon hothers hc
        rcases hc with rfl | hc
        · exact hon
        · exact hothers c hc
    · rw [hlimit, limit_eq, hsame]
      change Nat.max e.concurrency 1 = _
      rw [h.limit]
      exact Nat.max_eq_left (Nat.le_max_right _ 1)

theorem concurrency_setLimit (e : Engine) (n : Nat) : (e.setLimit n).concurrency =
    if e.permits.refuses n then e.concurrency else Nat.max n 1 := by
  cases hs : e.shifts <;>
    simp only [concurrency, permits, setLimit, hs] <;> exact Permits.limit_setLimit _ n

/-- A limit counts once it is set, and one that is refused leaves things as they are. -/
theorem Obeys.adjusts {first : Nat} (h : e.Obeys first calls) (n : Nat) :
    (e.setLimit n).Obeys first
      (if e.permits.refuses n then calls else calls ++ [.limit n]) := by
  have hflags : (e.setLimit n).shifts.map (·.cancelled) = e.shifts.map (·.cancelled) := by
    cases hs : e.shifts <;> simp [setLimit, hs]
  have hbusy : Call.Busy (calls ++ [.limit n]) ↔ Call.Busy calls :=
    Call.busy_concat_iff rfl (by simp)
  have hlimit := e.concurrency_setLimit n
  have hon : (e.setLimit n).isStarted = true ↔ Call.Busy calls := by
    rw [isStarted_iff, hflags, ← isStarted_iff]
    exact h.started
  cases hr : e.permits.refuses n with
  | true =>
    rw [hr, if_pos rfl] at hlimit
    exact ⟨hon, hflags ▸ h.others, hlimit.trans h.limit⟩
  | false =>
    rw [hr, if_neg Bool.false_ne_true] at hlimit
    refine ⟨hon.trans hbusy.symm, hflags ▸ h.others, ?_⟩
    rw [hlimit, if_neg Bool.false_ne_true, Call.lastLimit_concat]
    rfl

def perform (now : Moment) (e : Engine) : Call → Engine
  | .run tests => (e.run now tests).1
  | .limit n => e.setLimit n
  | .stop => e.stop

/-- A call that does not come back: it asks for more permits than there can be. -/
def fails (e : Engine) : Call → Bool
  | .run tests => decide (tests ≠ []) && !e.canRun
  | .limit n => e.permits.refuses n
  | .stop => false

def served (now : Moment) (e : Engine) : List Call → List Call
  | [] => []
  | c :: rest => (if e.fails c then [] else [c]) ++ served now (e.perform now c) rest

end Engine

end Retest
