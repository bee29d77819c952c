import Retest.Run.Crew

/-! What one action can do, told once: to a shift by itself, to a shift and the desk, and to the
engine. Everything else about runs goes through these cases. -/

namespace Retest

def Action.shift? : Action → Option Nat
  | .openSession _ | .push | .setLimit _ | .cancel => none
  | .closeQueue k | .closePermits k | .fetch k | .allow k | .sweep k | .finish k | .deliver k
  | .checkout k .. | .connected k .. | .hear k .. | .conclude k .. | .callOff k .. | .checkin k ..
  | .leave k _ | .destroy k _ | .pass k _ | .giveBack k _ | .deliverFor k _ => some k

def Action.hired? : Action → Option WorkerId
  | .connected _ _ (.ok w) => some w
  | _ => none

namespace Shift

/-- What can become of a permit on its way back: the permits that there are then, and those that are
still on their way. -/
inductive Parts (s : Shift) (c : Parting) : Shift → Prop
  | destroyed (p : Permits) (hs : c.settled = false) (hp : s.permits.settle? = some p) :
    Parts s c (s.destroy c p)
  | passed (hs : c.settled = false) (hp : s.permits.settle? = none) : Parts s c (s.pass c)
  | arrived (hs : c.settled = true) : Parts s c (s.giveBack c)

/-- What a shift can do without the desk, and the worker it gets by that. Its loop and each of its
dispatches take their next step once their errands are done. -/
inductive Works (settings : EngineSettings) (now : Moment) (s : Shift) :
    Option WorkerId → Shift → Prop
  | closeQueue (hc : s.cancelled = true) (hq : s.queue.closed = false) :
    Works settings now s none { s with queue := s.queue.close }
  | closePermits (hq : s.queue.closed = true) (hp : s.permits.closed = false) :
    Works settings now s none { s with permits := s.permits.close }
  | fetch (he : s.errands = []) (hp : s.phase = .choosing) :
    Works settings now s none (s.fetch settings.batchSize)
  | allow (session : SessionId) (tests : List String) (asked : Bool) (he : s.errands = [])
    (hp : s.phase = .holding session tests asked) :
    Works settings now s none (s.allow now session tests asked)
  | sweep (he : s.errands = []) (hp : s.phase = .joining) (hd : s.dispatches = [])
    (hc : s.parting = []) : Works settings now s none (s.sweep now)
  | finish (he : s.errands = []) (hp : s.phase = .sweeping) : Works settings now s none s.finish
  | checkout (d : Dispatch) (healthy : WorkerId → Bool) (hd : d ∈ s.dispatches)
    (he : d.errands = []) (hs : d.stage = .starting) :
    Works settings now s none (s.checkout d healthy)
  | connected (d : Dispatch) (w : WorkerId) (hd : d ∈ s.dispatches) (he : d.errands = [])
    (hs : d.stage = .connecting) : Works settings now s (some w) (s.connected d w)
  | unconnected (d : Dispatch) (x : WorkerError) (hd : d ∈ s.dispatches) (he : d.errands = [])
    (hs : d.stage = .connecting) : Works settings now s none (s.unconnected d now x)
  | hear (d : Dispatch) (w : WorkerId) (news : WorkerNews) (hd : d ∈ s.dispatches)
    (he : d.errands = []) (hs : d.stage = .running w) :
    Works settings now s none (s.hear d now news)
  | conclude (d : Dispatch) (w : WorkerId) (result : Except WorkerError Unit)
    (hd : d ∈ s.dispatches) (he : d.errands = []) (hs : d.stage = .running w) :
    Works settings now s none (s.conclude d now w result)
  | callOff (d : Dispatch) (w : WorkerId) (hd : d ∈ s.dispatches) (he : d.errands = [])
    (hs : d.stage = .running w) (hc : s.cancelled = true) :
    Works settings now s none (s.callOff d now w)
  | checkin (d : Dispatch) (w : WorkerId) (broken healthy : Bool) (hd : d ∈ s.dispatches)
    (he : d.errands = []) (hs : d.stage = .returning w broken) :
    Works settings now s none (s.checkin d w broken settings.reusable healthy)
  | leave (d : Dispatch) (hd : d ∈ s.dispatches) (he : d.errands = []) (hs : d.stage = .leaving) :
    Works settings now s none (s.leave d)
  | parts (c : Parting) (s' : Shift) (hc : c ∈ s.parting) (h : s.Parts c s') :
    Works settings now s none s'

inductive Hands (s : Shift) : Errand → List Errand → Shift → Prop
  | loop (x : Errand) (rest more : List Errand) (he : s.errands = x :: rest) :
    Hands s x more { s with errands := more ++ rest }
  | dispatch (d : Dispatch) (x : Errand) (rest more : List Errand) (hd : d ∈ s.dispatches)
    (he : d.errands = x :: rest) : Hands s x more (s.put { d with errands := more ++ rest })

theorem mem_of_dispatch (s : Shift) (n : Nat) (d : Dispatch) (h : s.dispatch? n = some d) :
    d ∈ s.dispatches := List.mem_of_find?_eq_some h

end Shift

namespace Engine

inductive Change (now : Moment) (e : Engine) : Action → Engine → Prop
  | opens (tests : List String) (hm : e.midway = none) (ht : distinctNames tests ≠ [])
    (hr : e.canRun = true) :
    Change now e (.openSession tests) (e.openSession now (distinctNames tests))
  | pushes (session : SessionId) (tests : List String) (hm : e.midway = some (session, tests)) :
    Change now e .push (e.push session tests)
  | adjusts (n : Nat) : Change now e (.setLimit n) (e.setLimit n)
  | stops (s : Shift) (rest : List Shift) (hm : e.midway = none) (hs : e.shifts = s :: rest)
    (hc : s.cancelled = false) :
    Change now e .cancel { e with shifts := { s with cancelled := true } :: rest }
  | works (a : Action) (k : Nat) (s s' : Shift) (ha : a.shift? = some k)
    (hs : e.shift? k = some s) (h : s.Works e.settings now a.hired? s') :
    Change now e a (e.putShift k s')
  | hands (a : Action) (k : Nat) (s s' : Shift) (x : Errand) (desk : Desk) (more : List Errand)
    (ha : a.shift? = some k) (hn : a.hired? = none) (hs : e.shift? k = some s)
    (hd : e.desk.deliver now x = (desk, more)) (h : s.Hands x more s') :
    Change now e a ({ e with desk }.putShift k s')

variable {e e' : Engine} {now : Moment} {a : Action} {k : Nat}

/-- The shift whose loop takes a step; it has done its errands. -/
theorem exists_of_onLoop (step : Shift → Option Shift) (h : e.onLoop k step = some e') :
    ∃ s s', e.shift? k = some s ∧ s.errands = [] ∧ step s = some s' ∧ e' = e.putShift k s' := by
  rw [onLoop] at h
  cases hs : e.shift? k with
  | none => simp [hs] at h
  | some s =>
    simp only [hs] at h
    split at h
    · next he =>
      obtain ⟨s', hs', rfl⟩ := Option.map_eq_some_iff.mp h
      exact ⟨s, s', rfl, he, hs', rfl⟩
    · cases h

/-- The shift and its dispatch that takes a step; this has done its errands. -/
theorem exists_of_onDispatch {n : Nat} (step : Shift → Dispatch → Option Shift)
    (h : e.onDispatch k n step = some e') : ∃ s d s', e.shift? k = some s ∧
      s.dispatch? n = some d ∧ d.errands = [] ∧ step s d = some s' ∧ e' = e.putShift k s' := by
  rw [onDispatch] at h
  cases hs : e.shift? k with
  | none => simp [hs] at h
  | some s =>
    simp only [hs] at h
    cases hd : s.dispatch? n with
    | none => simp [hd] at h
    | some d =>
      simp only [hd] at h
      split at h
      · next he =>
        obtain ⟨s', hs', rfl⟩ := Option.map_eq_some_iff.mp h
        exact ⟨s, d, s', rfl, hd, he, hs', rfl⟩
      · cases h

/-- A step of the loop of a shift works on this shift if the step itself does. -/
theorem works_of_onLoop (step : Shift → Option Shift) (h : e.onLoop k step = some e')
    (ha : a.shift? = some k)
    (hstep : ∀ s s', s.errands = [] → step s = some s' → s.Works e.settings now a.hired? s') :
    Change now e a e' := by
  obtain ⟨s, s', hs, he, hs', rfl⟩ := exists_of_onLoop step h
  exact .works a k s s' ha hs (hstep s s' he hs')

/-- So does a step of one of its dispatches. -/
theorem works_of_onDispatch (n : Nat) (step : Shift → Dispatch → Option Shift)
    (h : e.onDispatch k n step = some e') (ha : a.shift? = some k)
    (hstep : ∀ s d s', d ∈ s.dispatches → d.errands = [] → step s d = some s' →
      s.Works e.settings now a.hired? s') :
    Change now e a e' := by
  obtain ⟨s, d, s', hs, hd, he, hs', rfl⟩ := exists_of_onDispatch step h
  exact .works a k s s' ha hs (hstep s d s' (s.mem_of_dispatch n d hd) he hs')

/-- A permit on its way back, and the shift that it is on its way to. -/
theorem exists_of_onParting {n : Nat} (step : Shift → Parting → Option Shift)
    (h : e.onParting k n step = some e') : ∃ s c s', e.shift? k = some s ∧
      s.parting? n = some c ∧ step s c = some s' ∧ e' = e.putShift k s' := by
  rw [onParting] at h
  cases hs : e.shift? k with
  | none => simp [hs] at h
  | some s =>
    simp only [hs] at h
    cases hc : s.parting? n with
    | none => simp [hc] at h
    | some c =>
      simp only [hc] at h
      obtain ⟨s', hs', rfl⟩ := Option.map_eq_some_iff.mp h
      exact ⟨s, c, s', rfl, hc, hs', rfl⟩

/-- The three steps of a permit on its way back. -/
theorem parts_of_act {n : Nat} (h : e.act now a = some e')
    (ha : a = .destroy k n ∨ a = .pass k n ∨ a = .giveBack k n) :
    ∃ s c s', e.shift? k = some s ∧ c ∈ s.parting ∧ s.Parts c s' ∧ e' = e.putShift k s' := by
  have hfound (step : Shift → Parting → Option Shift) (h : e.onParting k n step = some e')
      (hstep : ∀ s c s', step s c = some s' → s.Parts c s') :
      ∃ s c s', e.shift? k = some s ∧ c ∈ s.parting ∧ s.Parts c s' ∧ e' = e.putShift k s' := by
    obtain ⟨s, c, s', hs, hc, hs', rfl⟩ := exists_of_onParting step h
    exact ⟨s, c, s', hs, List.mem_of_find?_eq_some hc, hstep s c s' hs', rfl⟩
  rcases ha with rfl | rfl | rfl
  · refine hfound _ h fun s c s' hstep => ?_
    split at hstep
    · cases hstep
    · next hs =>
      obtain ⟨p, hp, rfl⟩ := Option.map_eq_some_iff.mp hstep
      exact .destroyed p (Bool.not_eq_true _ ▸ hs) hp
  · refine hfound _ h fun s c s' hstep => ?_
    split at hstep
    · cases hstep
    · next hs =>
      simp only [Bool.or_eq_true, not_or, Bool.not_eq_true, Option.isSome_eq_false_iff,
        Option.isNone_iff_eq_none] at hs
      cases hstep
      exact .passed hs.1 hs.2
  · refine hfound _ h fun s c s' hstep => ?_
    split at hstep
    · next hs =>
      cases hstep
      exact .arrived hs
    · cases hstep

/-- Every step of the engine is one of the listed changes. -/
theorem change_of_act (e : Engine) (now : Moment) (a : Action) (e' : Engine)
    (h : e.act now a = some e') : Change now e a e' := by
  cases a with
  | openSession tests =>
    simp only [act] at h
    split at h
    · cases h
    · next hno =>
      simp only [Bool.or_eq_true, decide_eq_true_eq, not_or, Bool.not_eq_true, Bool.not_eq_false',
        Option.isSome_eq_false_iff, Option.isNone_iff_eq_none] at hno
      rw [← Option.some.inj h]
      exact .opens tests hno.1.1 hno.1.2 hno.2
  | push =>
    simp only [act] at h
    split at h
    · cases h
    · next session tests hm =>
      rw [← Option.some.inj h]
      exact .pushes session tests hm
  | setLimit n =>
    rw [← Option.some.inj h]
    exact .adjusts n
  | cancel =>
    simp only [act] at h
    split at h
    · cases h
    · next s rest hs =>
      split at h
      · cases h
      · next hno =>
        simp only [Bool.or_eq_true, not_or, Bool.not_eq_true, Option.isSome_eq_false_iff,
          Option.isNone_iff_eq_none] at hno
        rw [← Option.some.inj h]
        exact .stops s rest hno.1 hs hno.2
  | closeQueue k =>
    simp only [act] at h
    split at h
    · cases h
    · next s hs =>
      split at h
      · next hc =>
        simp only [Bool.and_eq_true, Bool.not_eq_true'] at hc
        rw [← Option.some.inj h]
        exact .works _ k s _ rfl hs (.closeQueue hc.1 hc.2)
      · cases h
  | closePermits k =>
    simp only [act] at h
    split at h
    · cases h
    · next s hs =>
      split at h
      · next hc =>
        simp only [Bool.and_eq_true, Bool.not_eq_true'] at hc
        rw [← Option.some.inj h]
        exact .works _ k s _ rfl hs (.closePermits hc.1 hc.2)
      · cases h
  | fetch k =>
    refine works_of_onLoop _ h rfl fun s s' he hstep => ?_
    split at hstep
    · next hp =>
      cases hstep
      exact .fetch he hp
    · cases hstep
  | allow k =>
    refine works_of_onLoop _ h rfl fun s s' he hstep => ?_
    split at hstep
    · next session tests asked hp =>
      cases hstep
      exact .allow session tests asked he hp
    · cases hstep
  | sweep k =>
    refine works_of_onLoop _ h rfl fun s s' he hstep => ?_
    split at hstep
    · next hp =>
      simp only [Bool.and_eq_true, decide_eq_true_eq, List.isEmpty_iff] at hp
      cases hstep
      exact .sweep he hp.1.1 hp.1.2 hp.2
    · cases hstep
  | finish k =>
    refine works_of_onLoop _ h rfl fun s s' he hstep => ?_
    split at hstep
    · next hp =>
      cases hstep
      exact .finish he hp
    · cases hstep
  | deliver k =>
    simp only [act] at h
    split at h
    · cases h
    · next s hs =>
      split at h
      · cases h
      · next x rest he =>
        rw [← Option.some.inj h]
        exact .hands _ k s _ x _ _ rfl rfl hs rfl (.loop x rest _ he)
  | checkout k n healthy =>
    refine works_of_onDispatch n _ h rfl fun s d s' hd he hstep => ?_
    split at hstep
    · next hp =>
      cases hstep
      exact .checkout d healthy hd he hp
    · cases hstep
  | connected k n result =>
    refine works_of_onDispatch n _ h rfl fun s d s' hd he hstep => ?_
    split at hstep
    · next hp =>
      -- Only a connection that was made brings a worker.
      cases result with
      | ok w =>
        cases hstep
        exact .connected d w hd he hp
      | error x =>
        cases hstep
        exact .unconnected d x hd he hp
    · cases hstep
  | hear k n news =>
    refine works_of_onDispatch n _ h rfl fun s d s' hd he hstep => ?_
    split at hstep
    · next w hp =>
      cases hstep
      exact .hear d w news hd he hp
    · cases hstep
  | conclude k n result =>
    refine works_of_onDispatch n _ h rfl fun s d s' hd he hstep => ?_
    split at hstep
    · next w hp =>
      cases hstep
      exact .conclude d w result hd he hp
    · cases hstep
  | callOff k n =>
    refine works_of_onDispatch n _ h rfl fun s d s' hd he hstep => ?_
    split at hstep
    · next w hp =>
      split at hstep
      · next hc =>
        cases hstep
        exact .callOff d w hd he hp hc
      · cases hstep
    · cases hstep
  | checkin k n healthy =>
    refine works_of_onDispatch n _ h rfl fun s d s' hd he hstep => ?_
    split at hstep
    · next w broken hp =>
      cases hstep
      exact .checkin d w broken healthy hd he hp
    · cases hstep
  | leave k n =>
    refine works_of_onDispatch n _ h rfl fun s d s' hd he hstep => ?_
    split at hstep
    · next hp =>
      cases hstep
      exact .leave d hd he hp
    · cases hstep
  | destroy k n =>
    obtain ⟨s, c, s', hs, hc, hp, rfl⟩ := parts_of_act h (.inl rfl)
    exact .works _ k s s' rfl hs (.parts c s' hc hp)
  | pass k n =>
    obtain ⟨s, c, s', hs, hc, hp, rfl⟩ := parts_of_act h (.inr (.inl rfl))
    exact .works _ k s s' rfl hs (.parts c s' hc hp)
  | giveBack k n =>
    obtain ⟨s, c, s', hs, hc, hp, rfl⟩ := parts_of_act h (.inr (.inr rfl))
    exact .works _ k s s' rfl hs (.parts c s' hc hp)
  | deliverFor k n =>
    simp only [act] at h
    split at h
    · cases h
    · next s hs =>
      split at h
      · cases h
      · next d hd =>
        split at h
        · cases h
        · next x rest he =>
          rw [← Option.some.inj h]
          exact .hands _ k s _ x _ _ rfl rfl hs rfl
            (.dispatch d x rest _ (s.mem_of_dispatch n d hd) he)

end Engine

end Retest
