import Retest.Proofs.ShiftNumbers

/-! What becomes of one dispatch by each action: it begins, it takes a step of its own, it sends its
permit back, and the permit comes to its end. No action of anybody else touches it, and once it is
done with its worker only so many steps remain. -/

namespace Retest

/-- The dispatch that an action is about, by its number. -/
def Action.dispatch? : Action → Option Nat
  | .checkout _ n _ | .connected _ n _ | .hear _ n _ | .conclude _ n _ | .callOff _ n
  | .checkin _ n _ | .leave _ n | .destroy _ n | .pass _ n | .giveBack _ n | .deliverFor _ n =>
    some n
  | .openSession _ | .push | .setLimit _ | .cancel | .closeQueue _ | .closePermits _ | .fetch _
  | .allow _ | .sweep _ | .finish _ | .deliver _ => none

/-- The way back of a permit ends with this action: it is destroyed, or it arrives. -/
def Action.isReturn : Action → Bool
  | .destroy .. | .giveBack .. => true
  | _ => false

/-- The ways out of a dispatch: its worker could not be started, its batch came to an end (cleanly,
with results missing, or by a crash), or it was called off. -/
def Action.isExit : Action → Bool
  | .connected _ _ (.error _) | .conclude .. | .callOff .. => true
  | _ => false

/-- A worker is heard of by this action while it runs tests, or last when it is done with them. -/
def Action.isSpeech : Action → Bool
  | .hear .. | .conclude .. => true
  | _ => false

namespace Turn

def dispatch? (i : Nat) (t : Turn) : Option Nat :=
  if t.action.shift?.map t.before.place = some i then t.action.dispatch? else none

def isOf (i n : Nat) (t : Turn) : Bool := t.dispatch? i = some n

def returns (i n : Nat) (t : Turn) : Bool := t.isOf i n && t.action.isReturn

def exits (i n : Nat) (t : Turn) : Bool := t.isOf i n && t.action.isExit

theorem dispatch?_of_none (t : Turn) (i : Nat) (h : t.action.dispatch? = none) :
    t.dispatch? i = none := by
  rw [dispatch?, h, ite_self]

end Turn

/-- Counting a result may leave an errand behind. -/
def Errand.toGo : Errand → Nat
  | .count .. => 2
  | .note _ | .publish _ => 1

def Stage.toGo : Stage → Nat
  | .returning .. => 4
  | .starting | .connecting | .running _ | .leaving => 3

/-- The most steps until the permit of a dispatch is back, once the dispatch is done with its
worker. -/
def Dispatch.toGo (d : Dispatch) : Nat := weigh Errand.toGo d.errands + d.stage.toGo

def Parting.toGo (c : Parting) : Nat := if c.settled then 1 else 2

theorem Dispatch.three_le_toGo (d : Dispatch) : 3 ≤ d.toGo := by
  have hstage : 3 ≤ d.stage.toGo := by cases d.stage <;> simp [Stage.toGo]
  rw [toGo]
  omega

theorem Parting.toGo_pos (c : Parting) : 0 < c.toGo := by
  rw [toGo]
  split <;> decide

/-- What an errand leaves is less to do than the errand was. -/
theorem Desk.toGo_deliver (k : Desk) (now : Moment) (x : Errand) :
    weigh Errand.toGo (k.deliver now x).2 < x.toGo := by
  cases x with
  | note r => exact Nat.zero_lt_one
  | publish e => exact Nat.zero_lt_one
  | count s o =>
    cases hc : k.feed.countDown s o with
    | mk feed end? =>
      rw [deliver, hc]
      cases end? with
      | none => exact Nat.zero_lt_two
      | some summary => exact Nat.one_lt_two

/-- What an action about a dispatch makes of it: it goes on, or it is gone and its permit sets out.
-/
inductive Dispatch.Acts (d : Dispatch) (a : Action) : Option Dispatch → Prop
  | goes (d' : Dispatch) (hn : d'.number = d.number) (hstays : a.isReturn = false)
    (hback : d'.stage.isBack = (d.stage.isBack || a.isExit))
    (hexit : a.isExit = true → d.stage.isBack = false)
    (hspeech : a.isSpeech = true → ∃ w, d.stage = .running w)
    (hless : d.stage.isBack = true → d'.toGo < d.toGo) : Acts d a (some d')
  | leaves (hstays : a.isReturn = false) (hexit : a.isExit = false) (hspeech : a.isSpeech = false)
    (hs : d.stage = .leaving) : Acts d a none

/-- What an action about a permit on its way makes of it: it may go on, or it is back or
destroyed. -/
inductive Parting.Acts (c : Parting) (a : Action) : Option Parting → Prop
  | goes (hs : c.settled = false) (hstays : a.isReturn = false) (hexit : a.isExit = false)
    (hspeech : a.isSpeech = false) : Acts c a (some { c with settled := true })
  | ends (hreturn : a.isReturn = true) (hexit : a.isExit = false) (hspeech : a.isSpeech = false) :
    Acts c a none

/-- Before it is done with its worker, a dispatch goes on until it takes a way out. -/
theorem Dispatch.Acts.onward {d d' : Dispatch} {a : Action} (hs : d.stage.isBack = false)
    (hn : d'.number = d.number) (hstays : a.isReturn = false) (hback : d'.stage.isBack = a.isExit)
    (hspeech : a.isSpeech = true → ∃ w, d.stage = .running w) : d.Acts a (some d') := by
  refine .goes d' hn hstays ?_ (fun _ => hs) hspeech ?_
  · rw [hs, Bool.false_or, hback]
  · intro hb
    rw [hs] at hb
    cases hb

namespace Shift

/-- What a turn makes of the dispatches of a shift and of their permits on the way back. It is about
one of them at most. -/
inductive Fate (s : Shift) (t : Turn) (i : Nat) (s' : Shift) : Prop
  | keeps (ho : t.dispatch? i = none) (hd : s'.dispatches = s.dispatches)
    (hp : s'.parting = s.parting) (hs : s'.started = s.started)
  | begins (d : Dispatch) (ho : t.dispatch? i = none) (hn : d.number = s.started)
    (hearly : d.stage.isBack = false) (hd : s'.dispatches = s.dispatches ++ [d])
    (hp : s'.parting = s.parting) (hs : s'.started = s.started + 1)
  | goes (d d' : Dispatch) (ho : t.dispatch? i = some d.number) (hmem : d ∈ s.dispatches)
    (ha : d.Acts t.action (some d')) (hd : s'.dispatches = (s.put d').dispatches)
    (hp : s'.parting = s.parting) (hs : s'.started = s.started)
  | leaves (d : Dispatch) (ho : t.dispatch? i = some d.number) (hmem : d ∈ s.dispatches)
    (ha : d.Acts t.action none) (hd : s'.dispatches = (s.leave d).dispatches)
    (hp : s'.parting = (s.leave d).parting) (hs : s'.started = s.started)
  | passes (c : Parting) (ho : t.dispatch? i = some c.number) (hmem : c ∈ s.parting)
    (ha : c.Acts t.action (some { c with settled := true })) (hd : s'.dispatches = s.dispatches)
    (hp : s'.parting = (s.pass c).parting) (hs : s'.started = s.started)
  | returns (c : Parting) (ho : t.dispatch? i = some c.number) (hmem : c ∈ s.parting)
    (ha : c.Acts t.action none) (hd : s'.dispatches = s.dispatches)
    (hp : s'.parting = (s.arrive c).parting) (hs : s'.started = s.started)

end Shift

namespace Engine

variable {e e' : Engine} {now : Moment} {a : Action} {i k n : Nat} {s s' : Shift}

theorem dispatch?_of_place (ha : a.shift? = some k) :
    (⟨e, now, a⟩ : Turn).dispatch? (e.place k) = a.dispatch? := by
  rw [Turn.dispatch?, ha]
  exact if_pos rfl

theorem number_of_dispatch {d : Dispatch} (h : s.dispatch? n = some d) : d.number = n := by
  have hfound := List.find?_some h
  exact of_decide_eq_true hfound

theorem fate_of_onLoop (step : Shift → Option Shift) (h : e.onLoop k step = some e')
    (hno : a.dispatch? = none)
    (hstep : ∀ s s', s.errands = [] → step s = some s' →
      s'.parting = s.parting ∧ (s'.dispatches = s.dispatches ∧ s'.started = s.started ∨
      ∃ d : Dispatch, d.number = s.started ∧ d.stage.isBack = false ∧
        s'.dispatches = s.dispatches ++ [d] ∧ s'.started = s.started + 1)) :
    ∃ s s', e.shift? k = some s ∧ e'.shifts = e.shifts.set k s' ∧
      s.Fate ⟨e, now, a⟩ (e.place k) s' := by
  have ho : (⟨e, now, a⟩ : Turn).dispatch? (e.place k) = none := Turn.dispatch?_of_none _ _ hno
  obtain ⟨s, s', hs, he, hs', rfl⟩ := exists_of_onLoop step h
  refine ⟨s, s', hs, rfl, ?_⟩
  obtain ⟨hp, ⟨hd, hn⟩ | ⟨d, hn, hearly, hd, hs⟩⟩ := hstep s s' he hs'
  · exact .keeps ho hd hp hn
  · exact .begins d ho hn hearly hd hp hs

theorem fate_of_onDispatch (step : Shift → Dispatch → Option Shift)
    (h : e.onDispatch k n step = some e') (ha : a.shift? = some k) (hof : a.dispatch? = some n)
    (hstep : ∀ s d s', d.errands = [] → step s d = some s' →
      s'.started = s.started ∧ s'.parting = s.parting ∧
        ∃ d', d.Acts a (some d') ∧ s'.dispatches = (s.put d').dispatches) :
    ∃ s s', e.shift? k = some s ∧ e'.shifts = e.shifts.set k s' ∧
      s.Fate ⟨e, now, a⟩ (e.place k) s' := by
  obtain ⟨s, d, s', hs, hd, he, hs', rfl⟩ := exists_of_onDispatch step h
  have hmem := s.mem_of_dispatch n d hd
  have ho : (⟨e, now, a⟩ : Turn).dispatch? (e.place k) = some d.number := by
    rw [dispatch?_of_place ha, hof, number_of_dispatch hd]
  refine ⟨s, s', hs, rfl, ?_⟩
  obtain ⟨hn, hp, d', hacts, hd'⟩ := hstep s d s' he hs'
  exact .goes d d' ho hmem hacts hd' hp hn

theorem number_of_parting {c : Parting} (h : s.parting? n = some c) : c.number = n := by
  have hfound := List.find?_some h
  exact of_decide_eq_true hfound

theorem fate_of_onParting (step : Shift → Parting → Option Shift)
    (h : e.onParting k n step = some e') (ha : a.shift? = some k) (hof : a.dispatch? = some n)
    (hstep : ∀ s c s', step s c = some s' → s'.started = s.started ∧ s'.dispatches = s.dispatches ∧
      (c.Acts a (some { c with settled := true }) ∧ s'.parting = (s.pass c).parting ∨
        c.Acts a none ∧ s'.parting = (s.arrive c).parting)) :
    ∃ s s', e.shift? k = some s ∧ e'.shifts = e.shifts.set k s' ∧
      s.Fate ⟨e, now, a⟩ (e.place k) s' := by
  obtain ⟨s, c, s', hs, hc, hs', rfl⟩ := exists_of_onParting step h
  have hmem : c ∈ s.parting := List.mem_of_find?_eq_some hc
  have ho : (⟨e, now, a⟩ : Turn).dispatch? (e.place k) = some c.number := by
    rw [dispatch?_of_place ha, hof, number_of_parting hc]
  refine ⟨s, s', hs, rfl, ?_⟩
  obtain ⟨hn, hd, ⟨hacts, hp⟩ | ⟨hacts, hp⟩⟩ := hstep s c s' hs'
  · exact .passes c ho hmem hacts hd hp hn
  · exact .returns c ho hmem hacts hd hp hn

theorem stage_checkout (s : Shift) (d : Dispatch) (healthy : WorkerId → Bool) :
    ∃ stage : Stage, stage.isBack = false ∧
      (s.checkout d healthy).dispatches = (s.put { d with stage }).dispatches ∧
      (s.checkout d healthy).parting = s.parting ∧
      (s.checkout d healthy).started = s.started := by
  rw [Shift.checkout]
  cases s.pool.reuse healthy with
  | mk pool parts =>
    obtain ⟨retired, found⟩ := parts
    cases found with
    | none => exact ⟨.connecting, rfl, rfl, rfl, rfl⟩
    | some w => exact ⟨.running w, rfl, rfl, rfl, rfl⟩

theorem dispatches_fetch (s : Shift) (max : Nat) :
    (s.fetch max).parting = s.parting ∧ (s.fetch max).dispatches = s.dispatches ∧
      (s.fetch max).started = s.started := by
  have hf := s.fetches_fetch max
  generalize s.fetch max = t at hf ⊢
  cases hf with
  | quits queue => exact ⟨rfl, rfl, rfl⟩
  | waits queue => exact ⟨rfl, rfl, rfl⟩
  | holds queue x rest => exact ⟨rfl, rfl, rfl⟩

/-- The loop of a shift, and who closes its queue and its permits, leave the dispatches alone. -/
theorem fate_of_loop (h : e.act now a = some e') (ha : a.shift? = some k)
    (hno : a.dispatch? = none) :
    ∃ s s', e.shift? k = some s ∧ e'.shifts = e.shifts.set k s' ∧
      s.Fate ⟨e, now, a⟩ (e.place k) s' := by
  have ho : (⟨e, now, a⟩ : Turn).dispatch? (e.place k) = none := Turn.dispatch?_of_none _ _ hno
  cases a with
  | closeQueue j | closePermits j =>
    cases ha
    simp only [act] at h
    split at h
    · cases h
    · next s hs =>
      split at h
      · rw [← Option.some.inj h]
        exact ⟨s, _, hs, rfl, .keeps ho rfl rfl rfl⟩
      · cases h
  | fetch j =>
    cases ha
    refine fate_of_onLoop _ h rfl fun s s' _ hstep => ?_
    split at hstep
    · cases hstep
      exact (dispatches_fetch s _).imp_right Or.inl
    · cases hstep
  | allow j =>
    cases ha
    refine fate_of_onLoop _ h rfl fun s s' _ hstep => ?_
    split at hstep
    · next session tests asked hp =>
      cases hstep
      have hallows := s.allows_allow now session tests asked
      generalize s.allow now session tests asked = t at hallows ⊢
      cases hallows with
      | launches p => exact ⟨rfl, Or.inr ⟨_, rfl, rfl, rfl, rfl⟩⟩
      | waits p => exact ⟨rfl, Or.inl ⟨rfl, rfl⟩⟩
      | quits p => exact ⟨rfl, Or.inl ⟨rfl, rfl⟩⟩
    · cases hstep
  | sweep j | finish j =>
    cases ha
    refine fate_of_onLoop _ h rfl fun s s' _ hstep => ?_
    split at hstep
    · cases hstep
      exact ⟨rfl, Or.inl ⟨rfl, rfl⟩⟩
    · cases hstep
  | deliver j =>
    cases ha
    simp only [act] at h
    split at h
    · cases h
    · next s hs =>
      split at h
      · cases h
      · rw [← Option.some.inj h]
        exact ⟨s, _, hs, rfl, .keeps ho rfl rfl rfl⟩
  | openSession | push | setLimit | cancel => cases ha
  | _ => cases hno

theorem fate_of_own (h : e.act now a = some e') (ha : a.shift? = some k)
    (hof : a.dispatch? = some n) :
    ∃ s s', e.shift? k = some s ∧ e'.shifts = e.shifts.set k s' ∧
      s.Fate ⟨e, now, a⟩ (e.place k) s' := by
  cases a with
  | checkout j n healthy =>
    cases ha
    cases hof
    refine fate_of_onDispatch _ h rfl rfl fun s d s' _ hstep => ?_
    split at hstep
    · next hs =>
      cases hstep
      obtain ⟨stage, hfront, hd, hp, hn⟩ := stage_checkout s d healthy
      have hacts : d.Acts (.checkout k n healthy) (some { d with stage }) :=
        .onward (by rw [hs]; rfl) rfl rfl hfront fun hb => by cases hb
      exact ⟨hn, hp, _, hacts, hd⟩
    · cases hstep
  | connected j n result =>
    cases ha
    cases hof
    refine fate_of_onDispatch _ h rfl rfl fun s d s' _ hstep => ?_
    split at hstep
    · next hs =>
      have hfront : d.stage.isBack = false := by rw [hs]; rfl
      cases result with
      | ok w =>
        cases hstep
        refine ⟨rfl, rfl, _, ?_, rfl⟩
        exact .onward hfront rfl rfl rfl fun hb => by cases hb
      | error x =>
        cases hstep
        refine ⟨rfl, rfl, _, ?_, rfl⟩
        exact .onward hfront rfl rfl rfl fun hb => by cases hb
    · cases hstep
  | hear j n news =>
    cases ha
    cases hof
    refine fate_of_onDispatch _ h rfl rfl fun s d s' _ hstep => ?_
    split at hstep
    · next w hs =>
      cases hstep
      have hfront : d.stage.isBack = false := by rw [hs]; rfl
      refine ⟨rfl, rfl, _, ?_, rfl⟩
      exact .onward hfront rfl rfl hfront fun _ => ⟨w, hs⟩
    · cases hstep
  | conclude j n result =>
    cases ha
    cases hof
    refine fate_of_onDispatch _ h rfl rfl fun s d s' _ hstep => ?_
    split at hstep
    · next w hs =>
      have hfront : d.stage.isBack = false := by rw [hs]; rfl
      cases result with
      | ok =>
        cases hstep
        refine ⟨rfl, rfl, _, ?_, rfl⟩
        exact .onward hfront rfl rfl rfl fun _ => ⟨w, hs⟩
      | error x =>
        cases hstep
        refine ⟨rfl, rfl, _, ?_, rfl⟩
        exact .onward hfront rfl rfl rfl fun _ => ⟨w, hs⟩
    · cases hstep
  | callOff j n =>
    cases ha
    cases hof
    refine fate_of_onDispatch _ h rfl rfl fun s d s' _ hstep => ?_
    split at hstep
    · next w hs =>
      split at hstep
      · cases hstep
        have hfront : d.stage.isBack = false := by rw [hs]; rfl
        refine ⟨rfl, rfl, _, ?_, rfl⟩
        exact .onward hfront rfl rfl rfl fun hb => by cases hb
      · cases hstep
    · cases hstep
  | checkin j n healthy =>
    cases ha
    cases hof
    refine fate_of_onDispatch _ h rfl rfl fun s d s' _ hstep => ?_
    split at hstep
    · next w broken hs =>
      cases hstep
      have hless : ({ d with stage := .leaving } : Dispatch).toGo < d.toGo := by
        simp only [Dispatch.toGo, hs, Stage.toGo]
        omega
      have hacts : d.Acts (.checkin k n healthy) (some { d with stage := .leaving }) := by
        refine .goes _ rfl rfl ?_ (fun hb => by cases hb) (fun hb => by cases hb) fun _ => hless
        rw [hs]
        rfl
      exact ⟨rfl, rfl, _, hacts, rfl⟩
    · cases hstep
  | leave j n =>
    cases ha
    cases hof
    obtain ⟨s, d, s', hs, hd, he, hs', rfl⟩ := exists_of_onDispatch _ h
    have hmem := s.mem_of_dispatch n d hd
    have ho : (⟨e, now, .leave k n⟩ : Turn).dispatch? (e.place k) = some d.number := by
      rw [dispatch?_of_place rfl, number_of_dispatch hd]
      rfl
    refine ⟨s, s', hs, rfl, ?_⟩
    split at hs'
    · next hstage =>
      cases hs'
      exact .leaves d ho hmem (.leaves rfl rfl rfl hstage) rfl rfl rfl
    · cases hs'
  | destroy j n =>
    cases ha
    cases hof
    refine fate_of_onParting _ h rfl rfl fun s c s' hstep => ?_
    split at hstep
    · cases hstep
    · obtain ⟨p, -, rfl⟩ := Option.map_eq_some_iff.mp hstep
      exact ⟨rfl, rfl, Or.inr ⟨.ends rfl rfl rfl, rfl⟩⟩
  | pass j n =>
    cases ha
    cases hof
    refine fate_of_onParting _ h rfl rfl fun s c s' hstep => ?_
    split at hstep
    · cases hstep
    · next hs =>
      cases hstep
      have hfresh : c.settled = false := by
        rw [← Bool.not_eq_true]
        intro hc
        simp [hc] at hs
      exact ⟨rfl, rfl, Or.inl ⟨.goes hfresh rfl rfl rfl, rfl⟩⟩
  | giveBack j n =>
    cases ha
    cases hof
    refine fate_of_onParting _ h rfl rfl fun s c s' hstep => ?_
    split at hstep
    · cases hstep
      exact ⟨rfl, rfl, Or.inr ⟨.ends rfl rfl rfl, rfl⟩⟩
    · cases hstep
  | deliverFor j n =>
    cases ha
    cases hof
    simp only [act] at h
    split at h
    · cases h
    · next s hs =>
      split at h
      · cases h
      · next d hd =>
        split at h
        · cases h
        · next x rest he =>
          rw [← Option.some.inj h]
          have ho : (⟨e, now, .deliverFor k n⟩ : Turn).dispatch? (e.place k) = some d.number := by
            rw [dispatch?_of_place rfl, number_of_dispatch hd]
            rfl
          -- The errand may leave another one, but a lighter one.
          have hless : ({ d with errands := (e.desk.deliver now x).2 ++ rest } : Dispatch).toGo <
              d.toGo := by
            have hone := e.desk.toGo_deliver now x
            simp only [Dispatch.toGo, he, weigh_append, weigh_cons]
            omega
          have hacts : d.Acts (.deliverFor k n)
              (some { d with errands := (e.desk.deliver now x).2 ++ rest }) :=
            .goes _ rfl rfl (Bool.or_false _).symm (fun hb => by cases hb) (fun hb => by cases hb)
              fun _ => hless
          exact ⟨s, _, hs, rfl, .goes d _ ho (s.mem_of_dispatch n d hd) hacts rfl rfl rfl⟩
  | _ => cases hof

theorem fate_of_act (h : e.act now a = some e') (ha : a.shift? = some k) :
    ∃ s s', e.shift? k = some s ∧ e'.shifts = e.shifts.set k s' ∧
      s.Fate ⟨e, now, a⟩ (e.place k) s' := by
  cases hof : a.dispatch? with
  | none => exact fate_of_loop h ha hof
  | some n => exact fate_of_own h ha hof

/-- What a turn makes of the dispatches of the shift with a number. A shift that was not there
before has none, and the turn is about nobody's dispatch. -/
theorem fate_of_nth (h : e.act now a = some e') (hs' : e'.nth i = some s') :
    (∃ s, e.nth i = some s ∧ s.Fate ⟨e, now, a⟩ i s') ∨
      i = e.shifts.length ∧ (⟨e, now, a⟩ : Turn).dispatch? i = none ∧
        ∃ n, s' = .ofPermits (.ofLimit n) := by
  cases ha : a.shift? with
  | some k =>
    left
    -- The shift that the action is about has changed, and the others have not.
    obtain ⟨s, t, hs, hset, hfate⟩ := fate_of_act h ha
    have hnth : e'.nth i = (e.putShift k t).nth i := by rw [nth, nth, hset, putShift]
    rw [hnth, nth_putShift hs] at hs'
    split at hs'
    · next hi =>
      rw [← Option.some.inj hs', hi]
      exact ⟨s, nth_place hs, hfate⟩
    · next hi =>
      have ho : (⟨e, now, a⟩ : Turn).dispatch? i = none := by
        rw [Turn.dispatch?, ha]
        exact if_neg fun hplace => hi (Option.some.inj hplace).symm
      exact ⟨s', hs', .keeps ho rfl rfl rfl⟩
  | none =>
    have ho : (⟨e, now, a⟩ : Turn).dispatch? i = none := by
      rw [Turn.dispatch?, ha]
      exact if_neg fun hplace => by cases hplace
    rcases step_of_change (change_of_act e now a e' h) hs' with ⟨s, hs, hstep⟩ | ⟨hi, -, hfresh⟩
    · refine Or.inl ⟨s, hs, ?_⟩
      cases hstep with
      | rests => exact .keeps ho rfl rfl rfl
      | queues => exact .keeps ho rfl rfl rfl
      | adjusts => exact .keeps ho rfl rfl rfl
      | stops => exact .keeps ho rfl rfl rfl
      | works k _ hk => rw [ha] at hk; cases hk
      | hands k _ _ hk => rw [ha] at hk; cases hk
    · exact Or.inr ⟨hi, ho, hfresh⟩

end Engine

end Retest
