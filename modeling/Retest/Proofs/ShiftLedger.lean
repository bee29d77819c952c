import Mathlib.Data.List.Nodup
import Retest.Proofs.ShiftState

/-! The books of a shift: which tests have no result yet, and which errands are to be done. Every
step of a shift moves tests about or ends them, and each test that it ends leaves one set of
errands. -/

namespace Retest
open Std

universe u v

def TestResult.entry (r : TestResult) : QueueEntry := ⟨r.session, r.test⟩

def entriesOf (session : SessionId) (tests : List String) : List QueueEntry :=
  tests.map fun test => { session, test }

def Phase.held : Phase → List QueueEntry
  | .holding session tests _ => entriesOf session tests
  | .choosing | .joining | .sweeping | .over => []

def Dispatch.pending (d : Dispatch) : List QueueEntry :=
  entriesOf d.docket.session d.docket.unfinished

namespace Shift

def pending (s : Shift) : List QueueEntry :=
  s.queue.entries ++ s.phase.held ++ s.dispatches.flatMap Dispatch.pending

def outstanding (s : Shift) : List Errand := s.errands ++ s.dispatches.flatMap (·.errands)

def Handed (s : Shift) (x : QueueEntry) : Prop :=
  ∃ d ∈ s.dispatches, ∃ w, d.stage = .running w ∧ d.docket.session = x.session ∧
    x.test ∈ d.docket.tests

structure Ends (s s' : Shift) (ended : List TestResult) : Prop where
  pending : ∀ f, weigh f s.pending = weigh f s'.pending + weigh (fun r => f r.entry) ended
  outstanding : ∀ g, Silent g →
    weigh g s'.outstanding = weigh g s.outstanding + weigh (resultWeight g) ended

end Shift

theorem weigh_entriesOf (f : QueueEntry → Nat) (session : SessionId) (tests : List String) :
    weigh f (entriesOf session tests) = weigh (fun t => f ⟨session, t⟩) tests :=
  weigh_map f _ tests

/-- What changes when one dispatch takes the place of another with its number. -/
theorem weigh_replace (l : List Dispatch) (h : (l.map (·.number)).Nodup) (d d' : Dispatch)
    (hd : d ∈ l) (hn : d'.number = d.number) (f : Dispatch → Nat) :
    weigh f (l.map fun c => if c.number = d'.number then d' else c) + f d = weigh f l + f d' := by
  rw [hn]
  exact weigh_modify f (·.number) l h d hd fun _ => d'

/-- A dispatch that weighs nothing can be taken out. -/
theorem weigh_without (l : List Dispatch) (h : (l.map (·.number)).Nodup) (d : Dispatch) (hd : d ∈ l)
    (f : Dispatch → Nat) (hf : f d = 0) :
    weigh f (l.filter fun c => c.number ≠ d.number) = weigh f l := by
  have hrest := weigh_takeOut f (·.number) l h d hd
  rwa [hf, Nat.add_zero] at hrest

/-- What changes in the weight of a map when a key gets a new value. -/
theorem weigh_insert {κ : Type u} {α : Type v} [Ord κ] [TransOrd κ] [LawfulEqOrd κ]
    (m : SortedMap κ α) (hs : m.Sorted) (k : κ) (a : α) (f : κ × α → Nat) :
    weigh f (m.insert k a).entries + ((m.find? k).map fun b => f (k, b)).getD 0 =
      weigh f m.entries + f (k, a) := by
  obtain ⟨l⟩ := m
  change weigh f (SortedMap.insertEntry k a l) +
    ((SortedMap.lookup k l).map fun b => f (k, b)).getD 0 = weigh f l + f (k, a)
  change List.Pairwise _ l at hs
  induction l with
  | nil => simp [SortedMap.insertEntry, SortedMap.lookup]
  | cons e l ih =>
    obtain ⟨j, b⟩ := e
    obtain ⟨hlt, hl⟩ := List.pairwise_cons.mp hs
    cases hc : compare k j with
    | lt =>
      -- The key is less than all others, so it has no value yet.
      have hnone : SortedMap.lookup k l = none := by
        rw [Option.eq_none_iff_forall_ne_some]
        intro c hk
        obtain ⟨i, hi, hm⟩ := SortedMap.mem_of_find ⟨l⟩ k c hk
        have hji := hlt (i, c) hm
        rw [LawfulEqOrd.eq_of_compare hi] at hc
        have hjj : compare j j = .lt := TransCmp.lt_trans hji hc
        rw [LawfulEqOrd.compare_eq_iff_eq.mpr rfl] at hjj
        cases hjj
      simp only [SortedMap.insertEntry, hc, SortedMap.lookup, hnone, weigh_cons]
      simp
      omega
    | eq =>
      have hkj : k = j := LawfulEqOrd.eq_of_compare hc
      subst hkj
      simp only [SortedMap.insertEntry, hc, SortedMap.lookup, weigh_cons]
      simp
      omega
    | gt =>
      have hrest := ih hl
      simp only [SortedMap.insertEntry, hc, SortedMap.lookup, weigh_cons]
      simp
      omega

namespace Shift

variable {s : Shift}

theorem nodup_unfinished (h : s.pending.Nodup) (d : Dispatch) (hd : d ∈ s.dispatches) :
    d.docket.unfinished.Nodup := by
  have hall : (s.dispatches.flatMap Dispatch.pending).Nodup := (List.nodup_append.mp h).2.1
  have hone : d.pending.Nodup := (List.nodup_flatMap.mp hall).1 d hd
  exact List.Nodup.of_map _ hone

/-- A dispatch ends tests on its docket, and makes the errands for them. -/
theorem ends_put (h : s.Sound) (d d' : Dispatch) (pool : Pool) (retired : List WorkerId)
    (hd : d ∈ s.dispatches) (he : d.errands = []) (hn : d'.number = d.number)
    (errands : List Errand) (ended : List TestResult)
    (hdocket : d.docket.Ends d'.docket errands ended)
    (herrands : ∀ g, Silent g → weigh g d'.errands = weigh g errands) :
    s.Ends ({ s with pool, retired }.put d') ended where
  pending f := by
    have hput := weigh_replace s.dispatches h.numbers d d' hd hn fun d => weigh f d.pending
    have hleft := hdocket.left fun t => f ⟨d.docket.session, t⟩
    have hended : weigh (fun r => f ⟨d.docket.session, r.test⟩) ended =
        weigh (fun r => f r.entry) ended := by
      apply weigh_congr
      intro r hr
      rw [TestResult.entry, (hdocket.mine r hr).1]
    simp only [Dispatch.pending, weigh_entriesOf, hdocket.session] at hput
    simp only [pending, weigh_append, weigh_flatMap, Dispatch.pending, weigh_entriesOf, put]
    omega
  outstanding g hg := by
    have hput := weigh_replace s.dispatches h.numbers d d' hd hn fun d => weigh g d.errands
    rw [he, herrands g hg, hdocket.errands g hg] at hput
    simp only [outstanding, weigh_append, weigh_flatMap, put]
    simp only [weigh_nil] at hput
    omega

/-- Where no test ends, the books stay as they are. -/
theorem ends_nil (s' : Shift) (hp : ∀ f, weigh f s'.pending = weigh f s.pending)
    (ho : s'.outstanding = s.outstanding) : s.Ends s' [] where
  pending f := (hp f).symm
  outstanding g _ := by rw [ho]; rfl

/-- Tests that are given up were not run. -/
theorem ends_abandon (session : SessionId) (tests : List String) (now : Moment) (h : tests.Nodup) :
    ∃ ended, (∀ f, weigh f (entriesOf session tests) = weigh (fun r => f r.entry) ended) ∧
      (∀ g, Silent g → weigh g (abandon session tests now) = weigh (resultWeight g) ended) ∧
      ∀ r ∈ ended, r.outcome = .notRun := by
  have hfresh := Docket.unfinished_fresh session tests
  obtain ⟨ended, he, hout⟩ := Docket.ends_finishAll now (fun _ => .notRun) "run cancelled"
    { session, tests } ({ session, tests } : Docket).unfinished (by rwa [hfresh])
  refine ⟨ended, ?_, he.errands, ?_⟩
  · intro f
    have hleft := he.left fun t => f ⟨session, t⟩
    rw [Docket.unfinished_finishAll_self, hfresh, weigh_nil, Nat.zero_add] at hleft
    rw [weigh_entriesOf, hleft]
    apply weigh_congr
    intro r hr
    rw [TestResult.entry, (he.mine r hr).1]
  · intro r hr
    obtain ⟨t, ht⟩ := hout r hr
    exact ht

theorem ends_abandonAll (now : Moment) (l : List (SessionId × List String))
    (h : ∀ e ∈ l, e.2.Nodup) :
    ∃ ended,
      (∀ f, weigh (fun e => weigh f (entriesOf e.1 e.2)) l = weigh (fun r => f r.entry) ended) ∧
      (∀ g, Silent g → weigh g (l.flatMap fun e => abandon e.1 e.2 now) =
        weigh (resultWeight g) ended) ∧ ∀ r ∈ ended, r.outcome = .notRun := by
  induction l with
  | nil => exact ⟨[], fun _ => rfl, fun _ _ => rfl, by simp⟩
  | cons e l ih =>
    obtain ⟨first, hf, hg, hout⟩ := ends_abandon e.1 e.2 now (h e List.mem_cons_self)
    obtain ⟨more, hf', hg', hout'⟩ := ih fun d hd => h d (List.mem_cons_of_mem e hd)
    refine ⟨first ++ more, ?_, ?_, ?_⟩
    · intro f
      rw [weigh_cons, weigh_append, hf, hf']
    · intro g hs
      rw [List.flatMap_cons, weigh_append, weigh_append, hg g hs, hg' g hs]
    · intro r hr
      exact (List.mem_append.mp hr).elim (hout r) (hout' r)

theorem weigh_bySession (f : QueueEntry → Nat) (entries : List QueueEntry) :
    weigh (fun e => weigh f (entriesOf e.1 e.2)) (bySession entries).entries = weigh f entries := by
  have hfold (m : SortedMap SessionId (List String)) (hm : m.Sorted) :
      weigh (fun e => weigh f (entriesOf e.1 e.2)) (entries.foldl (fun m e =>
        m.insert e.session ((m.find? e.session).getD [] ++ [e.test])) m).entries =
      weigh (fun e => weigh f (entriesOf e.1 e.2)) m.entries + weigh f entries := by
    induction entries generalizing m with
    | nil => rfl
    | cons e entries ih =>
      obtain ⟨session, test⟩ := e
      have hins := weigh_insert m hm session ((m.find? session).getD [] ++ [test])
        fun e => weigh f (entriesOf e.1 e.2)
      rw [List.foldl_cons, ih _ (SortedMap.sorted_insert m _ _ hm), weigh_cons]
      simp only [weigh_entriesOf, weigh_append, weigh_cons, weigh_nil] at hins ⊢
      cases hf : m.find? session <;> simp [hf] at hins ⊢ <;> omega
  simpa [bySession, SortedMap.empty] using hfold .empty SortedMap.sorted_empty

theorem nodup_of_mem_bySession (entries : List QueueEntry) (h : entries.Nodup)
    (e : SessionId × List String) (he : e ∈ (bySession entries).entries) : e.2.Nodup := by
  rw [List.nodup_iff_count_le_one]
  intro t
  have hone : entries.count ⟨e.1, t⟩ ≤ 1 := List.nodup_iff_count_le_one.mp h ⟨e.1, t⟩
  rw [← weigh_eq_count, ← weigh_bySession] at hone
  -- How often a test stands in its group is at most how often it stands in the queue.
  have hle := le_weigh (fun e' : SessionId × List String =>
    weigh (fun x => if x = ⟨e.1, t⟩ then 1 else 0) (entriesOf e'.1 e'.2)) _ e he
  rw [← weigh_eq_count]
  simp only [weigh_entriesOf, QueueEntry.mk.injEq, true_and] at hone hle
  omega

/-- The first tests of a queue go to the loop. -/
theorem ends_fetch (hp : s.phase = .choosing) (max : Nat) : s.Ends (s.fetch max) [] := by
  have hf := s.fetches_fetch max
  generalize s.fetch max = t at hf ⊢
  cases hf with
  | quits queue hq => exact ends_nil _ (fun f => by simp [pending, hp, hq, Phase.held]) rfl
  | waits queue hq => exact ends_nil _ (fun f => by simp [pending, hq]) rfl
  | holds queue e rest hq hs =>
    refine ends_nil _ (fun f => ?_) rfl
    -- The batch keeps the names only, but all its entries are of the first one's session.
    have hheld : entriesOf e.session ((e :: rest).map (·.test)) = e :: rest := by
      rw [entriesOf, List.map_map]
      refine (List.map_congr_left ?_).trans (List.map_id' _)
      intro x hx
      rcases List.mem_cons.mp hx with rfl | hx
      · rfl
      · rw [Function.comp_apply, ← hs x hx]
    simp only [pending, Phase.held, hheld, hq, hp, weigh_append, weigh_nil]
    omega

theorem ends_launch (session : SessionId) (tests : List String) (asked : Bool) (p : Permits)
    (hp : s.phase = .holding session tests asked) :
    s.Ends ({ s with permits := p }.launch session tests) [] := by
  refine ends_nil _ (fun f => ?_) ?_
  · have hfresh := Docket.unfinished_fresh session tests
    simp only [pending, launch, hp, Phase.held, weigh_append, List.flatMap_append,
      List.flatMap_cons, List.flatMap_nil, Dispatch.pending, hfresh, weigh_nil]
    omega
  · simp [outstanding, launch]

theorem ends_allow (h : s.pending.Nodup) (now : Moment) (session : SessionId)
    (tests : List String) (asked : Bool) (hp : s.phase = .holding session tests asked) :
    ∃ ended, s.Ends (s.allow now session tests asked) ended ∧ ∀ r ∈ ended, r.outcome = .notRun := by
  have ha := s.allows_allow now session tests asked
  generalize s.allow now session tests asked = t at ha ⊢
  cases ha with
  | launches p => exact ⟨[], ends_launch session tests asked p hp, by simp⟩
  | waits p => exact ⟨[], ends_nil _ (fun f => by simp [pending, hp, Phase.held]) rfl, by simp⟩
  | quits p =>
    have hheld : (entriesOf session tests).Nodup := by
      have hfirst := (List.nodup_append.mp h).1
      rw [hp] at hfirst
      exact (List.nodup_append.mp hfirst).2.1
    obtain ⟨ended, hf, hg, hout⟩ := ends_abandon session tests now (List.Nodup.of_map _ hheld)
    refine ⟨ended, ⟨?_, ?_⟩, hout⟩
    · intro f
      simp only [pending, hp, Phase.held, weigh_append, weigh_nil, hf]
      omega
    · intro g hs
      simp only [outstanding, weigh_append, hg g hs]
      omega

theorem ends_sweep (h : s.pending.Nodup) (hp : s.phase = .joining) (now : Moment) :
    ∃ ended, s.Ends (s.sweep now) ended ∧ ∀ r ∈ ended, r.outcome = .notRun := by
  have hqueue : s.queue.entries.Nodup := by
    have hfirst := (List.nodup_append.mp h).1
    exact (List.nodup_append.mp hfirst).1
  obtain ⟨ended, hf, hg, hout⟩ := ends_abandonAll now (bySession s.queue.entries).entries
    (nodup_of_mem_bySession s.queue.entries hqueue)
  refine ⟨ended, ⟨?_, ?_⟩, hout⟩
  · intro f
    rw [← hf, weigh_bySession]
    simp only [pending, sweep, Queue.drain, hp, Phase.held, weigh_append, weigh_nil]
    omega
  · intro g hs
    simp only [outstanding, sweep, Queue.drain, weigh_append, hg g hs]
    omega

/-- A dispatch that only takes its next step ends nothing. -/
theorem ends_step (h : s.Sound) (hn : s.pending.Nodup) (d d' : Dispatch) (pool : Pool)
    (retired : List WorkerId) (hd : d ∈ s.dispatches) (he : d.errands = [])
    (hnumber : d'.number = d.number) (hdocket : d'.docket = d.docket)
    (herrands : d'.errands = d.errands) : s.Ends ({ s with pool, retired }.put d') [] := by
  have hdone := Docket.ends_refl d.docket (nodup_unfinished hn d hd) [] fun _ _ => rfl
  exact ends_put h d d' pool retired hd he hnumber [] [] (by rwa [hdocket]) (by simp [herrands, he])

/-- The diagnostic of a failed dispatch does not count. -/
theorem weigh_failWith (d : Dispatch) (now : Moment) (notice reason : String) (g : Errand → Nat)
    (hg : Silent g) : weigh g (failWith d now notice reason).errands =
      weigh g (d.docket.failRemaining now reason).2 := by
  simp only [failWith, weigh_cons, hg.diagnostic, Nat.zero_add]

/-- A dispatch that goes takes nothing with it. -/
theorem ends_leave (h : s.Sound) (d : Dispatch) (hd : d ∈ s.dispatches) (he : d.errands = [])
    (hs : d.stage = .leaving) : s.Ends (s.leave d) [] := by
  -- A worker that is back has left no test without a result.
  have hdone : d.docket.unfinished = [] := h.settled d hd (by rw [hs]; rfl)
  refine ⟨?_, ?_⟩
  · intro f
    have hp := weigh_without s.dispatches h.numbers d hd (fun d => weigh f d.pending)
      (by simp [Dispatch.pending, entriesOf, hdone])
    simp only [pending, leave, weigh_append, weigh_flatMap, hp, weigh_nil]
    omega
  · intro g _
    have ho := weigh_without s.dispatches h.numbers d hd (fun d => weigh g d.errands) (by simp [he])
    simp only [outstanding, leave, weigh_append, weigh_flatMap, ho, weigh_nil]
    omega

/-- Every step of a shift ends some tests, perhaps none. A test that no worker has then was not
run. -/
theorem ends_works {settings : EngineSettings} {now : Moment} {hired : Option WorkerId} {s' : Shift}
    (h : s.Sound) (hn : s.pending.Nodup) (hw : s.Works settings now hired s') :
    ∃ ended, s.Ends s' ended ∧ ∀ r ∈ ended, r.outcome = .notRun ∨ s.Handed r.entry := by
  cases hw with
  | closeQueue hc hq => exact ⟨[], ends_nil _ (fun _ => rfl) rfl, by simp⟩
  | closePermits hq hp => exact ⟨[], ends_nil _ (fun _ => rfl) rfl, by simp⟩
  | fetch he hp => exact ⟨[], ends_fetch hp _, by simp⟩
  | allow session tests asked he hp =>
    obtain ⟨ended, hends, hout⟩ := ends_allow hn now session tests asked hp
    exact ⟨ended, hends, fun r hr => Or.inl (hout r hr)⟩
  | sweep he hp hd =>
    obtain ⟨ended, hends, hout⟩ := ends_sweep hn hp now
    exact ⟨ended, hends, fun r hr => Or.inl (hout r hr)⟩
  | finish he hp =>
    exact ⟨[], ends_nil _ (fun f => by simp [pending, finish, hp, Phase.held]) rfl, by simp⟩
  | checkout d healthy hd he hs =>
    exact ⟨[], ends_step h hn d _ _ _ hd he rfl rfl rfl, by simp⟩
  | connected d w hd he hs =>
    exact ⟨[], ends_step h hn d _ _ s.retired hd he rfl rfl rfl, by simp⟩
  | unconnected d x hd he hs =>
    have hearly : d.stage.isEarly = true := by rw [hs]; rfl
    obtain ⟨ended, hends, hout⟩ := Docket.ends_finishAll now
      (fun t => if d.docket.started.contains t then .crashed else .notRun) x.message d.docket
      d.docket.unfinished (nodup_unfinished hn d hd)
    refine ⟨ended, ends_put h d { failWith d now _ x.message with stage := .leaving } s.pool
      s.retired hd he rfl _ ended hends (weigh_failWith d now _ x.message), ?_⟩
    intro r hr
    obtain ⟨t, ht⟩ := hout r hr
    -- No worker has said anything yet, so no test counts as crashed.
    rw [h.unheard d hd hearly] at ht
    exact Or.inl ht
  | hear d w news hd he hs =>
    obtain ⟨ended, hends⟩ := Docket.ends_hear d.docket now news (nodup_unfinished hn d hd)
    refine ⟨ended, ends_put h d { d with
      docket := (d.docket.hear now news).1, errands := (d.docket.hear now news).2 } s.pool s.retired
      hd he rfl _ ended hends (fun _ _ => rfl), ?_⟩
    exact fun r hr => Or.inr ⟨d, hd, w, hs, (hends.mine r hr).1.symm, (hends.mine r hr).2⟩
  | conclude d w result hd he hs =>
    cases result with
    | ok =>
      obtain ⟨ended, hends, -⟩ := Docket.ends_finishAll now (fun _ => .error)
        "worker finished without reporting a result" d.docket d.docket.unfinished
        (nodup_unfinished hn d hd)
      refine ⟨ended, ends_put h d { d with
        docket := (d.docket.missRemaining now).1, errands := (d.docket.missRemaining now).2
        stage := .returning w false } s.pool s.retired hd he rfl _ ended hends (fun _ _ => rfl), ?_⟩
      exact fun r hr => Or.inr ⟨d, hd, w, hs, (hends.mine r hr).1.symm, (hends.mine r hr).2⟩
    | error x =>
      obtain ⟨ended, hends, -⟩ := Docket.ends_finishAll now
        (fun t => if d.docket.started.contains t then .crashed else .notRun) x.message d.docket
        d.docket.unfinished (nodup_unfinished hn d hd)
      refine ⟨ended, ends_put h d { failWith d now _ x.message with stage := .returning w true }
        s.pool s.retired hd he rfl _ ended hends (weigh_failWith d now _ x.message), ?_⟩
      exact fun r hr => Or.inr ⟨d, hd, w, hs, (hends.mine r hr).1.symm, (hends.mine r hr).2⟩
  | callOff d w hd he hs hc =>
    obtain ⟨ended, hends, -⟩ := Docket.ends_finishAll now (fun _ => .notRun) "run cancelled"
      d.docket d.docket.unfinished (nodup_unfinished hn d hd)
    refine ⟨ended, ends_put h d { d with
      docket := (d.docket.cancelRemaining now).1, errands := (d.docket.cancelRemaining now).2
      stage := .returning w true } s.pool s.retired hd he rfl _ ended hends (fun _ _ => rfl), ?_⟩
    exact fun r hr => Or.inr ⟨d, hd, w, hs, (hends.mine r hr).1.symm, (hends.mine r hr).2⟩
  | checkin d w broken healthy hd he hs =>
    exact ⟨[], ends_step h hn d _ _ _ hd he rfl rfl rfl, by simp⟩
  | leave d hd he hs => exact ⟨[], ends_leave h d hd he hs, by simp⟩
  | parts c _ hc hparts =>
    obtain ⟨p, l, rfl, -⟩ := hparts.exists_eq
    exact ⟨[], ends_nil _ (fun _ => rfl) rfl, by simp⟩

/-- Doing an errand takes it off the books and puts on them what it leaves. -/
theorem weigh_hands {x : Errand} {more : List Errand} {s' : Shift} (h : s.Sound)
    (hh : s.Hands x more s') :
    (∀ f, weigh f s'.pending = weigh f s.pending) ∧
      ∀ g, weigh g s'.outstanding + g x = weigh g s.outstanding + weigh g more := by
  cases hh with
  | loop _ rest _ he =>
    refine ⟨fun _ => rfl, ?_⟩
    intro g
    simp only [outstanding, he, weigh_append, weigh_cons]
    omega
  | dispatch d _ rest _ hd he =>
    constructor
    · intro f
      have hput := weigh_replace s.dispatches h.numbers d { d with errands := more ++ rest } hd rfl
        fun d => weigh f d.pending
      simp only [Dispatch.pending] at hput
      simp only [pending, put, weigh_append, weigh_flatMap, Dispatch.pending]
      omega
    · intro g
      have hput := weigh_replace s.dispatches h.numbers d { d with errands := more ++ rest } hd rfl
        fun d => weigh g d.errands
      simp only [he, weigh_append, weigh_cons] at hput
      simp only [outstanding, put, weigh_append, weigh_flatMap]
      omega

end Shift

end Retest
