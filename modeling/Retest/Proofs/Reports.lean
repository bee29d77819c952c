import Retest.Proofs.Announcements
import Retest.Proofs.DispatchSteps
import Retest.Proofs.Homes
import Retest.Proofs.Summaries

/-! What workers report on their tests, and what becomes of it. The first report on a test is its
result; a test on which nothing was reported gets a result as well, but it does not pass. -/

namespace Retest

def Engine.docket? (e : Engine) (k n : Nat) : Option Docket :=
  ((e.shift? k).bind (·.dispatch? n)).map (·.docket)

namespace Turn

/-- What a worker reports on a test by a turn. It can speak about the tests on its docket only. -/
def report? (x : QueueEntry) : Turn → Option Outcome
  | ⟨e, _, .hear k n (.finished test outcome _)⟩ =>
    (e.docket? k n).bind fun c =>
      if c.session = x.session ∧ test = x.test ∧ test ∈ c.tests then some outcome else none
  | _ => none

def strands? : Turn → Option SessionId
  | ⟨e, _, .connected k n (.error _)⟩ => (e.docket? k n).map (·.session)
  | _ => none

/-- Only a worker that has the test on its docket can report on it. -/
theorem exists_of_report {e : Engine} {now : Moment} {a : Action} {x : QueueEntry} {o : Outcome}
    (h : (⟨e, now, a⟩ : Turn).report? x = some o) : ∃ k n diagnostic c,
      a = .hear k n (.finished x.test o diagnostic) ∧ e.docket? k n = some c ∧
        c.session = x.session ∧ x.test ∈ c.tests := by
  cases a with
  | hear k n news =>
    cases news with
    | started => cases h
    | finished t o' diagnostic =>
      obtain ⟨c, hc, hreport⟩ := Option.bind_eq_some_iff.mp h
      split at hreport
      · next hmine =>
        obtain ⟨hsession, rfl, hlisted⟩ := hmine
        rw [← Option.some.inj hreport]
        exact ⟨k, n, diagnostic, c, rfl, hc, hsession, hlisted⟩
      · cases hreport
  | _ => cases h

end Turn

def firstReport (l : List Turn) (x : QueueEntry) : Option Outcome := l.findSome? (Turn.report? x)

theorem firstReport_concat (l : List Turn) (turn : Turn) (x : QueueEntry) :
    firstReport (l ++ [turn]) x = (firstReport l x).or (turn.report? x) := by
  rw [firstReport, List.findSome?_append]
  cases hr : turn.report? x <;> simp [firstReport, hr]

/-- An open test on a list that is ended gets a result with its outcome. -/
theorem Docket.exists_of_finishAll (now : Moment) (outcome : String → Outcome) (reason : String)
    (d : Docket) (l : List String) (t : String) (hl : t ∈ l) (ht : t ∈ d.unfinished) :
    ∃ r, .publish (.finished r) ∈ (finishAll now outcome reason d l).2 ∧
      r.session = d.session ∧ r.outcome = outcome t := by
  induction l generalizing d with
  | nil => cases hl
  | cons u l ih =>
    rw [finishAll]
    -- Either the test comes first, or it is still open when the first one has ended.
    by_cases hut : u = t
    · obtain ⟨r, hr, hsession, -, hout⟩ :=
        finish_of_mem d now t (outcome t) (some { message := reason }) ht
      rw [hut, hr]
      exact ⟨r, List.mem_append_left _ (by simp [TestResult.announce]), hsession, hout⟩
    · have hrest : t ∈ l := (List.mem_cons.mp hl).resolve_left fun h => hut h.symm
      have hopen : t ∈ (d.finish now u (outcome u) (some { message := reason })).1.unfinished := by
        rw [unfinished_finish]
        exact List.mem_filter.mpr ⟨ht, by simpa using fun h => hut h.symm⟩
      have hsession : (d.finish now u (outcome u) (some { message := reason })).1.session =
          d.session := by
        rw [finish]
        split <;> rfl
      obtain ⟨r, hr, hmine, hout⟩ := ih _ hrest hopen
      exact ⟨r, List.mem_append_right _ hr, hmine.trans hsession, hout⟩

structure Dispatch.Knows (d : Dispatch) (x : QueueEntry) : Prop where
  stage : d.stage.isBack = false
  session : d.docket.session = x.session
  listed : x.test ∈ d.docket.tests
  ended : x.test ∉ d.docket.unfinished

namespace Shift

def Knows (s : Shift) (x : QueueEntry) : Prop := ∃ d ∈ s.dispatches, d.Knows x

/-- A step by which some tests are reported for the first time. A test ends with what is reported
on it, or else not with a pass; and a dispatch that goes on knows what is reported, and no more. -/
structure Tells (s : Shift) (told : QueueEntry → Option Outcome) (s' : Shift) : Prop where
  waits : ∀ x ∈ s'.pending, x ∈ s.pending
  results : ∀ r, .publish (.finished r) ∈ s'.outstanding →
    .publish (.finished r) ∈ s.outstanding ∨ r.entry ∈ s.pending ∧
      (told r.entry = some r.outcome ∨ told r.entry = none ∧ r.outcome ≠ .pass)
  knows : ∀ x, s'.Knows x → s.Knows x ∨ told x ≠ none

def Mute (s s' : Shift) : Prop := s.Tells (fun _ => none) s'

variable {s s' : Shift} {ended : List TestResult}

theorem knows_put {d : Dispatch} (pool : Pool) (retired : List WorkerId) {x : QueueEntry}
    (h : ({ s with pool, retired }.put d).Knows x) : s.Knows x ∨ d.Knows x := by
  obtain ⟨b, hb, hx⟩ := h
  rcases mem_put _ d b hb with rfl | hb
  · exact Or.inr hx
  · exact Or.inl ⟨b, hb, hx⟩

/-- The errands of a dispatch are those of its shift. -/
theorem mem_outstanding_put {d d' : Dispatch} {y : Errand} (hd : d ∈ s.dispatches)
    (hn : d'.number = d.number) (hy : y ∈ d'.errands) : y ∈ (s.put d').outstanding := by
  have hput : d' ∈ (s.put d').dispatches := List.mem_map.mpr ⟨d, hd, if_pos hn.symm⟩
  exact List.mem_append_right _ (List.mem_flatMap.mpr ⟨d', hput, hy⟩)

theorem Mute.of_ends (h : s.Ends s' ended) (hout : ∀ r ∈ ended, r.outcome ≠ .pass)
    (hk : ∀ x, s'.Knows x → s.Knows x) : s.Mute s' where
  waits := h.mem_pending
  results r hr := (h.finished r hr).imp id fun hr => ⟨h.entry_mem r hr, Or.inr ⟨rfl, hout r hr⟩⟩
  knows x hx := Or.inl (hk x hx)

/-- What the loop does without a new dispatch. -/
theorem Mute.of_same (h : s.Ends s' ended) (hout : ∀ r ∈ ended, r.outcome = .notRun)
    (hd : s'.dispatches = s.dispatches) : s.Mute s' := by
  refine .of_ends h (fun r hr hp => ?_) fun x hx => ?_
  · rw [hout r hr] at hp
    cases hp
  · rwa [Knows, hd] at hx

theorem mute_allow (hn : s.pending.Nodup) (now : Moment) (session : SessionId)
    (tests : List String) (asked : Bool) (hp : s.phase = .holding session tests asked) :
    s.Mute (s.allow now session tests asked) := by
  obtain ⟨ended, hends, hout⟩ := ends_allow hn now session tests asked hp
  refine .of_ends hends (fun r hr hpass => ?_) ?_
  · rw [hout r hr] at hpass
    cases hpass
  · have ha := s.allows_allow now session tests asked
    generalize s.allow now session tests asked = t at ha ⊢
    cases ha with
    | launches p =>
      -- The new dispatch knows nothing yet: all tests of its docket are open.
      rintro x ⟨d, hd, hx⟩
      rcases List.mem_append.mp hd with hd | hd
      · exact ⟨d, hd, hx⟩
      · rw [List.mem_singleton.mp hd] at hx
        have hlisted := hx.listed
        rw [← Docket.unfinished_fresh session tests] at hlisted
        exact absurd hlisted hx.ended
    | waits p => exact fun x hx => hx
    | quits p => exact fun x hx => hx

/-- What a dispatch does without the end of a test. -/
theorem mute_step (h : s.Sound) (d d' : Dispatch) (pool : Pool) (retired : List WorkerId)
    (hd : d ∈ s.dispatches) (he : d.errands = []) (hnumber : d'.number = d.number)
    (hends : d.docket.Ends d'.docket d'.errands []) (hk : ∀ x, d'.Knows x → d.Knows x) :
    s.Mute ({ s with pool, retired }.put d') := by
  refine .of_ends (ends_put h d d' pool retired hd he hnumber _ [] hends fun _ _ => rfl) (by simp)
    fun x hx => ?_
  exact (knows_put pool retired hx).elim id fun hx => ⟨d, hd, hk x hx⟩

/-- Its docket stays as it is. -/
theorem mute_stage (h : s.Sound) (hn : s.pending.Nodup) (d : Dispatch) (stage : Stage) (pool : Pool)
    (retired : List WorkerId) (hd : d ∈ s.dispatches) (he : d.errands = [])
    (hs : stage.isBack = false → d.stage.isBack = false) :
    s.Mute ({ s with pool, retired }.put { d with stage }) := by
  have hends := Docket.ends_refl d.docket (nodup_unfinished hn d hd) d.errands
    fun _ _ => by rw [he]; rfl
  exact mute_step h d { d with stage } pool retired hd he rfl hends fun x hx =>
    ⟨hs hx.stage, hx.session, hx.listed, hx.ended⟩

/-- A worker that says nothing new about the end of a test is heard without effect on any. -/
theorem mute_hear (h : s.Sound) (hn : s.pending.Nodup) (d : Dispatch) (now : Moment)
    (news : WorkerNews) (hd : d ∈ s.dispatches) (he : d.errands = [])
    (hno : ∀ t o diagnostic, news = .finished t o diagnostic → t ∉ d.docket.unfinished) :
    s.Mute (s.hear d now news) := by
  have hopen := nodup_unfinished hn d hd
  -- A start ends nothing, and the second end of a test is not taken.
  have hheard : d.docket.Ends (d.docket.hear now news).1 (d.docket.hear now news).2 [] ∧
      (d.docket.hear now news).1.unfinished = d.docket.unfinished := by
    cases news with
    | started t =>
      refine ⟨Docket.ends_start d.docket now t hopen, ?_⟩
      rw [Docket.hear, Docket.start]
      split <;> rfl
    | finished t o diagnostic =>
      rw [Docket.hear, Docket.finish_of_not_mem _ _ _ _ _ (hno t o diagnostic rfl)]
      exact ⟨Docket.ends_refl d.docket hopen [] fun _ _ => rfl, rfl⟩
  obtain ⟨hends, hsame⟩ := hheard
  refine mute_step h d { d with
    docket := (d.docket.hear now news).1, errands := (d.docket.hear now news).2 } s.pool s.retired
    hd he rfl hends fun x hx => ?_
  exact ⟨hx.stage, hends.session.symm.trans hx.session, hends.tests ▸ hx.listed, hsame ▸ hx.ended⟩

/-- The first report on a test ends it with the outcome reported. -/
theorem tells_hear (h : s.Sound) (hn : s.pending.Nodup) (d : Dispatch) (now : Moment) (t : String)
    (o : Outcome) (diagnostic : Option Diagnostic) (hd : d ∈ s.dispatches) (he : d.errands = [])
    (ht : t ∈ d.docket.unfinished) :
    s.Tells (fun x => if x = ⟨d.docket.session, t⟩ then some o else none)
        (s.hear d now (.finished t o diagnostic)) ∧
      ∃ r, .publish (.finished r) ∈ (s.hear d now (.finished t o diagnostic)).outstanding ∧
        r.entry = ⟨d.docket.session, t⟩ := by
  obtain ⟨ended, hends⟩ := Docket.ends_hear d.docket now (.finished t o diagnostic)
    (nodup_unfinished hn d hd)
  obtain ⟨r, hr, hsession, htest, hout⟩ := Docket.finish_of_mem d.docket now t o diagnostic ht
  have hentry : r.entry = ⟨d.docket.session, t⟩ := by rw [TestResult.entry, hsession, htest]
  rw [Docket.hear, hr] at hends
  rw [hear, Docket.hear, hr]
  have hmoves := ends_put h d { d with
    docket := { d.docket with finished := d.docket.finished.insert t }
    errands := .note r :: r.announce } s.pool s.retired hd he rfl _ ended hends fun _ _ => rfl
  refine ⟨⟨hmoves.mem_pending, ?_, ?_⟩, r, ?_, hentry⟩
  · -- The one result that is new is that of the test, and its outcome was reported.
    intro r' hr'
    rcases List.mem_append.mp hr' with hr' | hr'
    · exact Or.inl (List.mem_append_left _ hr')
    · obtain ⟨c, hc, hr'⟩ := List.mem_flatMap.mp hr'
      rcases mem_put _ _ c hc with rfl | hc
      · have hsame : r' = r := by simpa [TestResult.announce] using hr'
        have hwaits : (⟨d.docket.session, t⟩ : QueueEntry) ∈ s.pending :=
          List.mem_append_right _ (List.mem_flatMap.mpr ⟨d, hd, List.mem_map_of_mem ht⟩)
        rw [hsame, hentry, if_pos rfl, hout]
        exact Or.inr ⟨hwaits, Or.inl rfl⟩
      · exact Or.inl (List.mem_append_right _ (List.mem_flatMap.mpr ⟨c, hc, hr'⟩))
  · intro x hx
    rcases knows_put (s := s) s.pool s.retired hx with hx | hx
    · exact Or.inl hx
    · have hended := hx.ended
      rw [Docket.unfinished_insert] at hended
      by_cases hxt : x.test = t
      · have hmine : x = ⟨d.docket.session, t⟩ := by rw [hx.session, ← hxt]
        rw [if_pos hmine]
        exact Or.inr (Option.some_ne_none o)
      · refine Or.inl ⟨d, hd, hx.stage, hx.session, hx.listed, fun hopen => hended ?_⟩
        exact List.mem_filter.mpr ⟨hopen, by simpa using hxt⟩
  · exact mem_outstanding_put hd rfl (by simp [TestResult.announce])

/-- A dispatch that is done with its docket ends all its tests, none with a pass. -/
theorem mute_finishAll (h : s.Sound) (hn : s.pending.Nodup) (d d' : Dispatch) (now : Moment)
    (outcome : String → Outcome) (reason : String) (hd : d ∈ s.dispatches) (he : d.errands = [])
    (hnumber : d'.number = d.number) (hs : d'.stage.isBack = true)
    (hdocket : d'.docket = (Docket.finishAll now outcome reason d.docket d.docket.unfinished).1)
    (herrands : ∀ g, Silent g → weigh g d'.errands =
      weigh g (Docket.finishAll now outcome reason d.docket d.docket.unfinished).2)
    (hout : ∀ t, outcome t ≠ .pass) : s.Mute (s.put d') := by
  obtain ⟨ended, hends, houtcome⟩ := Docket.ends_finishAll now outcome reason d.docket
    d.docket.unfinished (nodup_unfinished hn d hd)
  rw [← hdocket] at hends
  refine .of_ends (ends_put h d d' s.pool s.retired hd he hnumber _ ended hends herrands) ?_ ?_
  · intro r hr
    obtain ⟨t, ht⟩ := houtcome r hr
    rw [ht]
    exact hout t
  · -- The dispatch is back, so it knows of no test any more.
    intro x hx
    refine (knows_put (s := s) s.pool s.retired hx).resolve_right ?_
    intro hx
    have hstage := hx.stage
    rw [hs] at hstage
    cases hstage

theorem failed_ne_pass (started : Bool) :
    (if started then Outcome.crashed else Outcome.notRun) ≠ .pass := by
  cases started <;> decide

theorem mute_failWith (h : s.Sound) (hn : s.pending.Nodup) (d : Dispatch) (now : Moment)
    (notice reason : String) (stage : Stage) (hd : d ∈ s.dispatches) (he : d.errands = [])
    (hs : stage.isBack = true) : s.Mute (s.put { failWith d now notice reason with stage }) :=
  mute_finishAll h hn d _ now _ reason hd he rfl hs rfl (weigh_failWith d now notice reason)
    fun _ => failed_ne_pass _

theorem mute_leave (h : s.Sound) (d : Dispatch) (hd : d ∈ s.dispatches) (he : d.errands = [])
    (hs : d.stage = .leaving) : s.Mute (s.leave d) := by
  refine .of_ends (ends_leave h d hd he hs) (by simp) ?_
  rintro x ⟨b, hb, hx⟩
  exact ⟨b, (List.mem_filter.mp hb).1, hx⟩

theorem mute_hands {k : Desk} {now : Moment} {x : Errand} (h : s.Sound)
    (hh : s.Hands x (k.deliver now x).2 s') : s.Mute s' where
  waits y hy := by
    have hcount := (weigh_hands h hh).1 fun z => if z = y then 1 else 0
    rw [weigh_eq_count, weigh_eq_count] at hcount
    exact List.count_pos_iff.mp (hcount ▸ List.count_pos_iff.mpr hy)
  results r hr := by
    refine Or.inl ((mem_hands hh hr).resolve_right fun hmore => ?_)
    obtain ⟨t, o, summary, -, hy⟩ := k.mem_deliver now x _ hmore
    cases hy
  knows y hy := by
    left
    generalize (k.deliver now x).2 = more at hh
    cases hh with
    | loop _ rest _ he => exact hy
    | dispatch d _ rest _ hd he =>
      refine (knows_put (s := s) s.pool s.retired hy).elim id fun hy => ?_
      exact ⟨d, hd, hy.stage, hy.session, hy.listed, hy.ended⟩

end Shift

namespace Engine

variable {e e' : Engine} {now : Moment} {a : Action} {k n : Nat} {s s' : Shift}
  {asked : List QueueEntry}

def Knows (e : Engine) (x : QueueEntry) : Prop := ∃ s ∈ e.shifts, s.Knows x

structure Tells (e : Engine) (told : QueueEntry → Option Outcome) (e' : Engine) : Prop where
  waits : ∀ x ∈ e'.pending, x ∈ e.pending ∨ e.desk.feed.opened < x.session
  results : ∀ r, e'.Made r → e.Made r ∨ r.entry ∈ e.pending ∧
    (told r.entry = some r.outcome ∨ told r.entry = none ∧ r.outcome ≠ .pass)
  knows : ∀ x, e'.Knows x → e.Knows x ∨ told x ≠ none

def Mute (e e' : Engine) : Prop := e.Tells (fun _ => none) e'

theorem docket?_of_dispatch {d : Dispatch} (hs : e.shift? k = some s)
    (hd : s.dispatch? n = some d) : e.docket? k n = some d.docket := by
  simp [docket?, hs, hd]

/-- What is reported by a step of one shift is reported by the step of the engine. -/
theorem tells_putShift (desk : Desk) (told : QueueEntry → Option Outcome)
    (hk : e.shift? k = some s) (h : s.Tells told s')
    (hp : ∀ ev ∈ desk.feed.published, ev ∈ e.desk.feed.published ∨ .publish ev ∈ e.outstanding) :
    e.Tells told ({ e with desk }.putShift k s') := by
  have hmem := mem_of_shift e k s hk
  have hset (t : Shift) (ht : t ∈ ({ e with desk }.putShift k s').shifts) :
      t ∈ e.shifts ∨ t = s' := List.mem_or_eq_of_mem_set ht
  refine ⟨?_, ?_, ?_⟩
  · intro x hx
    left
    rcases List.mem_append.mp hx with hx | hx
    · exact List.mem_append_left _ hx
    · obtain ⟨t, ht, hxt⟩ := List.mem_flatMap.mp hx
      rcases hset t ht with ht | rfl
      · exact mem_pending_of_shift ht hxt
      · exact mem_pending_of_shift hmem (h.waits x hxt)
  · intro r hr
    rcases hr with hr | hr
    · exact Or.inl (hp _ hr)
    · obtain ⟨t, ht, hrt⟩ := List.mem_flatMap.mp hr
      rcases hset t ht with ht | rfl
      · exact Or.inl (Or.inr (List.mem_flatMap.mpr ⟨t, ht, hrt⟩))
      · refine (h.results r hrt).imp (fun hold => ?_) fun hnew => ?_
        · exact Or.inr (List.mem_flatMap.mpr ⟨s, hmem, hold⟩)
        · exact ⟨mem_pending_of_shift hmem hnew.1, hnew.2⟩
  · rintro x ⟨t, ht, hx⟩
    rcases hset t ht with ht | rfl
    · exact Or.inl ⟨t, ht, hx⟩
    · exact (h.knows x hx).imp (fun hx => ⟨s, hmem, hx⟩) id

theorem mute_of_onLoop (hb : e.Books asked) (step : Shift → Option Shift)
    (h : e.onLoop k step = some e')
    (hstep : ∀ s s', s.pending.Nodup → step s = some s' → s.Mute s') : e.Mute e' := by
  obtain ⟨s, s', hs, -, hs', rfl⟩ := exists_of_onLoop step h
  have hnodup := hb.nodup_shift s (mem_of_shift e k s hs)
  exact tells_putShift e.desk _ hs (hstep s s' hnodup hs') fun ev hev => Or.inl hev

theorem mute_of_onDispatch (hb : e.Books asked) (step : Shift → Dispatch → Option Shift)
    (h : e.onDispatch k n step = some e')
    (hstep : ∀ s d s', s.Sound → s.pending.Nodup → d ∈ s.dispatches → d.errands = [] →
      step s d = some s' → s.Mute s') : e.Mute e' := by
  obtain ⟨s, d, s', hs, hd, he, hs', rfl⟩ := exists_of_onDispatch step h
  have hmem := mem_of_shift e k s hs
  exact tells_putShift e.desk _ hs
    (hstep s d s' (hb.sound s hmem) (hb.nodup_shift s hmem) (s.mem_of_dispatch n d hd) he hs')
    fun ev hev => Or.inl hev

theorem mute_of_parts {c : Parting} (hk : e.shift? k = some s) (h : s.Parts c s') :
    e.Mute (e.putShift k s') := by
  obtain ⟨p, left, rfl, -⟩ := h.exists_eq
  refine tells_putShift e.desk _ hk ?_ fun ev hev => Or.inl hev
  exact Shift.Mute.of_same (Shift.ends_nil _ (fun _ => rfl) rfl) (by simp) rfl

theorem mute_hands (hb : e.Books asked) (x : Errand) (hk : e.shift? k = some s)
    (hh : s.Hands x (e.desk.deliver now x).2 s') :
    e.Mute ({ e with desk := (e.desk.deliver now x).1 }.putShift k s') := by
  have hmem := mem_of_shift e k s hk
  refine tells_putShift _ _ hk (Shift.mute_hands (hb.sound s hmem) hh) fun ev hev => ?_
  refine (e.desk.published_deliver now x ev hev).imp id ?_
  rintro rfl
  exact List.mem_flatMap.mpr ⟨s, hmem, Shift.mem_outstanding_of_hands hh⟩

/-- The latest shift changes, and nothing of what it has to do with it. -/
theorem mute_head (s s' : Shift) (rest : List Shift) (hs : e.shifts = s :: rest)
    (midway : Option (SessionId × List String))
    (hp : ∀ x, x ∈ halfway midway ∨ x ∈ s'.pending → x ∈ halfway e.midway ∨ x ∈ s.pending)
    (ho : s'.outstanding = s.outstanding) (hd : s'.dispatches = s.dispatches) :
    e.Mute { e with shifts := s' :: rest, midway } := by
  have hout := outstanding_head s s' rest hs midway ho
  refine ⟨?_, fun r hr => Or.inl ?_, ?_⟩
  · intro x hx
    left
    simp only [pending, hs, List.mem_append, List.flatMap_cons] at hx ⊢
    rcases hx with hx | hx | hx
    · exact (hp x (Or.inl hx)).imp id Or.inl
    · exact (hp x (Or.inr hx)).imp id Or.inl
    · exact Or.inr (Or.inr hx)
  · rwa [Made, hout] at hr
  · rintro x ⟨t, ht, b, hbt, hx⟩
    left
    rcases List.mem_cons.mp ht with rfl | ht
    · exact ⟨s, hs ▸ List.mem_cons_self, b, hd ▸ hbt, hx⟩
    · exact ⟨t, hs ▸ List.mem_cons_of_mem s ht, b, hbt, hx⟩

/-- Opening a session, queueing its tests, a new limit and calling off report nothing. -/
theorem mute_of_caller (hb : e.Books asked) (hc : e.Change now a e') (ha : a.shift? = none) :
    e.Mute e' := by
  cases hc with
  | opens tests hm ht =>
    obtain ⟨-, -, hpending, houtstanding, hdesk⟩ := e.shifts_ensureShift hb.sound
    refine ⟨?_, fun r hr => Or.inl ?_, ?_⟩
    · intro x hx
      rcases List.mem_append.mp hx with hx | hx
      · obtain ⟨t, -, rfl⟩ := List.mem_map.mp hx
        right
        change e.desk.feed.opened < e.ensureShift.desk.feed.opened + 1
        rw [hdesk]
        exact Nat.lt_succ_self _
      · refine Or.inl (List.mem_append_right _ ?_)
        rw [← hpending]
        exact hx
    · refine hr.imp (fun hr => ?_) fun hr => ?_
      · rw [← hdesk]
        exact hr
      · rw [← houtstanding]
        exact hr
    · rintro x ⟨t, ht, hx⟩
      left
      have ht' : t ∈ e.ensureShift.shifts := ht
      rcases e.ensureShift_cases with ⟨-, -, -, -, he⟩ | he
      · exact ⟨t, he ▸ ht', hx⟩
      · rw [he] at ht'
        rcases List.mem_cons.mp ht' with rfl | ht'
        · obtain ⟨b, hb, -⟩ := hx
          exact absurd hb List.not_mem_nil
        · exact ⟨t, ht', hx⟩
  | pushes session tests hm =>
    obtain ⟨-, s, rest, hs, -⟩ := hb.midway session tests hm
    have hput : e.push session tests = { e with
        shifts := { s with
          queue := s.queue.push e.settings.priority e.desk.history session tests } :: rest
        midway := none } := by
      simp only [push, hs]
    rw [hput]
    refine mute_head s _ rest hs none (fun x hx => ?_) rfl rfl
    rw [hm]
    rcases hx with hx | hx
    · cases hx
    · rcases List.mem_append.mp hx with hx | hx
      · rcases List.mem_append.mp hx with hx | hx
        · rcases s.queue.mem_push _ _ _ _ x hx with hx | hx
          · exact Or.inr (List.mem_append_left _ (List.mem_append_left _ hx))
          · exact Or.inl hx
        · exact Or.inr (List.mem_append_left _ (List.mem_append_right _ hx))
      · exact Or.inr (List.mem_append_right _ hx)
  | adjusts n =>
    cases hs : e.shifts with
    | nil =>
      have hput : e.setLimit n = { e with idle := e.idle.setLimit n } := by simp only [setLimit, hs]
      rw [hput]
      exact ⟨fun _ hx => Or.inl hx, fun _ hr => Or.inl hr, fun _ hx => Or.inl hx⟩
    | cons s rest =>
      have hput : e.setLimit n = { e with
          shifts := { s with permits := s.permits.setLimit n } :: rest, midway := e.midway } := by
        simp only [setLimit, hs]
      rw [hput]
      exact mute_head s _ rest hs e.midway (fun _ hx => hx) rfl rfl
  | stops s rest hm hs hc =>
    exact mute_head s { s with cancelled := true } rest hs e.midway (fun _ hx => hx) rfl rfl
  | works _ k s s' hk hs hw =>
    rw [ha] at hk
    cases hk
  | hands _ k s s' x desk more hk hn hs hd hh =>
    rw [ha] at hk
    cases hk

/-- So does every action of a shift, unless a worker reports on a test that has no result yet. -/
theorem mute_of_act (hb : e.Books asked) (h : e.act now a = some e')
    (hno : ∀ k n t o diagnostic c, a = .hear k n (.finished t o diagnostic) →
      e.docket? k n = some c → t ∉ c.unfinished) : e.Mute e' := by
  cases a with
  | openSession | push | setLimit | cancel =>
    exact mute_of_caller hb (change_of_act e now _ e' h) rfl
  | closeQueue k =>
    simp only [act] at h
    split at h
    · cases h
    · next s hs =>
      split at h
      · rw [← Option.some.inj h]
        refine tells_putShift e.desk _ hs ?_ fun ev hev => Or.inl hev
        exact Shift.Mute.of_same (Shift.ends_nil _ (fun _ => rfl) rfl) (by simp) rfl
      · cases h
  | closePermits k =>
    simp only [act] at h
    split at h
    · cases h
    · next s hs =>
      split at h
      · rw [← Option.some.inj h]
        refine tells_putShift e.desk _ hs ?_ fun ev hev => Or.inl hev
        exact Shift.Mute.of_same (Shift.ends_nil _ (fun _ => rfl) rfl) (by simp) rfl
      · cases h
  | fetch k =>
    refine mute_of_onLoop hb _ h fun s s' hn hstep => ?_
    split at hstep
    · next hp =>
      cases hstep
      exact .of_same (Shift.ends_fetch hp _) (by simp) (dispatches_fetch s _).2.1
    · cases hstep
  | allow k =>
    refine mute_of_onLoop hb _ h fun s s' hn hstep => ?_
    split at hstep
    · next session tests asked hp =>
      cases hstep
      exact Shift.mute_allow hn now session tests asked hp
    · cases hstep
  | sweep k =>
    refine mute_of_onLoop hb _ h fun s s' hn hstep => ?_
    split at hstep
    · next hp =>
      simp only [Bool.and_eq_true, decide_eq_true_eq] at hp
      cases hstep
      obtain ⟨ended, hends, hout⟩ := Shift.ends_sweep hn hp.1.1 now
      exact .of_same hends hout rfl
    · cases hstep
  | finish k =>
    refine mute_of_onLoop hb _ h fun s s' hn hstep => ?_
    split at hstep
    · next hp =>
      cases hstep
      refine .of_same (Shift.ends_nil _ (fun f => ?_) rfl) (by simp) rfl
      simp [Shift.pending, Shift.finish, hp, Phase.held]
    · cases hstep
  | deliver k =>
    simp only [act] at h
    split at h
    · cases h
    · next s hs =>
      split at h
      · cases h
      · next x rest he =>
        rw [← Option.some.inj h]
        exact mute_hands hb x hs (.loop x rest _ he)
  | checkout k n healthy =>
    refine mute_of_onDispatch hb _ h fun s d s' hsound hn hd he hstep => ?_
    split at hstep
    · next hs =>
      cases hstep
      exact Shift.mute_stage hsound hn d _ _ _ hd he fun _ => by rw [hs]; rfl
    · cases hstep
  | connected k n result =>
    refine mute_of_onDispatch hb _ h fun s d s' hsound hn hd he hstep => ?_
    split at hstep
    · next hs =>
      cases result with
      | ok w =>
        cases hstep
        exact Shift.mute_stage hsound hn d _ _ s.retired hd he fun _ => by rw [hs]; rfl
      | error x =>
        cases hstep
        exact Shift.mute_failWith hsound hn d now _ x.message .leaving hd he rfl
    · cases hstep
  | hear k n news =>
    obtain ⟨s, d, s', hs, hd, he, hstep, rfl⟩ := exists_of_onDispatch _ h
    split at hstep
    · next w hstage =>
      cases hstep
      have hmem := mem_of_shift e k s hs
      refine tells_putShift e.desk _ hs (Shift.mute_hear (hb.sound s hmem) (hb.nodup_shift s hmem) d
        now news (s.mem_of_dispatch n d hd) he fun t o diagnostic hnews => ?_)
        fun ev hev => Or.inl hev
      exact hno k n t o diagnostic d.docket (hnews ▸ rfl) (docket?_of_dispatch hs hd)
    · cases hstep
  | conclude k n result =>
    refine mute_of_onDispatch hb _ h fun s d s' hsound hn hd he hstep => ?_
    split at hstep
    · next w hs =>
      cases result with
      | ok =>
        cases hstep
        exact Shift.mute_finishAll hsound hn d _ now (fun _ => .error) _ hd he rfl rfl rfl
          (fun _ _ => rfl) fun _ => by decide
      | error x =>
        cases hstep
        exact Shift.mute_failWith hsound hn d now _ x.message (.returning w true) hd he rfl
    · cases hstep
  | callOff k n =>
    refine mute_of_onDispatch hb _ h fun s d s' hsound hn hd he hstep => ?_
    split at hstep
    · next w hs =>
      split at hstep
      · cases hstep
        exact Shift.mute_finishAll hsound hn d _ now (fun _ => .notRun) _ hd he rfl rfl rfl
          (fun _ _ => rfl) fun _ => by decide
      · cases hstep
    · cases hstep
  | checkin k n healthy =>
    refine mute_of_onDispatch hb _ h fun s d s' hsound hn hd he hstep => ?_
    split at hstep
    · next w broken hs =>
      cases hstep
      exact Shift.mute_stage hsound hn d .leaving _ _ hd he fun hback => by cases hback
    · cases hstep
  | leave k n =>
    refine mute_of_onDispatch hb _ h fun s d s' hsound hn hd he hstep => ?_
    split at hstep
    · next hs =>
      cases hstep
      exact Shift.mute_leave hsound d hd he hs
    · cases hstep
  | destroy k n =>
    obtain ⟨s, c, s', hs, -, hp, rfl⟩ := parts_of_act h (.inl rfl)
    exact mute_of_parts hs hp
  | pass k n =>
    obtain ⟨s, c, s', hs, -, hp, rfl⟩ := parts_of_act h (.inr (.inl rfl))
    exact mute_of_parts hs hp
  | giveBack k n =>
    obtain ⟨s, c, s', hs, -, hp, rfl⟩ := parts_of_act h (.inr (.inr rfl))
    exact mute_of_parts hs hp
  | deliverFor k n =>
    simp only [act] at h
    split at h
    · cases h
    · next s hs =>
      split at h
      · cases h
      · next d hd =>
        split at h
        · cases h
        · next x rest he =>
          rw [← Option.some.inj h]
          exact mute_hands hb x hs (.dispatch d x rest _ (s.mem_of_dispatch n d hd) he)

/-- What the log tells of the tests: nothing was reported on a test that waits, or of a session that
comes later; what a dispatch knows was reported; and a result is the first report on its test, or
there was no report and it is not a pass. -/
structure Heard (l : List Turn) (e : Engine) : Prop where
  waits : ∀ x ∈ e.pending, firstReport l x = none
  later : ∀ x : QueueEntry, e.desk.feed.opened < x.session → firstReport l x = none
  knows : ∀ x, e.Knows x → firstReport l x ≠ none
  results : ∀ r, e.Made r → firstReport l r.entry = some r.outcome ∨
    firstReport l r.entry = none ∧ r.outcome ≠ .pass

variable {l : List Turn}

/-- A turn whose reports are new only where the engine is told so keeps the log right. -/
theorem heard_of_tells (h : e.Heard l) (hb : e.Books asked) (turn : Turn)
    (told : QueueEntry → Option Outcome) (ht : e.Tells told e')
    (ho : e.desk.feed.opened ≤ e'.desk.feed.opened)
    (htold : ∀ x, told x ≠ none →
      x ∈ e.pending ∧ x ∉ e'.pending ∧ turn.report? x = told x)
    (hreport : ∀ x, turn.report? x ≠ none → told x ≠ none ∨ firstReport l x ≠ none) :
    e'.Heard (l ++ [turn]) := by
  -- The log changes where the engine is told something, and there it had nothing before.
  have hlog (x : QueueEntry) : firstReport (l ++ [turn]) x = (firstReport l x).or (told x) := by
    rw [firstReport_concat]
    cases hf : firstReport l x with
    | some o => rfl
    | none =>
      by_cases hx : told x = none
      · have hnone : turn.report? x = none :=
          not_ne_iff.mp fun hr => (hreport x hr).elim (fun h => h hx) fun h => h hf
        rw [hnone, hx]
      · rw [(htold x hx).2.2]
  have hquiet (x : QueueEntry) (hx : x ∈ e'.pending ∨ x ∉ e.pending) : told x = none := by
    refine not_ne_iff.mp fun hne => ?_
    obtain ⟨hwaits, hno, -⟩ := htold x hne
    exact hx.elim hno fun hx => hx hwaits
  refine ⟨?_, ?_, ?_, ?_⟩
  · intro x hx
    rw [hlog, hquiet x (Or.inl hx), Option.or_none]
    exact (ht.waits x hx).elim (h.waits x) (h.later x)
  · intro x hx
    have hlater : e.desk.feed.opened < x.session := Nat.lt_of_le_of_lt ho hx
    have hno : x ∉ e.pending := by
      intro hwaits
      exact absurd (hb.opened x (hb.asked_of_pending hwaits)) (Nat.not_le.mpr hlater)
    rw [hlog, hquiet x (Or.inr hno), Option.or_none]
    exact h.later x hlater
  · intro x hx hnone
    rw [hlog, Option.or_eq_none_iff] at hnone
    exact (ht.knows x hx).elim (fun hx => h.knows x hx hnone.1) fun hx => hx hnone.2
  · intro r hr
    rw [hlog]
    rcases ht.results r hr with hr | ⟨hwaits, hout⟩
    · have hno : r.entry ∉ e.pending := ((hb.made_iff r.entry).mp ⟨r, hr, rfl⟩).2
      rw [hquiet _ (Or.inr hno), Option.or_none]
      exact h.results r hr
    · rw [h.waits _ hwaits, Option.none_or]
      exact hout

theorem pending_of_dispatch {d : Dispatch} {t : String} (hs : e.shift? k = some s)
    (hd : d ∈ s.dispatches) (ht : t ∈ d.docket.unfinished) :
    (⟨d.docket.session, t⟩ : QueueEntry) ∈ e.pending := by
  refine mem_pending_of_shift (mem_of_shift e k s hs) (List.mem_append_right _ ?_)
  exact List.mem_flatMap.mpr ⟨d, hd, List.mem_map_of_mem ht⟩

theorem heard_act (h : e.Heard l) (hb : e.Books asked) (ha : e.act now a = some e') :
    e'.Heard (l ++ [⟨e, now, a⟩]) := by
  have hc := change_of_act e now a e' ha
  have hopened : e.desk.feed.opened ≤ e'.desk.feed.opened := by
    rw [opened_change now a hc]
    exact Nat.le_add_right _ _
  -- The one turn that counts is the report on a test that was open until then.
  by_cases hnew : ∃ k n t o diagnostic c, a = .hear k n (.finished t o diagnostic) ∧
      e.docket? k n = some c ∧ t ∈ c.unfinished
  · obtain ⟨k, n, t, o, diagnostic, c, rfl, hdocket, ht⟩ := hnew
    obtain ⟨s, d, s', hs, hd, he, hstep, rfl⟩ := exists_of_onDispatch _ ha
    obtain rfl : d.docket = c := Option.some.inj ((docket?_of_dispatch hs hd).symm.trans hdocket)
    split at hstep
    · cases hstep
      have hmem := mem_of_shift e k s hs
      have hlisted := s.mem_of_dispatch n d hd
      obtain ⟨htells, r, hr, hentry⟩ := Shift.tells_hear (hb.sound s hmem) (hb.nodup_shift s hmem)
        d now t o diagnostic hlisted he ht
      have hmade : (e.putShift k (s.hear d now (.finished t o diagnostic))).Made r :=
        Or.inr (List.mem_flatMap.mpr ⟨_, List.mem_set (lt_of_shift hs) _, hr⟩)
      refine heard_of_tells h hb _ _ (tells_putShift e.desk _ hs htells fun ev hev => Or.inl hev)
        hopened ?_ ?_
      · intro x hx
        split at hx
        · next hxt =>
          subst hxt
          refine ⟨pending_of_dispatch hs hlisted ht, ?_, ?_⟩
          · exact (((books_change hb now _ _ hc).made_iff _).mp ⟨r, hmade, hentry⟩).2
          · rw [if_pos rfl, Turn.report?, docket?_of_dispatch hs hd, Option.bind_some]
            exact if_pos ⟨rfl, rfl, (List.mem_filter.mp ht).1⟩
        · exact absurd rfl hx
      · intro x hx
        obtain ⟨o', hreport⟩ := Option.ne_none_iff_exists'.mp hx
        obtain ⟨_, _, _, c, ha', hc', hsession, -⟩ := Turn.exists_of_report hreport
        cases ha'
        rw [docket?_of_dispatch hs hd] at hc'
        have hmine : x = ⟨d.docket.session, x.test⟩ := by rw [Option.some.inj hc', hsession]
        rw [if_pos hmine]
        exact Or.inl (Option.some_ne_none o)
    · cases hstep
  · have hmute : e.Mute e' := mute_of_act hb ha fun k n t o diagnostic c ha hc ht =>
      hnew ⟨k, n, t, o, diagnostic, c, ha, hc, ht⟩
    refine heard_of_tells h hb _ _ hmute hopened (fun x hx => absurd rfl hx) fun x hx => Or.inr ?_
    -- The result of the test was known to the dispatch before.
    obtain ⟨o, hreport⟩ := Option.ne_none_iff_exists'.mp hx
    obtain ⟨k, n, diagnostic, c, rfl, hdocket, hsession, hlisted⟩ := Turn.exists_of_report hreport
    obtain ⟨s, d, s', hs, hd, he, hstep, rfl⟩ := exists_of_onDispatch _ ha
    obtain rfl : d.docket = c := Option.some.inj ((docket?_of_dispatch hs hd).symm.trans hdocket)
    split at hstep
    · next w hstage =>
      refine h.knows x ⟨s, mem_of_shift e k s hs, d, s.mem_of_dispatch n d hd, ?_⟩
      refine ⟨by rw [hstage]; rfl, hsession, hlisted, fun hopen => ?_⟩
      exact hnew ⟨k, n, x.test, o, diagnostic, d.docket, rfl, hdocket, hopen⟩
    · cases hstep

variable {settings : EngineSettings} {limit capacity : Nat} {history : History}

/-- In every run the log tells of the tests what became of them. -/
theorem heard_run (h : (fresh settings limit capacity history).Run l e) : e.Heard l := by
  induction h with
  | start =>
    refine ⟨fun _ _ => rfl, fun _ _ => rfl, ?_, ?_⟩
    · rintro x ⟨s, hs, -⟩
      exact absurd hs List.not_mem_nil
    · rintro r (hr | hr)
      · simp [fresh, Feed.ofCapacity] at hr
      · exact absurd hr List.not_mem_nil
  | step l d now a e' hrun ha ih => exact heard_act ih (books_run hrun) ha

/-- Where no worker could be started for some tests, one of them at least does not pass. -/
theorem made_of_strands (h : (fresh settings limit capacity history).Run l e) (turn : Turn)
    (hl : turn ∈ l) (session : SessionId) (hs : turn.strands? = some session) :
    ∃ r, e.Made r ∧ r.session = session ∧ r.outcome ≠ .pass := by
  induction h with
  | start => exact absurd hl List.not_mem_nil
  | step l d now a e' hrun ha ih =>
    rcases List.mem_append.mp hl with hl | hl
    · obtain ⟨r, hr, hmine⟩ := ih hl
      exact ⟨r, made_change (books_run hrun) (change_of_act d now a e' ha) hr, hmine⟩
    · rw [List.mem_singleton.mp hl] at hs
      cases a with
      | connected k n result =>
        cases result with
        | ok => cases hs
        | error x =>
          obtain ⟨c, hc, rfl⟩ := Option.map_eq_some_iff.mp hs
          obtain ⟨s, b, s', hk, hb, -, hstep, rfl⟩ := exists_of_onDispatch _ ha
          obtain rfl : b.docket = c := Option.some.inj ((docket?_of_dispatch hk hb).symm.trans hc)
          split at hstep
          · next hstage =>
            cases hstep
            have hmem := s.mem_of_dispatch n b hb
            have hin := (inOrder_run hrun s (mem_of_shift d k s hk)).dispatches b hmem
            -- The dispatch has tests, and all of them are still open.
            obtain ⟨t, ht⟩ := List.exists_mem_of_ne_nil _ (hin.early (by rw [hstage]; rfl))
            obtain ⟨r, hr, hsession, hout⟩ := Docket.exists_of_finishAll now
              (fun t => if b.docket.started.contains t then .crashed else .notRun) x.message
              b.docket b.docket.unfinished t ht ht
            refine ⟨r, Or.inr (List.mem_flatMap.mpr ⟨_, List.mem_set (lt_of_shift hk) _, ?_⟩),
              hsession, ?_⟩
            · exact Shift.mem_outstanding_put hmem rfl (List.mem_cons_of_mem _ hr)
            · rw [hout]
              exact Shift.failed_ne_pass _
          · cases hstep
      | _ => cases hs

/-- The summary of a session says that all tests passed just when a pass was the first report on
each of them. -/
theorem allPassed_iff_reported (h : (fresh settings limit capacity history).Run l e)
    (session : SessionId) (m : Summary) (hm : .complete session m ∈ e.desk.feed.published) :
    m.allPassed = true ↔
      ∀ x ∈ askedIn l, x.session = session → firstReport l x = some .pass := by
  have hbooks := books_run h
  have hresults := (heard_run h).results
  rw [allPassed_iff_made h session m hm]
  constructor
  · -- A test of the session has its result by now, and a result that passes was reported first.
    intro hall x hx hsession
    have hdone : x ∉ e.pending := fun hp => (complete_run h session m hm).2 x hp hsession
    obtain ⟨r, hr, rfl⟩ := (hbooks.made_iff x).mpr ⟨hx, hdone⟩
    have hpass := hall r hr hsession
    rcases hresults r hr with hreport | ⟨-, hno⟩
    · rw [hreport, hpass]
    · exact absurd hpass hno
  · intro hall r hr hsession
    have hasked : r.entry ∈ askedIn l := ((hbooks.made_iff r.entry).mp ⟨r, hr, rfl⟩).1
    have hpass := hall r.entry hasked hsession
    rcases hresults r hr with hreport | ⟨hnone, -⟩
    · rw [hreport] at hpass
      exact Option.some.inj hpass
    · rw [hnone] at hpass
      cases hpass

end Engine

end Retest
