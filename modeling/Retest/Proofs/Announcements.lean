import Retest.Proofs.Sessions

/-! The order of errands. Whatever is published on a session stands before a count of it, as long as
its worker owes results; a worker that breaks down with nothing owing leaves a notice by itself. -/

namespace Retest

def TestResult.errands (r : TestResult) : List Errand := .note r :: r.announce

/-- In what order errands come. A notice that no count follows needs a reason. -/
inductive Announced (waiting : List QueueEntry) (alone : SessionId → Prop) : List Errand → Prop
  | nil : Announced waiting alone []
  | note (r : TestResult) (rest : List Errand) (h : Announced waiting alone rest) :
    Announced waiting alone (.note r :: rest)
  | count (s : SessionId) (o : Outcome) (rest : List Errand) (h : Announced waiting alone rest) :
    Announced waiting alone (.count s o :: rest)
  | started (s : SessionId) (t : String) (rest : List Errand) (hw : ⟨s, t⟩ ∈ waiting)
    (h : Announced waiting alone rest) : Announced waiting alone (.publish (.started s t) :: rest)
  | finished (r : TestResult) (rest : List Errand) (hc : ∃ o, .count r.session o ∈ rest)
    (h : Announced waiting alone rest) : Announced waiting alone (.publish (.finished r) :: rest)
  | complete (s : SessionId) (summary : Summary) (rest : List Errand)
    (h : Announced waiting alone rest) :
    Announced waiting alone (.publish (.complete s summary) :: rest)
  | notice (s : SessionId) (message : String) (rest : List Errand)
    (hc : (∃ o, .count s o ∈ rest) ∨ rest = [] ∧ alone s) (h : Announced waiting alone rest) :
    Announced waiting alone (.publish (.diagnostic (some s) message) :: rest)

namespace Announced

variable {waiting waiting' : List QueueEntry} {alone alone' : SessionId → Prop}
  {l rest : List Errand} {x : Errand}

theorem tail (h : Announced waiting alone (x :: rest)) : Announced waiting alone rest := by
  cases h <;> assumption

theorem mono (h : Announced waiting alone l) (hw : waiting ⊆ waiting')
    (ha : ∀ s, alone s → alone' s) : Announced waiting' alone' l := by
  induction h with
  | nil => exact .nil
  | note r rest _ ih => exact .note r rest ih
  | count s o rest _ ih => exact .count s o rest ih
  | started s t rest hs _ ih => exact .started s t rest (hw hs) ih
  | finished r rest hc _ ih => exact .finished r rest hc ih
  | complete s summary rest _ ih => exact .complete s summary rest ih
  | notice s message rest hc _ ih =>
    exact .notice s message rest (hc.imp_right fun ⟨hrest, hs⟩ => ⟨hrest, ha s hs⟩) ih

/-- The errands of results, one result after the other. -/
theorem results (ended : List TestResult) :
    Announced waiting alone (ended.flatMap TestResult.errands) := by
  induction ended with
  | nil => exact .nil
  | cons r ended ih =>
    exact .note r _ (.finished r _ ⟨r.outcome, List.mem_cons_self⟩
      (.count r.session r.outcome _ ih))

/-- What an errand leaves comes in its place. -/
theorem deliver (h : Announced waiting alone (x :: rest)) (more : List Errand)
    (hm : more = [] ∨ ∃ s summary, more = [.publish (.complete s summary)]) :
    Announced waiting alone (more ++ rest) := by
  rcases hm with rfl | ⟨s, summary, rfl⟩
  · exact h.tail
  · exact .complete s summary rest h.tail

/-- The session of an event that is published next: it has a count to come, or a test that waits, or
it ends with this event, or the event is a notice by itself. -/
theorem head {ev : Event} (h : Announced waiting alone (.publish ev :: rest)) :
    ∃ s, ev.session? = some s ∧ ((∃ o, .count s o ∈ rest) ∨ (∃ t, ⟨s, t⟩ ∈ waiting) ∨
      (∃ summary, ev = .complete s summary) ∨
      ∃ message, ev = .diagnostic (some s) message ∧ rest = [] ∧ alone s) := by
  cases h with
  | started s t _ hw => exact ⟨s, rfl, Or.inr (Or.inl ⟨t, hw⟩)⟩
  | finished r _ hc => exact ⟨r.session, rfl, Or.inl hc⟩
  | complete s summary => exact ⟨s, rfl, Or.inr (Or.inr (Or.inl ⟨summary, rfl⟩))⟩
  | notice s message _ hc =>
    refine ⟨s, rfl, hc.imp_right fun ⟨hrest, hs⟩ => ?_⟩
    exact Or.inr (Or.inr ⟨message, rfl, hrest, hs⟩)

end Announced

namespace Docket

variable (d : Docket) (now : Moment)

/-- Ending tests makes the errands of results, of one at least if an open test is among them. -/
theorem errands_finishAll (outcome : String → Outcome) (reason : String) (l : List String) :
    (finishAll now outcome reason d l).1.session = d.session ∧
      ∃ ended, (finishAll now outcome reason d l).2 = ended.flatMap TestResult.errands ∧
        (∀ r ∈ ended, r.session = d.session) ∧ (ended = [] → ∀ t ∈ l, t ∉ d.unfinished) := by
  induction l generalizing d with
  | nil => exact ⟨rfl, [], rfl, by simp, by simp⟩
  | cons t l ih =>
    rw [finishAll]
    by_cases ht : t ∈ d.unfinished
    · obtain ⟨r, hr, hsession, -⟩ :=
        finish_of_mem d now t (outcome t) (some { message := reason }) ht
      rw [hr]
      obtain ⟨hsame, ended, hended, hmine, -⟩ := ih { d with finished := d.finished.insert t }
      refine ⟨hsame, r :: ended, by simp [hended, TestResult.errands], ?_, by simp⟩
      intro x hx
      rcases List.mem_cons.mp hx with rfl | hx
      · exact hsession
      · exact hmine x hx
    · rw [finish_of_not_mem d now t (outcome t) (some { message := reason }) ht]
      obtain ⟨hsame, ended, hended, hmine, hnone⟩ := ih d
      refine ⟨hsame, ended, hended, hmine, ?_⟩
      intro he u hu
      rcases List.mem_cons.mp hu with rfl | hu
      · exact ht
      · exact hnone he u hu

theorem session_hear (news : WorkerNews) : (d.hear now news).1.session = d.session := by
  cases news with
  | started t =>
    rw [hear, start]
    split <;> rfl
  | finished t o diagnostic =>
    rw [hear, finish]
    split <;> rfl

/-- A worker that says something makes the errands for it. -/
theorem announced_hear (news : WorkerNews) (alone : SessionId → Prop) :
    Announced (entriesOf d.session (d.hear now news).1.unfinished) alone (d.hear now news).2 := by
  cases news with
  | started t =>
    rw [hear, start]
    split
    · exact .nil
    · next ht =>
      simp only [Bool.or_eq_true, not_or, Bool.not_eq_true', Bool.not_eq_false] at ht
      have hopen : t ∈ d.unfinished := (expects_iff d t).mp ht.1
      exact .started d.session t [] (List.mem_map.mpr ⟨t, hopen, rfl⟩) .nil
  | finished t o diagnostic =>
    rw [hear]
    by_cases ht : t ∈ d.unfinished
    · obtain ⟨r, hr, -⟩ := finish_of_mem d now t o diagnostic ht
      rw [hr]
      have hone : .note r :: r.announce = [r].flatMap TestResult.errands := by
        simp [TestResult.errands]
      rw [hone]
      exact .results [r]
    · rw [finish_of_not_mem d now t o diagnostic ht]
      exact .nil

end Docket

/-- Tests that are given up make the errands of results. -/
theorem Shift.errands_abandon (session : SessionId) (tests : List String) (now : Moment) :
    ∃ ended : List TestResult, abandon session tests now = ended.flatMap TestResult.errands := by
  obtain ⟨-, ended, hended, -⟩ := Docket.errands_finishAll { session, tests } now (fun _ => .notRun)
    "run cancelled" ({ session, tests } : Docket).unfinished
  exact ⟨ended, hended⟩

theorem Shift.errands_abandonAll (l : List (SessionId × List String)) (now : Moment) :
    ∃ ended : List TestResult,
      (l.flatMap fun e => abandon e.1 e.2 now) = ended.flatMap TestResult.errands := by
  induction l with
  | nil => exact ⟨[], rfl⟩
  | cons e l ih =>
    obtain ⟨first, hfirst⟩ := errands_abandon e.1 e.2 now
    obtain ⟨more, hmore⟩ := ih
    exact ⟨first ++ more, by rw [List.flatMap_cons, hfirst, hmore, List.flatMap_append]⟩

namespace Turn

def FailsLate (t : Turn) (session : SessionId) : Prop :=
  ∃ k s d w x, t.before.shift? k = some s ∧ d ∈ s.dispatches ∧ d.docket.session = session ∧
    d.docket.unfinished = [] ∧ d.stage = .running w ∧
    t.before.act t.now t.action = some (t.before.putShift k (s.conclude d t.now w (.error x)))

end Turn

/-- What is known of a dispatch after some turns: the order of its errands, that it has something to
do when a worker gets it, and that its session was opened. -/
structure Dispatch.InOrder (l : List Turn) (d : Dispatch) : Prop where
  announced : Announced d.pending (fun s => s = d.docket.session ∧ d.docket.unfinished = [] ∧
    ∃ turn ∈ l, turn.FailsLate s) d.errands
  early : d.stage.isEarly = true → d.docket.unfinished ≠ []
  known : ∃ turn ∈ l, ∃ names, turn.opens = some (d.docket.session, names)

/-- What is known of a shift after some turns. Its loop has no notices and no empty batch. -/
structure Shift.InOrder (l : List Turn) (s : Shift) : Prop where
  loop : Announced [] (fun _ => False) s.errands
  held : ∀ session tests asked, s.phase = .holding session tests asked → tests ≠ []
  dispatches : ∀ d ∈ s.dispatches, d.InOrder l

theorem Dispatch.InOrder.append {l : List Turn} {d : Dispatch} (h : d.InOrder l) (turn : Turn) :
    d.InOrder (l ++ [turn]) where
  announced := h.announced.mono (List.Subset.refl _) fun _ ⟨hs, hd, t, ht, hf⟩ =>
    ⟨hs, hd, t, List.mem_append_left _ ht, hf⟩
  early := h.early
  known := by
    obtain ⟨t, ht, ho⟩ := h.known
    exact ⟨t, List.mem_append_left _ ht, ho⟩

namespace Shift

variable {l : List Turn} {s s' : Shift}

theorem InOrder.append (h : s.InOrder l) (turn : Turn) : s.InOrder (l ++ [turn]) :=
  ⟨h.loop, h.held, fun d hd => (h.dispatches d hd).append turn⟩

/-- Nothing else of a shift matters to the order. -/
theorem InOrder.same (h : s.InOrder l) (he : s'.errands = s.errands) (hp : s'.phase = s.phase)
    (hd : s'.dispatches = s.dispatches) : s'.InOrder l where
  loop := he ▸ h.loop
  held := hp ▸ h.held
  dispatches := hd ▸ h.dispatches

theorem inOrder_put (h : s.InOrder l) (d : Dispatch) (pool : Pool) (retired : List WorkerId)
    (hd : d.InOrder l) : ({ s with pool, retired }.put d).InOrder l where
  loop := h.loop
  held := h.held
  dispatches c hc := by
    rcases mem_put _ d c hc with rfl | hc
    · exact hd
    · exact h.dispatches c hc

theorem inOrder_fetch (h : s.InOrder l) (max : Nat) : (s.fetch max).InOrder l := by
  have hf := s.fetches_fetch max
  generalize s.fetch max = t at hf ⊢
  cases hf with
  | quits queue => exact ⟨h.loop, by simp, h.dispatches⟩
  | waits queue => exact h.same rfl rfl rfl
  | holds queue e rest =>
    refine ⟨h.loop, ?_, h.dispatches⟩
    intro session tests asked hp
    cases hp
    simp

/-- A batch that becomes a dispatch is of a session that was opened, for its tests wait. -/
theorem inOrder_allow (h : s.InOrder l) (now : Moment) (session : SessionId) (tests : List String)
    (asked : Bool) (he : s.errands = []) (hp : s.phase = .holding session tests asked)
    (hknown : ∀ x ∈ s.pending, ∃ turn ∈ l, ∃ names, turn.opens = some (x.session, names)) :
    (s.allow now session tests asked).InOrder l := by
  have ha := s.allows_allow now session tests asked
  generalize s.allow now session tests asked = t at ha ⊢
  have htests := h.held session tests asked hp
  cases ha with
  | launches p =>
    refine ⟨h.loop, by simp [launch], ?_⟩
    intro d hd
    rcases List.mem_append.mp hd with hd | hd
    · exact h.dispatches d hd
    · rw [List.mem_singleton.mp hd]
      obtain ⟨t, ht⟩ := List.exists_mem_of_ne_nil tests htests
      have hwaits : (⟨session, t⟩ : QueueEntry) ∈ s.pending := by
        refine List.mem_append_left _ (List.mem_append_right _ ?_)
        rw [hp]
        exact List.mem_map.mpr ⟨t, ht, rfl⟩
      exact ⟨.nil, fun _ => by rwa [Docket.unfinished_fresh], hknown _ hwaits⟩
  | waits p =>
    refine ⟨h.loop, ?_, h.dispatches⟩
    intro session' tests' asked' hp'
    cases hp'
    exact htests
  | quits p =>
    obtain ⟨ended, hended⟩ := errands_abandon session tests now
    refine ⟨?_, by simp, h.dispatches⟩
    rw [he, List.nil_append, hended]
    exact .results ended

theorem inOrder_hear {d : Dispatch} (hd : d.InOrder l) (now : Moment) (news : WorkerNews)
    (hs : d.stage.isEarly = false) :
    ({ d with docket := (d.docket.hear now news).1, errands := (d.docket.hear now news).2 } :
      Dispatch).InOrder l := by
  have hsession := d.docket.session_hear now news
  have hheard := d.docket.announced_hear now news
  generalize d.docket.hear now news = r at hsession hheard ⊢
  refine ⟨?_, fun hearly => ?_, ?_⟩
  · rw [← hsession] at hheard
    exact hheard _
  · rw [hs] at hearly
    cases hearly
  · rw [hsession]
    exact hd.known

/-- A dispatch that ends all its tests makes the errands of their results. -/
theorem inOrder_finishAll {d : Dispatch} (hd : d.InOrder l) (now : Moment)
    (outcome : String → Outcome) (reason : String) (stage : Stage) (hs : stage.isEarly = false) :
    ({ d with
      docket := (Docket.finishAll now outcome reason d.docket d.docket.unfinished).1
      errands := (Docket.finishAll now outcome reason d.docket d.docket.unfinished).2
      stage } : Dispatch).InOrder l := by
  obtain ⟨hsession, ended, hended, -⟩ :=
    d.docket.errands_finishAll now outcome reason d.docket.unfinished
  refine ⟨?_, fun hearly => ?_, ?_⟩
  · rw [hended]
    exact .results ended
  · rw [hs] at hearly
    cases hearly
  · rw [hsession]
    exact hd.known

/-- Where its worker breaks down, a notice comes first; no result follows it if none was owing. -/
theorem inOrder_failWith {d : Dispatch} (hd : d.InOrder l) (now : Moment) (notice reason : String)
    (stage : Stage) (hs : stage.isEarly = false)
    (hlate : d.docket.unfinished = [] → ∃ turn ∈ l, turn.FailsLate d.docket.session) :
    ({ failWith d now notice reason with stage } : Dispatch).InOrder l := by
  obtain ⟨hsession, ended, hended, hmine, hnone⟩ := d.docket.errands_finishAll now
    (fun t => if d.docket.started.contains t then .crashed else .notRun) reason d.docket.unfinished
  have hleft := d.docket.unfinished_finishAll_self now
    (fun t => if d.docket.started.contains t then .crashed else .notRun) reason
  refine ⟨?_, fun hearly => ?_, ?_⟩
  · simp only [failWith, Docket.failRemaining, hended, hsession]
    refine .notice d.docket.session notice _ ?_ (.results ended)
    cases ended with
    | nil =>
      have hdone : d.docket.unfinished = [] :=
        List.eq_nil_iff_forall_not_mem.mpr fun t ht => hnone rfl t ht ht
      exact Or.inr ⟨rfl, rfl, hleft, hlate hdone⟩
    | cons r ended =>
      refine Or.inl ⟨r.outcome, ?_⟩
      rw [← hmine r List.mem_cons_self]
      simp [TestResult.errands, TestResult.announce]
  · rw [hs] at hearly
    cases hearly
  · simp only [failWith, Docket.failRemaining, hsession]
    exact hd.known

/-- What a shift does by itself keeps the order, if a worker that breaks down with nothing owing has
been noted. -/
theorem inOrder_works {settings : EngineSettings} {now : Moment} {hired : Option WorkerId}
    (h : s.InOrder l) (hw : s.Works settings now hired s')
    (hknown : ∀ x ∈ s.pending, ∃ turn ∈ l, ∃ names, turn.opens = some (x.session, names))
    (hlate : ∀ d w x, d ∈ s.dispatches → d.stage = .running w → d.docket.unfinished = [] →
      s' = s.conclude d now w (.error x) → ∃ turn ∈ l, turn.FailsLate d.docket.session) :
    s'.InOrder l := by
  cases hw with
  | closeQueue hc hq => exact h.same rfl rfl rfl
  | closePermits hq hp => exact h.same rfl rfl rfl
  | fetch he hp => exact inOrder_fetch h _
  | allow session tests asked he hp => exact inOrder_allow h now session tests asked he hp hknown
  | sweep he hp hd hc =>
    obtain ⟨ended, hended⟩ := errands_abandonAll (bySession s.queue.entries).entries now
    refine ⟨?_, by simp [sweep], h.dispatches⟩
    simp only [sweep, Queue.drain, he, List.nil_append, hended]
    exact .results ended
  | finish he hp => exact ⟨h.loop, by simp [finish], h.dispatches⟩
  | checkout d healthy hd he hs =>
    have hin := h.dispatches d hd
    refine inOrder_put h _ _ _ ⟨hin.announced, ?_, hin.known⟩
    exact fun _ => hin.early (by rw [hs]; rfl)
  | connected d w hd he hs =>
    have hin := h.dispatches d hd
    exact inOrder_put h _ _ s.retired ⟨hin.announced, by simp [Stage.isEarly], hin.known⟩
  | unconnected d x hd he hs =>
    have hin := h.dispatches d hd
    have hopen := hin.early (by rw [hs]; rfl)
    exact inOrder_put h _ s.pool s.retired
      (inOrder_failWith hin now _ x.message .leaving rfl fun hdone => absurd hdone hopen)
  | hear d w news hd he hs =>
    exact inOrder_put h _ s.pool s.retired
      (inOrder_hear (h.dispatches d hd) now news (by rw [hs]; rfl))
  | conclude d w result hd he hs =>
    have hin := h.dispatches d hd
    cases result with
    | ok =>
      exact inOrder_put h _ s.pool s.retired
        (inOrder_finishAll hin now (fun _ => .error) _ (.returning w false) rfl)
    | error x =>
      exact inOrder_put h _ s.pool s.retired
        (inOrder_failWith hin now _ x.message (.returning w true) rfl
          fun hdone => hlate d w x hd hs hdone rfl)
  | callOff d w hd he hs hc =>
    exact inOrder_put h _ s.pool s.retired
      (inOrder_finishAll (h.dispatches d hd) now (fun _ => .notRun) _ (.returning w true) rfl)
  | checkin d w broken healthy hd he hs =>
    have hin := h.dispatches d hd
    exact inOrder_put h _ _ _ ⟨hin.announced, by simp [Stage.isEarly], hin.known⟩
  | leave d hd he hs =>
    exact ⟨h.loop, h.held, fun c hc => h.dispatches c (List.mem_filter.mp hc).1⟩
  | parts c _ hc hparts =>
    obtain ⟨p, left, rfl, -⟩ := hparts.exists_eq
    exact h.same rfl rfl rfl

/-- An errand that is done, and what it leaves, keep the order. -/
theorem inOrder_hands {x : Errand} {more : List Errand} (h : s.InOrder l) (hh : s.Hands x more s')
    (hm : more = [] ∨ ∃ s summary, more = [.publish (.complete s summary)]) : s'.InOrder l := by
  cases hh with
  | loop _ rest _ he =>
    have hloop := h.loop
    rw [he] at hloop
    exact ⟨hloop.deliver more hm, h.held, h.dispatches⟩
  | dispatch d _ rest _ hd he =>
    have hin := h.dispatches d hd
    have hmine := hin.announced
    rw [he] at hmine
    exact inOrder_put h _ s.pool s.retired ⟨hmine.deliver more hm, hin.early, hin.known⟩

end Shift

namespace Engine

variable {e e' : Engine} {l : List Turn}

theorem inOrder_putShift (h : ∀ s ∈ e.shifts, s.InOrder l) (k : Nat) (s' : Shift)
    (hs : s'.InOrder l) : ∀ s ∈ (e.putShift k s').shifts, s.InOrder l := by
  intro s hm
  rcases List.mem_or_eq_of_mem_set hm with hm | rfl
  · exact h s hm
  · exact hs

/-- Every turn keeps the errands of all shifts in order. -/
theorem inOrder_act (h : ∀ s ∈ e.shifts, s.InOrder l) (hb : e.Books (askedIn l)) (now : Moment)
    (a : Action) (ha : e.act now a = some e') :
    ∀ s ∈ e'.shifts, s.InOrder (l ++ [⟨e, now, a⟩]) := by
  have hold (s : Shift) (hs : s ∈ e.shifts) : s.InOrder (l ++ [⟨e, now, a⟩]) := (h s hs).append _
  have hc := change_of_act e now a e' ha
  cases hc with
  | opens tests hm ht =>
    intro s hs
    have hs' : s ∈ e.ensureShift.shifts := hs
    rcases e.ensureShift_cases with ⟨-, -, -, -, he⟩ | he
    · exact hold s (he ▸ hs')
    · rw [he] at hs'
      rcases List.mem_cons.mp hs' with rfl | hs'
      · exact ⟨.nil, by simp [Shift.ofPermits], by simp [Shift.ofPermits]⟩
      · exact hold s hs'
  | pushes session tests hm =>
    rw [push]
    split
    · exact hold
    · next s rest hs =>
      rw [hs] at hold
      exact List.forall_mem_cons.mpr ⟨(hold s List.mem_cons_self).same rfl rfl rfl,
        fun t ht => hold t (List.mem_cons_of_mem s ht)⟩
  | adjusts n =>
    rw [setLimit]
    split
    · exact hold
    · next s rest hs =>
      rw [hs] at hold
      exact List.forall_mem_cons.mpr ⟨(hold s List.mem_cons_self).same rfl rfl rfl,
        fun t ht => hold t (List.mem_cons_of_mem s ht)⟩
  | stops s rest hm hs hc =>
    rw [hs] at hold
    exact List.forall_mem_cons.mpr ⟨(hold s List.mem_cons_self).same rfl rfl rfl,
      fun t ht => hold t (List.mem_cons_of_mem s ht)⟩
  | works _ k s s' hk hs hw =>
    have hmem := mem_of_shift e k s hs
    refine inOrder_putShift hold k s' (Shift.inOrder_works (hold s hmem) hw ?_ ?_)
    · intro x hx
      -- What waits was asked for when its session was opened.
      have hasked := hb.asked_of_pending (mem_pending_of_shift hmem hx)
      obtain ⟨turn, hl, names, ho, -⟩ := of_mem_askedIn l x hasked
      exact ⟨turn, List.mem_append_left _ hl, names, ho⟩
    · intro d w x hd hstage hdone hs'
      rw [hs'] at ha
      exact ⟨_, List.mem_append_right _ List.mem_cons_self, k, s, d, w, x, hs, hd, rfl, hdone,
        hstage, ha⟩
  | hands _ k s s' x desk more hk hn hs hd hh =>
    have hmem := mem_of_shift e k s hs
    have hleaves := (e.desk.delivers_deliver now x).leaves
    rw [hd] at hleaves
    exact inOrder_putShift (e := { e with desk }) hold k s'
      (Shift.inOrder_hands (hold s hmem) hh hleaves)

variable {settings : EngineSettings} {limit capacity : Nat} {history : History}

theorem inOrder_run (h : (fresh settings limit capacity history).Run l e) :
    ∀ s ∈ e.shifts, s.InOrder l := by
  induction h with
  | start => simp [fresh, ofSettings]
  | step l d now a e' hrun ha ih => exact inOrder_act ih (books_run hrun) now a ha

end Engine

end Retest
