import Retest.Proofs.Announcements

/-! The end of a session among the events. Results and starts come before it. Only a worker that
breaks down after its last report has something published behind it. -/

namespace Retest

namespace Feed

def EndsLast (f : Feed) (s : SessionId) : Prop :=
  f.published.toList.Pairwise fun a b => a.completes s = true → b.session? ≠ some s

instance (f : Feed) (s : SessionId) : Decidable (f.EndsLast s) :=
  inferInstanceAs (Decidable (List.Pairwise _ _))

def NoticesLast (f : Feed) (s : SessionId) : Prop :=
  f.published.toList.Pairwise fun a b => a.completes s = true → b.session? = some s →
    ∃ message, b = .diagnostic (some s) message

theorem completeCount_pos (f : Feed) (s : SessionId) :
    0 < f.completeCount s ↔ ∃ a ∈ f.published.toList, a.completes s = true :=
  List.countP_pos_iff

theorem endsLast_push (f f' : Feed) (ev : Event) (s : SessionId)
    (h : f'.published = f.published.push ev) :
    f'.EndsLast s ↔ f.EndsLast s ∧ (0 < f.completeCount s → ev.session? ≠ some s) := by
  rw [EndsLast, h, Array.toList_push, List.pairwise_append, completeCount_pos]
  simp [EndsLast]

theorem noticesLast_push (f f' : Feed) (ev : Event) (s : SessionId)
    (h : f'.published = f.published.push ev) :
    f'.NoticesLast s ↔ f.NoticesLast s ∧ (0 < f.completeCount s → ev.session? = some s →
      ∃ message, ev = .diagnostic (some s) message) := by
  rw [NoticesLast, h, Array.toList_push, List.pairwise_append, completeCount_pos]
  simp [NoticesLast]

/-- Where all events are of one session that has ended, and nothing comes behind its end, that is
the last one. -/
theorem complete_last (f : Feed) (s : SessionId) (h : f.EndsLast s) (hc : 0 < f.completeCount s)
    (hs : ∀ ev ∈ f.published.toList, ev.session? = some s) :
    ∃ before summary, f.published.toList = before ++ [.complete s summary] := by
  obtain ⟨a, ha, hcompletes⟩ := (f.completeCount_pos s).mp hc
  obtain ⟨before, behind, hsplit⟩ := List.append_of_mem ha
  rw [EndsLast, hsplit, List.pairwise_append, List.pairwise_cons] at h
  have hnone : behind = [] := by
    refine List.eq_nil_iff_forall_not_mem.mpr fun b hb => h.2.1.1 b hb hcompletes (hs b ?_)
    rw [hsplit]
    exact List.mem_append_right _ (List.mem_cons_of_mem a hb)
  cases a with
  | complete t summary =>
    have hts : t = s := of_decide_eq_true hcompletes
    exact ⟨before, summary, by rw [hsplit, hnone, hts]⟩
  | _ => cases hcompletes

/-- Whoever has not seen the last event gets it, however far behind. -/
theorem getLast_receive (f : Feed) (before : List Event) (ev : Event) (hc : 0 < f.capacity)
    (hp : f.published.toList = before ++ [ev]) (seen : Nat) (hs : seen < f.published.size) :
    (f.receive seen).getLast? = some (.event ev) := by
  have hsize : f.published.size = before.length + 1 := by
    rw [← Array.length_toList, hp, List.length_append, List.length_singleton]
  have hdrop (n : Nat) (hn : n ≤ before.length) :
      (f.published.toList.drop n).map Receipt.event =
        (before.drop n).map .event ++ [.event ev] := by
    rw [hp, List.drop_append_of_le_length hn, List.map_append, List.map_singleton]
  rw [receive]
  split
  · rw [hdrop _ (by omega), ← List.cons_append]
    exact List.getLast?_concat
  · rw [hdrop seen (by omega)]
    exact List.getLast?_concat

end Feed

namespace Turn

def Belated (t : Turn) (session : SessionId) : Prop :=
  ∃ k s d message e, t.before.shift? k = some s ∧ d ∈ s.dispatches ∧ d.docket.session = session ∧
    d.docket.unfinished = [] ∧ d.errands = [.publish (.diagnostic (some session) message)] ∧
    0 < t.before.desk.feed.completeCount session ∧ t.before.act t.now t.action = some e ∧
    e.desk.feed.published =
      t.before.desk.feed.published.push (.diagnostic (some session) message)

end Turn

namespace Engine

variable {e e' : Engine} {l : List Turn} {asked : List QueueEntry}

/-- A session that waits for a test or for a count, or is to be ended, has not ended, and was
opened. -/
theorem Books.unended (h : e.Books asked) (s : SessionId)
    (hs : (∃ t, ⟨s, t⟩ ∈ e.pending) ∨ (∃ o, .count s o ∈ e.outstanding) ∨
      ∃ summary, .publish (.complete s summary) ∈ e.outstanding) :
    e.desk.feed.completeCount s = 0 ∧ 1 ≤ s ∧ s ≤ e.desk.feed.opened := by
  have hcomplete := h.complete s
  have hlive : 0 < weigh (publishes (Event.completes s)) e.outstanding +
      (e.desk.feed.sessions.contains s).toNat := by
    have hopen (hr : 0 < e.desk.feed.remaining s) : e.desk.feed.sessions.contains s = true := by
      cases hf : e.desk.feed.sessions.find? s with
      | none => simp [Feed.remaining, hf] at hr
      | some u => simp [SortedMap.contains, hf]
    have hremaining := h.remaining s
    rcases hs with ⟨t, ht⟩ | ⟨o, ho⟩ | ⟨summary, hsummary⟩
    · have hle := le_weigh (fun x : QueueEntry => if x.session = s then 1 else 0) e.pending _ ht
      simp only [if_true] at hle
      rw [hopen (by omega)]
      simp
    · have hle := le_weigh (counts s) e.outstanding _ ho
      simp only [counts, if_true] at hle
      rw [hopen (by omega)]
      simp
    · have hle := le_weigh (publishes (Event.completes s)) e.outstanding _ hsummary
      simp only [publishes, Event.completes, decide_true, Bool.toNat_true] at hle
      omega
  by_cases hrange : 1 ≤ s ∧ s ≤ e.desk.feed.opened
  · rw [decide_eq_true hrange, Bool.toNat_true] at hcomplete
    exact ⟨by omega, hrange⟩
  · rw [decide_eq_false hrange, Bool.toNat_false] at hcomplete
    omega

/-- An event that a shift publishes is of a session that was opened and has not ended, or it is a
notice by itself. -/
theorem told_in_time {s s' : Shift} {ev : Event} {more : List Errand} (h : e.Books asked)
    (k : Nat) (hk : e.shift? k = some s) (hin : s.InOrder l)
    (hh : s.Hands (.publish ev) more s') : ∃ session, ev.session? = some session ∧
      (e.desk.feed.completeCount session = 0 ∧ 1 ≤ session ∧ session ≤ e.desk.feed.opened ∨
        ∃ d ∈ s.dispatches, ∃ message, d.docket.session = session ∧ d.docket.unfinished = [] ∧
          ev = .diagnostic (some session) message ∧ d.errands = [.publish ev] ∧
          (∃ turn ∈ l, turn.FailsLate session) ∧
          ∃ turn ∈ l, ∃ names, turn.opens = some (session, names)) := by
  have hmem := mem_of_shift e k s hk
  have hout (y : Errand) (hy : y ∈ s.outstanding) : y ∈ e.outstanding :=
    List.mem_flatMap.mpr ⟨s, hmem, hy⟩
  have hend (session : SessionId) (summary : Summary) (hev : ev = .complete session summary) :
      .publish (.complete session summary) ∈ e.outstanding :=
    hout _ (hev ▸ Shift.mem_outstanding_of_hands hh)
  cases hh with
  | loop _ rest _ he =>
    have hloop := hin.loop
    rw [he] at hloop
    obtain ⟨session, hev, ⟨o, ho⟩ | ⟨t, ht⟩ | ⟨summary, hs⟩ | ⟨_, -, -, hno⟩⟩ := hloop.head
    · have hcount : .count session o ∈ s.outstanding :=
        List.mem_append_left _ (he ▸ List.mem_cons_of_mem _ ho)
      exact ⟨session, hev, Or.inl (h.unended session (Or.inr (Or.inl ⟨o, hout _ hcount⟩)))⟩
    · exact absurd ht List.not_mem_nil
    · exact ⟨session, hev,
        Or.inl (h.unended session (Or.inr (Or.inr ⟨summary, hend session summary hs⟩)))⟩
    · exact hno.elim
  | dispatch d _ rest _ hd he =>
    have hmine := (hin.dispatches d hd).announced
    rw [he] at hmine
    obtain ⟨session, hev, ⟨o, ho⟩ | ⟨t, ht⟩ | ⟨summary, hs⟩ | ⟨message, hn, hrest, halone⟩⟩ :=
      hmine.head
    · have hcount : .count session o ∈ s.outstanding :=
        List.mem_append_right _
          (List.mem_flatMap.mpr ⟨d, hd, he ▸ List.mem_cons_of_mem _ ho⟩)
      exact ⟨session, hev, Or.inl (h.unended session (Or.inr (Or.inl ⟨o, hout _ hcount⟩)))⟩
    · have hwaits : (⟨session, t⟩ : QueueEntry) ∈ e.pending := by
        refine List.mem_append_right _ (List.mem_flatMap.mpr ⟨s, hmem, ?_⟩)
        exact List.mem_append_right _ (List.mem_flatMap.mpr ⟨d, hd, ht⟩)
      exact ⟨session, hev, Or.inl (h.unended session (Or.inl ⟨t, hwaits⟩))⟩
    · exact ⟨session, hev,
        Or.inl (h.unended session (Or.inr (Or.inr ⟨summary, hend session summary hs⟩)))⟩
    · obtain ⟨hsession, hdone, hlate⟩ := halone
      refine ⟨session, hev, Or.inr ⟨d, hd, message, hsession.symm, hdone, hn, ?_, hlate, ?_⟩⟩
      · rw [he, hrest]
      · rw [hsession]
        exact (hin.dispatches d hd).known

variable {settings : EngineSettings} {limit capacity : Nat} {history : History}

/-- What a turn publishes: nothing; an event of an opened session that has not ended; or a notice by
itself, which may be belated. -/
inductive Publishes (l : List Turn) (turn : Turn) (f f' : Feed) : Prop
  | nothing (h : f'.published = f.published)
  | inTime (ev : Event) (session : SessionId) (h : f'.published = f.published.push ev)
    (hev : ev.session? = some session) (hc : f.completeCount session = 0) (h1 : 1 ≤ session)
    (hn : session ≤ f.opened)
  | notice (session : SessionId) (message : String)
    (h : f'.published = f.published.push (.diagnostic (some session) message))
    (hb : 0 < f.completeCount session → turn.Belated session)
    (hl : ∃ turn ∈ l, turn.FailsLate session)
    (ho : ∃ turn ∈ l, ∃ names, turn.opens = some (session, names))

theorem publishes_act (h : (fresh settings limit capacity history).Run l e) (now : Moment)
    (a : Action) (ha : e.act now a = some e') :
    Publishes l ⟨e, now, a⟩ e.desk.feed e'.desk.feed := by
  have hc := change_of_act e now a e' ha
  cases hc with
  | opens tests hm ht =>
    have hsame : (e.openSession now (distinctNames tests)).desk.feed.published =
        e.ensureShift.desk.feed.published := rfl
    exact .nothing (by rw [hsame, desk_ensureShift])
  | pushes session tests hm => exact .nothing (by cases hs : e.shifts <;> simp [push, hs])
  | adjusts n => exact .nothing (by cases hs : e.shifts <;> simp [setLimit, hs])
  | stops s rest hm hs hc => exact .nothing rfl
  | works _ k s s' hk hs hw => exact .nothing rfl
  | hands _ k s s' x desk more hk hn hs hd hh =>
    have hdelivers := e.desk.delivers_deliver now x
    rw [hd] at hdelivers
    cases hdelivers with
    | notes => exact .nothing rfl
    | passes => exact .nothing rfl
    | ends => exact .nothing rfl
    | counts => exact .nothing rfl
    | shows ev =>
      obtain ⟨session, hev, htold⟩ :=
        told_in_time (books_run h) k hs (inOrder_run h s (mem_of_shift e k s hs)) hh
      rcases htold with ⟨hcount, h1, hlast⟩ | ⟨d, hmem, message, hsession, hdone, rfl, he, hl, ho⟩
      · exact .inTime ev session rfl hev hcount h1 hlast
      · refine .notice session message rfl (fun hcount => ?_) hl ho
        exact ⟨k, s, d, message, _, hs, hmem, hsession, hdone, he, hcount, ha, rfl⟩

/-- What a belated notice is published behind is there before it. -/
theorem endsLast_act (h : (fresh settings limit capacity history).Run l e) (now : Moment)
    (a : Action) (ha : e.act now a = some e') (s : SessionId) :
    e'.desk.feed.EndsLast s ↔ e.desk.feed.EndsLast s ∧ ¬(⟨e, now, a⟩ : Turn).Belated s := by
  have hlate (hb : (⟨e, now, a⟩ : Turn).Belated s) : ¬e'.desk.feed.EndsLast s := by
    obtain ⟨-, -, -, message, e'', -, -, -, -, -, hcount, ha', hp⟩ := hb
    rw [ha] at ha'
    rw [Option.some.inj ha', Feed.endsLast_push _ _ _ s hp]
    exact fun hlast => hlast.2 hcount rfl
  have hpush (ev : Event) (hp : e'.desk.feed.published = e.desk.feed.published.push ev)
      (hends : e'.desk.feed.EndsLast s) : e.desk.feed.EndsLast s :=
    ((Feed.endsLast_push _ _ ev s hp).mp hends).1
  cases publishes_act h now a ha with
  | nothing hp =>
    have hsame : e'.desk.feed.EndsLast s ↔ e.desk.feed.EndsLast s := by
      rw [Feed.EndsLast, hp]
      rfl
    refine ⟨fun hends => ⟨hsame.mp hends, fun hb => hlate hb hends⟩, fun hends => hsame.mpr hends.1⟩
  | inTime ev session hp hev hc h1 hn =>
    refine ⟨fun hends => ⟨hpush ev hp hends, fun hb => hlate hb hends⟩, ?_⟩
    rintro ⟨hends, -⟩
    refine (Feed.endsLast_push _ _ ev s hp).mpr ⟨hends, ?_⟩
    intro hcount hs
    rw [hev] at hs
    rw [Option.some.inj hs] at hc
    omega
  | notice session message hp hb hl ho =>
    refine ⟨fun hends => ⟨hpush _ hp hends, fun hb => hlate hb hends⟩, ?_⟩
    rintro ⟨hends, hnot⟩
    refine (Feed.endsLast_push _ _ _ s hp).mpr ⟨hends, ?_⟩
    intro hcount hs
    cases hs
    exact hnot (hb hcount)

theorem capacity_run (h : (fresh settings limit capacity history).Run l e) :
    0 < e.desk.feed.capacity := by
  induction h with
  | start =>
    change 0 < powerAtLeast (Nat.max capacity 1)
    rw [powerAtLeast]
    split
    · exact Nat.one_pos
    · exact Nat.pow_pos Nat.two_pos
  | step l d now a e' hrun ha ih =>
    have hc := change_of_act d now a e' ha
    cases hc with
    | opens tests hm ht =>
      have hsame : (d.openSession now (distinctNames tests)).desk.feed.capacity =
          d.ensureShift.desk.feed.capacity := rfl
      rwa [hsame, desk_ensureShift]
    | pushes session tests hm =>
      have hsame : (d.push session tests).desk = d.desk := by
        cases hs : d.shifts <;> simp [push, hs]
      rwa [hsame]
    | adjusts n =>
      have hsame : (d.setLimit n).desk = d.desk := by cases hs : d.shifts <;> simp [setLimit, hs]
      rwa [hsame]
    | stops s rest hm hs hc => exact ih
    | works _ k s s' hk hs hw => exact ih
    | hands _ k s s' x desk more hk hn hs hd hh =>
      have hdelivers := d.desk.delivers_deliver now x
      rw [hd] at hdelivers
      cases hdelivers <;> exact ih

/-- Every event is of a session that was opened. -/
theorem session_published (h : (fresh settings limit capacity history).Run l e) :
    ∀ ev ∈ e.desk.feed.published.toList, ∃ s, ev.session? = some s ∧ 1 ≤ s ∧
      s ≤ e.desk.feed.opened := by
  induction h with
  | start => simp [fresh, Feed.ofCapacity]
  | step l d now a e' hrun ha ih =>
    have hopened := opened_change now a (change_of_act d now a e' ha)
    have hle : d.desk.feed.opened ≤ e'.desk.feed.opened := hopened ▸ Nat.le_add_right _ _
    have hold (ev : Event) (hev : ev ∈ d.desk.feed.published.toList) : ∃ s,
        ev.session? = some s ∧ 1 ≤ s ∧ s ≤ e'.desk.feed.opened := by
      obtain ⟨s, hs, h1, hn⟩ := ih ev hev
      exact ⟨s, hs, h1, Nat.le_trans hn hle⟩
    intro ev hev
    cases publishes_act hrun now a ha with
    | nothing hp => exact hold ev (hp ▸ hev)
    | inTime ev' session hp hs hc h1 hn =>
      rw [hp, Array.toList_push] at hev
      rcases List.mem_append.mp hev with hev | hev
      · exact hold ev hev
      · rw [List.mem_singleton.mp hev]
        exact ⟨session, hs, h1, Nat.le_trans hn hle⟩
    | notice session message hp hb hl ho =>
      rw [hp, Array.toList_push] at hev
      rcases List.mem_append.mp hev with hev | hev
      · exact hold ev hev
      · obtain ⟨turn, ht, names, hopens⟩ := ho
        obtain ⟨h1, hn⟩ := opened_run hrun turn session names ht hopens
        rw [List.mem_singleton.mp hev]
        exact ⟨session, rfl, h1, Nat.le_trans hn hle⟩

theorem endsLast_run (h : (fresh settings limit capacity history).Run l e) (s : SessionId) :
    e.desk.feed.EndsLast s ↔ ∀ turn ∈ l, ¬turn.Belated s := by
  induction h with
  | start => simp [Feed.EndsLast, fresh, Feed.ofCapacity]
  | step l d now a e' hrun ha ih =>
    rw [endsLast_act hrun now a ha s, ih, List.forall_mem_append, List.forall_mem_singleton]

/-- Results, starts and other ends come before the end of their session in every run. -/
theorem noticesLast_run (h : (fresh settings limit capacity history).Run l e) (s : SessionId) :
    e.desk.feed.NoticesLast s := by
  induction h with
  | start => simp [Feed.NoticesLast, fresh, Feed.ofCapacity]
  | step l d now a e' hrun ha ih =>
    cases publishes_act hrun now a ha with
    | nothing hp =>
      rw [Feed.NoticesLast, hp]
      exact ih
    | inTime ev session hp hev hc h1 hn =>
      refine (Feed.noticesLast_push _ _ ev s hp).mpr ⟨ih, fun hcount hs => ?_⟩
      rw [hev] at hs
      rw [Option.some.inj hs] at hc
      omega
    | notice session message hp hb hl ho =>
      refine (Feed.noticesLast_push _ _ _ s hp).mpr ⟨ih, fun hcount hs => ?_⟩
      cases hs
      exact ⟨message, rfl⟩

/-- A notice is belated only where a worker broke down after its last report. -/
theorem failsLate_of_belated (h : (fresh settings limit capacity history).Run l e) (turn : Turn)
    (hl : turn ∈ l) (s : SessionId) (hb : turn.Belated s) : ∃ turn ∈ l, turn.FailsLate s := by
  induction h with
  | start => exact absurd hl List.not_mem_nil
  | step l d now a e' hrun ha ih =>
    rcases List.mem_append.mp hl with hl | hl
    · obtain ⟨t, ht, hf⟩ := ih hl
      exact ⟨t, List.mem_append_left _ ht, hf⟩
    · rw [List.mem_singleton.mp hl] at hb
      obtain ⟨k, shift, dispatch, message, -, hk, hd, -, hdone, he, -⟩ := hb
      have hmine := ((inOrder_run hrun shift (mem_of_shift d k shift hk)).dispatches dispatch
        hd).announced
      rw [he] at hmine
      -- No test of the dispatch waits and no count follows, so the notice has its reason.
      cases hmine with
      | notice _ _ _ hreason =>
        obtain ⟨t, ht, hf⟩ := (hreason.resolve_left (by simp)).2.2.2
        exact ⟨t, List.mem_append_left _ ht, hf⟩

/-- In every run the end of a session comes behind all its starts and results. It is the last event
of the session exactly if no notice by itself is published behind it; such a notice comes from a
worker that broke down after it had reported every test of its dispatch. If there is one session
only and it ends so, its end is the last event of all, and every subscriber gets it. -/
theorem end_is_last_iff (settings : EngineSettings) (limit capacity : Nat) (history : History)
    (l : List Turn) (e : Engine) (h : (fresh settings limit capacity history).Run l e) :
    (∀ s, e.desk.feed.NoticesLast s ∧
        (e.desk.feed.EndsLast s ↔ ∀ turn ∈ l, ¬turn.Belated s) ∧
        ((∃ turn ∈ l, turn.Belated s) → ∃ turn ∈ l, turn.FailsLate s)) ∧
      (e.desk.feed.opened = 1 → 0 < e.desk.feed.completeCount 1 → (∀ turn ∈ l, ¬turn.Belated 1) →
        ∃ before summary, e.desk.feed.published.toList = before ++ [.complete 1 summary] ∧
          ∀ seen < e.desk.feed.published.size,
            (e.desk.feed.receive seen).getLast? = some (.event (.complete 1 summary))) := by
  refine ⟨fun s => ⟨noticesLast_run h s, endsLast_run h s, ?_⟩, ?_⟩
  · rintro ⟨turn, hl, hb⟩
    exact failsLate_of_belated h turn hl s hb
  · intro hone hcount hnot
    have hends : e.desk.feed.EndsLast 1 := (endsLast_run h 1).mpr hnot
    have hsessions (ev : Event) (hev : ev ∈ e.desk.feed.published.toList) :
        ev.session? = some 1 := by
      obtain ⟨s, hs, h1, hn⟩ := session_published h ev hev
      have hsame : s = 1 := Nat.le_antisymm (hone ▸ hn) h1
      rw [hs, hsame]
    obtain ⟨before, summary, hp⟩ := e.desk.feed.complete_last 1 hends hcount hsessions
    refine ⟨before, summary, hp, ?_⟩
    exact e.desk.feed.getLast_receive before _ (capacity_run h) hp

def oneReport : List (Moment × Action) :=
  [.openSession ["a"], .push, .fetch 0, .allow 0, .checkout 0 0 fun _ => true,
    .connected 0 0 (.ok ⟨1⟩), .hear 0 0 (.finished "a" .pass none), .deliverFor 0 0,
    .deliverFor 0 0, .deliverFor 0 0, .deliverFor 0 0].map fun a => (default, a)

def lateFailure : List (Moment × Action) :=
  oneReport ++ [.conclude 0 0 (.error (.crashed "exit status: 0")), .deliverFor 0 0].map
    fun a => (default, a)

theorem one_report_ends_last : ∃ l e, (fresh {} 1 1 {}).Run l e ∧
    (∀ turn ∈ l, ¬turn.Belated 1) ∧
    ∃ before summary, e.desk.feed.published.toList = before ++ [.complete 1 summary] ∧
      (e.desk.feed.receive 0).getLast? = some (.event (.complete 1 summary)) := by
  have htrial : ((fresh {} 1 1 {}).follow oneReport).any (fun r =>
      decide (r.2.desk.feed.EndsLast 1) && decide (r.2.desk.feed.opened = 1) &&
        decide (0 < r.2.desk.feed.completeCount 1) &&
        decide (0 < r.2.desk.feed.published.size)) = true := by
    decide +kernel
  obtain ⟨⟨l, e⟩, hf, ht⟩ := (Option.any_eq_true _ _).mp htrial
  simp only [Bool.and_eq_true, decide_eq_true_eq] at ht
  obtain ⟨⟨⟨hends, hone⟩, hcount⟩, hsize⟩ := ht
  have hrun := run_of_follow oneReport (l, e) hf
  obtain ⟨hsessions, hlast⟩ := end_is_last_iff {} 1 1 {} l e hrun
  have hnot := (hsessions 1).2.1.mp hends
  obtain ⟨before, summary, hp, hreceive⟩ := hlast hone hcount hnot
  exact ⟨l, e, hrun, hnot, before, summary, hp, hreceive 0 hsize⟩

/-- A subscriber that is behind gets a notice instead of the end of the session. -/
theorem late_failure_hides_the_end : ∃ l e, (fresh {} 1 1 {}).Run l e ∧
    ¬e.desk.feed.EndsLast 1 ∧ e.desk.feed.opened = 1 ∧ e.desk.feed.completeCount 1 = 1 ∧
      e.desk.feed.receive 0 = [.lagged 2, .event (.diagnostic (some 1)
        "worker-1: worker exited before finishing the batch (exit status: 0)")] := by
  have htrial : ((fresh {} 1 1 {}).follow lateFailure).any (fun r =>
      decide (¬r.2.desk.feed.EndsLast 1) && decide (r.2.desk.feed.opened = 1) &&
        decide (r.2.desk.feed.completeCount 1 = 1) &&
        decide (r.2.desk.feed.receive 0 = [.lagged 2, .event (.diagnostic (some 1)
          "worker-1: worker exited before finishing the batch (exit status: 0)")])) = true := by
    decide +kernel
  obtain ⟨⟨l, e⟩, hf, ht⟩ := (Option.any_eq_true _ _).mp htrial
  simp only [Bool.and_eq_true, decide_eq_true_eq] at ht
  obtain ⟨⟨⟨hends, hone⟩, hcount⟩, hreceive⟩ := ht
  exact ⟨l, e, run_of_follow lateFailure (l, e) hf, hends, hone, hcount, hreceive⟩

end Engine

end Retest
