import Retest.Proofs.EngineLedger

/-! How sessions come about over a run: they are opened and numbered one after the other, and the
tests of each are pushed before the next one is opened. -/

namespace Retest.Engine

theorem desk_ensureShift (e : Engine) : e.ensureShift.desk = e.desk := by
  rcases e.ensureShift_cases with ⟨-, -, -, -, he⟩ | he <;> rw [he]

/-- Tests can be run while a shift is on, or with a limit that a new shift can have. -/
theorem canRun_iff (e : Engine) : e.canRun = true ↔
    e.isStarted = true ∨ Nat.max e.concurrency 1 ≤ Permits.maxPermits := by
  have hcreate : (Permits.create? e.permits.limit).isSome = true ↔
      Nat.max e.concurrency 1 ≤ Permits.maxPermits := by
    rw [Permits.create?, concurrency]
    exact Option.isSome_ite
  rw [canRun, Bool.or_eq_true, hcreate]

/-- Running tests is to open a session with them and to queue them. -/
theorem acts_of_run (e : Engine) (now : Moment) (tests : List String) (hm : e.midway = none)
    (ht : tests ≠ []) (hr : e.canRun = true) : ∃ d, e.act now (.openSession tests) = some d ∧
      d.act now .push = some (e.run now tests).1 ∧
      (e.run now tests).2 = some (e.desk.feed.opened + 1) := by
  have hne : distinctNames tests ≠ [] := (distinctNames_eq_nil tests).not.mpr ht
  have hopened : e.ensureShift.desk.feed.opened = e.desk.feed.opened := by
    rw [desk_ensureShift]
  refine ⟨e.openSession now (distinctNames tests), by simp [act, hm, hne, hr], ?_, ?_⟩
  · cases hd : distinctNames tests with
    | nil => exact absurd hd hne
    | cons t rest => simp only [act, run, hd, hr, openSession, if_true]
  · rw [← hopened]
    cases hd : distinctNames tests with
    | nil => exact absurd hd hne
    | cons t rest => simp only [run, hd, hr, openSession, Feed.openSession, if_true]

/-- Running tests does nothing without any, or opens the next session with them and queues them. -/
theorem turns_of_run (e : Engine) (now : Moment) (tests : List String) (hm : e.midway = none)
    (hr : e.canRun = true) :
    tests = [] ∧ e.run now tests = (e, none) ∨
      ∃ e' before, e.run now tests = (e', some (e.desk.feed.opened + 1)) ∧
        e.Run [⟨e, now, .openSession tests⟩, ⟨before, now, .push⟩] e' := by
  by_cases ht : tests = []
  · subst ht
    exact Or.inl ⟨rfl, rfl⟩
  · obtain ⟨d, hopen, hpush, hid⟩ := e.acts_of_run now tests hm ht hr
    exact Or.inr ⟨(e.run now tests).1, d, Prod.ext rfl hid,
      (Run.single now _ hopen).trans (Run.single now _ hpush)⟩

/-- Only an opened session changes how many there were. -/
theorem opened_change {e e' : Engine} (now : Moment) (a : Action) (h : e.Change now a e') :
    e'.desk.feed.opened =
      e.desk.feed.opened + ((⟨e, now, a⟩ : Turn).opens.isSome).toNat := by
  cases h with
  | opens tests hm ht hr =>
    have hopened : (e.openSession now (distinctNames tests)).desk.feed.opened =
        e.ensureShift.desk.feed.opened + 1 := rfl
    rw [hopened, desk_ensureShift]
    rfl
  | pushes session tests hm => cases hs : e.shifts <;> simp [push, hs, Turn.opens]
  | adjusts n => cases hs : e.shifts <;> simp [setLimit, hs, Turn.opens]
  | stops s rest hm hs hc => rfl
  | works _ k s s' hk hs hw =>
    rw [Turn.opens_of_shift e now a k hk]
    rfl
  | hands _ k s s' x desk more hk hn hs hd hh =>
    have hdesk : desk.feed.opened = e.desk.feed.opened := by
      have hsame := e.desk.opened_deliver now x
      rwa [hd] at hsame
    rw [Turn.opens_of_shift e now a k hk]
    exact hdesk

/-- Sessions are numbered from one on, in the order in which they are opened. -/
theorem opened_run {e₀ e : Engine} {l : List Turn} (h : e₀.Run l e) (turn : Turn)
    (session : SessionId) (names : List String) (hl : turn ∈ l)
    (ho : turn.opens = some (session, names)) : 1 ≤ session ∧ session ≤ e.desk.feed.opened := by
  induction h with
  | start => exact absurd hl List.not_mem_nil
  | step l d now a e' _ ha ih =>
    have hopened := opened_change now a (change_of_act d now a e' ha)
    rcases List.mem_append.mp hl with hl | hl
    · obtain ⟨hfirst, hlast⟩ := ih hl
      exact ⟨hfirst, hopened ▸ Nat.le_add_right_of_le hlast⟩
    · rw [List.mem_singleton.mp hl] at ho
      rw [ho] at hopened
      have hsession : session = d.desk.feed.opened + 1 := by
        cases a with
        | openSession tests => exact ((Prod.mk.inj (Option.some.inj ho)).1).symm
        | _ => cases ho
      rw [hopened, hsession]
      exact ⟨Nat.le_add_left 1 _, Nat.le_refl _⟩

/-- A session is opened by one turn only. -/
theorem opens_unique {e₀ e : Engine} {l : List Turn} (h : e₀.Run l e) (session : SessionId)
    (t u : Turn) (names names' : List String) (ht : t ∈ l) (hu : u ∈ l)
    (ho : t.opens = some (session, names)) (ho' : u.opens = some (session, names')) : t = u := by
  induction h with
  | start => exact absurd ht List.not_mem_nil
  | step l d now a e' hrun ha ih =>
    -- The session of an earlier turn has a lower number than the one that is opened now.
    have hlater (turn : Turn) (hl : turn ∈ l) (names names' : List String)
        (ho : turn.opens = some (session, names))
        (ho' : (⟨d, now, a⟩ : Turn).opens = some (session, names')) : False := by
      obtain ⟨-, hle⟩ := opened_run hrun turn session names hl ho
      have hnew : session = d.desk.feed.opened + 1 := by
        cases a with
        | openSession tests => exact ((Prod.mk.inj (Option.some.inj ho')).1).symm
        | _ => cases ho'
      have hlt : d.desk.feed.opened + 1 ≤ d.desk.feed.opened := hnew ▸ hle
      omega
    rcases List.mem_append.mp ht with ht | ht <;> rcases List.mem_append.mp hu with hu | hu
    · exact ih ht hu
    · rw [List.mem_singleton.mp hu] at ho'
      exact (hlater t ht names names' ho ho').elim
    · rw [List.mem_singleton.mp ht] at ho
      exact (hlater u hu names' names ho' ho).elim
    · rw [List.mem_singleton.mp ht, List.mem_singleton.mp hu]

/-- A push becomes midway when its session is opened, and stays so until its tests are queued. -/
theorem midway_change {e e' : Engine} (now : Moment) (a : Action) (h : e.Change now a e') :
    (∃ tests, a = .openSession tests ∧ e.midway = none ∧
        e'.midway = some (e.desk.feed.opened + 1, distinctNames tests) ∧
        e'.shifts.length = e.ensureShift.shifts.length) ∨
      (a = .push ∧ e'.midway = none ∧ e'.shifts.length = e.shifts.length) ∨
      (Turn.opens ⟨e, now, a⟩ = none ∧ e'.midway = e.midway ∧
        e'.shifts.length = e.shifts.length) := by
  cases h with
  | opens tests hm ht hr =>
    have hmid : (e.openSession now (distinctNames tests)).midway =
        some (e.ensureShift.desk.feed.opened + 1, distinctNames tests) := rfl
    rw [desk_ensureShift] at hmid
    exact Or.inl ⟨tests, rfl, hm, hmid, rfl⟩
  | pushes session tests hm =>
    cases hs : e.shifts with
    | nil =>
      have hsame : e.push session tests = e := by simp only [push, hs]
      rw [hsame]
      exact Or.inr (Or.inr ⟨rfl, rfl, by rw [hs]⟩)
    | cons s rest => exact Or.inr (Or.inl ⟨rfl, by simp [push, hs], by simp [push, hs]⟩)
  | adjusts n =>
    refine Or.inr (Or.inr ⟨rfl, ?_⟩)
    cases hs : e.shifts <;> simp [setLimit, hs]
  | stops s rest hm hs hc => exact Or.inr (Or.inr ⟨rfl, rfl, by simp [hs]⟩)
  | works _ k s s' hk hs hw =>
    exact Or.inr (Or.inr ⟨Turn.opens_of_shift e now a k hk, rfl, by simp [putShift]⟩)
  | hands _ k s s' x desk more hk hn hs hd hh =>
    exact Or.inr (Or.inr ⟨Turn.opens_of_shift e now a k hk, rfl, by simp [putShift]⟩)

theorem mem_halfway (midway : Option (SessionId × List String)) (x : QueueEntry) :
    x ∈ halfway midway ↔ ∃ tests, midway = some (x.session, tests) ∧ x.test ∈ tests := by
  cases midway with
  | none => simp [halfway]
  | some m =>
    obtain ⟨session, tests⟩ := m
    obtain ⟨s, t⟩ := x
    simp only [halfway, entriesOf, List.mem_map, QueueEntry.mk.injEq, Option.some.injEq,
      Prod.mk.injEq]
    constructor
    · rintro ⟨u, hu, hs, rfl⟩
      exact ⟨tests, ⟨hs, rfl⟩, hu⟩
    · rintro ⟨names, ⟨hs, rfl⟩, ht⟩
      exact ⟨t, ht, hs, rfl⟩

/-- What was asked for was pushed, but for the push that is midway. -/
theorem pushed_run {e₀ e : Engine} {l : List Turn} (h : e₀.Run l e) (x : QueueEntry)
    (hx : x ∈ askedIn l) : x ∈ halfway e.midway ∨
      ∃ turn ∈ l, ∃ names, turn.pushes = some (x.session, names) ∧ x.test ∈ names := by
  induction h with
  | start => exact absurd hx List.not_mem_nil
  | step l d now a e' _ ha ih =>
    have hlast : askedIn (l ++ [⟨d, now, a⟩]) = askedIn l ++ Turn.asks ⟨d, now, a⟩ := by
      simp [askedIn]
    rw [hlast, List.mem_append] at hx
    have hearlier (hd : x ∈ askedIn l) : x ∈ halfway d.midway ∨
        ∃ turn ∈ l ++ [⟨d, now, a⟩], ∃ names,
          turn.pushes = some (x.session, names) ∧ x.test ∈ names := by
      refine (ih hd).imp id ?_
      rintro ⟨turn, hl, hpush⟩
      exact ⟨turn, List.mem_append_left _ hl, hpush⟩
    -- Opening puts the tests midway, a push takes them from there, and nothing else does either.
    rcases midway_change now a (change_of_act d now a e' ha) with
      ⟨tests, rfl, hm, hmid, -⟩ | ⟨rfl, -, -⟩ | ⟨hopens, hmid, -⟩
    · rcases hx with hx | hx
      · refine (hearlier hx).imp (fun hd => ?_) id
        rw [hm] at hd
        exact absurd hd List.not_mem_nil
      · rw [hmid]
        exact Or.inl hx
    · rcases hearlier (hx.resolve_right List.not_mem_nil) with hd | hpush
      · obtain ⟨tests, hm, ht⟩ := (mem_halfway d.midway x).mp hd
        exact Or.inr ⟨⟨d, now, .push⟩, by simp, tests, hm, ht⟩
      · exact Or.inr hpush
    · rw [Turn.asks, hopens] at hx
      rw [hmid]
      exact hearlier (hx.resolve_right List.not_mem_nil)

end Retest.Engine
