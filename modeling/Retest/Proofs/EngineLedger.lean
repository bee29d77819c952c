import Retest.Proofs.EngineRuns
import Retest.Proofs.Tally

/-! The books of the engine over a run. For every test asked for there is one entry: it waits, or
its result is on its way, or it is published. For every session the results to come are those that
the feed counts down. -/

namespace Retest
open Std

def Turn.asks (t : Turn) : List QueueEntry :=
  (t.opens.map fun o => entriesOf o.1 (distinctNames o.2)).getD []

theorem Turn.asks_of_shift (e : Engine) (now : Moment) (a : Action) (k : Nat)
    (h : a.shift? = some k) : (⟨e, now, a⟩ : Turn).asks = [] := by
  rw [asks, opens_of_shift e now a k h]
  rfl

/-- What changes when one member of a list is set. -/
theorem weigh_set {α : Type} (f : α → Nat) (l : List α) (k : Nat) (a b : α) (h : l[k]? = some a) :
    weigh f (l.set k b) + f a = weigh f l + f b := by
  induction l generalizing k with
  | nil => simp at h
  | cons c l ih =>
    cases k with
    | zero =>
      have hc : c = a := by simpa using h
      simp only [List.set_cons_zero, weigh_cons, hc]
      omega
    | succ k =>
      have hrest := ih k (by simpa using h)
      simp only [List.set_cons_succ, weigh_cons]
      omega

namespace Queue

variable (q : Queue) (p : Priority) (history : History) (session : SessionId) (tests : List String)

theorem closed_push : (q.push p history session tests).closed = q.closed := by
  rw [push]
  split <;> rfl

/-- A push adds its tests, in the order of their priority. -/
theorem weigh_push (f : QueueEntry → Nat) : weigh f (q.push p history session tests).entries =
    weigh f q.entries + weigh f (entriesOf session tests) := by
  rw [push]
  split
  · next ht =>
    rw [ht]
    rfl
  · have hperm := (p.sort_perm history tests).map fun test => (⟨session, test⟩ : QueueEntry)
    change weigh f (q.entries ++ entriesOf session (p.sort history tests)) = _
    rw [weigh_append, entriesOf, weigh_perm f _ _ hperm]
    rfl

theorem mem_push (x : QueueEntry) (hx : x ∈ (q.push p history session tests).entries) :
    x ∈ q.entries ∨ x ∈ entriesOf session tests := by
  have hpush := q.weigh_push p history session tests fun y => if y = x then 1 else 0
  have hpos := List.count_pos_iff.mpr hx
  simp only [weigh_eq_count] at hpush
  rw [← List.mem_append, ← List.count_pos_iff, List.count_append]
  omega

end Queue

section Names

theorem distinctNames_fold (l acc : List String) (h : acc.Nodup) :
    (l.foldl (fun acc n => if acc.contains n then acc else n :: acc) acc).Nodup ∧
      ∀ t, t ∈ l.foldl (fun acc n => if acc.contains n then acc else n :: acc) acc ↔
        t ∈ acc ∨ t ∈ l := by
  induction l generalizing acc with
  | nil => exact ⟨h, by simp⟩
  | cons n l ih =>
    rw [List.foldl_cons]
    by_cases hn : n ∈ acc
    · have hc : acc.contains n = true := by simpa using hn
      obtain ⟨hnodup, hmem⟩ := ih acc h
      rw [if_pos hc]
      refine ⟨hnodup, fun t => ?_⟩
      rw [hmem, List.mem_cons]
      constructor
      · rintro (ht | ht)
        · exact Or.inl ht
        · exact Or.inr (Or.inr ht)
      · rintro (ht | rfl | ht)
        · exact Or.inl ht
        · exact Or.inl hn
        · exact Or.inr ht
    · have hc : ¬acc.contains n = true := by simpa using hn
      obtain ⟨hnodup, hmem⟩ := ih (n :: acc) (List.nodup_cons.mpr ⟨hn, h⟩)
      rw [if_neg hc]
      refine ⟨hnodup, fun t => ?_⟩
      rw [hmem, List.mem_cons, List.mem_cons, or_left_comm, or_assoc]

theorem nodup_distinctNames (l : List String) : (distinctNames l).Nodup :=
  List.nodup_reverse.mpr (distinctNames_fold l [] List.nodup_nil).1

theorem mem_distinctNames (l : List String) (t : String) : t ∈ distinctNames l ↔ t ∈ l := by
  rw [distinctNames, List.mem_reverse, (distinctNames_fold l [] List.nodup_nil).2]
  simp

theorem distinctNames_eq_nil (l : List String) : distinctNames l = [] ↔ l = [] := by
  simp only [List.eq_nil_iff_forall_not_mem, mem_distinctNames]

end Names

namespace Engine

def halfway : Option (SessionId × List String) → List QueueEntry
  | none => []
  | some (session, tests) => entriesOf session tests

def pending (e : Engine) : List QueueEntry := halfway e.midway ++ e.shifts.flatMap Shift.pending

def outstanding (e : Engine) : List Errand := e.shifts.flatMap Shift.outstanding

structure Books (e : Engine) (asked : List QueueEntry) : Prop where
  sound : ∀ s ∈ e.shifts, s.Sound
  midway : ∀ session tests, e.midway = some (session, tests) →
    session = e.desk.feed.opened ∧ ∃ s rest, e.shifts = s :: rest ∧ s.cancelled = false
  nodup : asked.Nodup
  opened : ∀ x ∈ asked, x.session ≤ e.desk.feed.opened
  results : ∀ x, e.pending.count x + weigh (publishes (Event.tells x)) e.outstanding +
    e.desk.feed.resultCount x = asked.count x
  remaining : ∀ s, weigh (fun x : QueueEntry => if x.session = s then 1 else 0) e.pending +
    weigh (counts s) e.outstanding = e.desk.feed.remaining s
  positive : ∀ s o, e.desk.feed.sessions.find? s = some o → 1 ≤ o.remaining
  complete : ∀ s, weigh (publishes (Event.completes s)) e.outstanding +
    e.desk.feed.completeCount s + (e.desk.feed.sessions.contains s).toNat =
      (decide (1 ≤ s ∧ s ≤ e.desk.feed.opened)).toNat

variable {e : Engine} {asked : List QueueEntry}

theorem pending_putShift (e : Engine) (k : Nat) (s s' : Shift) (h : e.shift? k = some s)
    (f : QueueEntry → Nat) :
    weigh f (e.putShift k s').pending + weigh f s.pending =
      weigh f e.pending + weigh f s'.pending := by
  have hset := weigh_set (fun s => weigh f s.pending) e.shifts k s s' h
  simp only [pending, putShift, weigh_append, weigh_flatMap]
  omega

theorem outstanding_putShift (e : Engine) (k : Nat) (s s' : Shift) (h : e.shift? k = some s)
    (g : Errand → Nat) : weigh g (e.putShift k s').outstanding + weigh g s.outstanding =
      weigh g e.outstanding + weigh g s'.outstanding := by
  have hset := weigh_set (fun s => weigh g s.outstanding) e.shifts k s s' h
  simp only [outstanding, putShift, weigh_flatMap]
  omega

theorem mem_of_shift (e : Engine) (k : Nat) (s : Shift) (h : e.shift? k = some s) : s ∈ e.shifts :=
  List.mem_of_getElem? h

theorem mem_pending_of_shift {s : Shift} {x : QueueEntry} (hs : s ∈ e.shifts)
    (hx : x ∈ s.pending) : x ∈ e.pending :=
  List.mem_append_right _ (List.mem_flatMap.mpr ⟨s, hs, hx⟩)

/-- What waits was asked for. -/
theorem Books.asked_of_pending (h : e.Books asked) {x : QueueEntry} (hx : x ∈ e.pending) :
    x ∈ asked := by
  have hresults := h.results x
  have hpos := List.count_pos_iff.mpr hx
  exact List.count_pos_iff.mp (by omega)

/-- No test waits twice. -/
theorem Books.nodup_pending (h : e.Books asked) : e.pending.Nodup := by
  rw [List.nodup_iff_count_le_one]
  intro x
  have hx := h.results x
  have hone := List.nodup_iff_count_le_one.mp h.nodup x
  omega

theorem Books.nodup_shift (h : e.Books asked) (s : Shift) (hs : s ∈ e.shifts) :
    s.pending.Nodup := by
  have hall : (e.shifts.flatMap Shift.pending).Nodup := (List.nodup_append.mp h.nodup_pending).2.1
  exact (List.nodup_flatMap.mp hall).1 s hs

/-- Setting a shift keeps the order of the others, and the head where it is. -/
theorem sound_putShift (h : ∀ s ∈ e.shifts, s.Sound) (k : Nat) (s' : Shift) (hs : s'.Sound) :
    ∀ s ∈ (e.putShift k s').shifts, s.Sound := by
  intro s hm
  rcases List.mem_or_eq_of_mem_set hm with hm | rfl
  · exact h s hm
  · exact hs

theorem head_putShift (e : Engine) (k : Nat) (s s' : Shift) (hk : e.shift? k = some s)
    (hc : s'.cancelled = s.cancelled)
    (h : ∃ s rest, e.shifts = s :: rest ∧ s.cancelled = false) :
    ∃ s rest, (e.putShift k s').shifts = s :: rest ∧ s.cancelled = false := by
  obtain ⟨s₀, rest, hs, hc₀⟩ := h
  rw [shift?, hs] at hk
  cases k with
  | zero =>
    have hss : s₀ = s := by simpa using hk
    exact ⟨s', rest, by simp [putShift, hs], by rw [hc, ← hss, hc₀]⟩
  | succ k => exact ⟨s₀, rest.set k s', by simp [putShift, hs], hc₀⟩

end Engine

namespace Shift

/-- Only the engine calls a shift off. -/
theorem cancelled_works {settings : EngineSettings} {now : Moment} {hired : Option WorkerId}
    {s s' : Shift} (hw : s.Works settings now hired s') : s'.cancelled = s.cancelled := by
  cases hw with
  | fetch he hp =>
    have hf := s.fetches_fetch settings.batchSize
    generalize s.fetch settings.batchSize = t at hf ⊢
    cases hf <;> rfl
  | allow session tests asked he hp =>
    have ha := s.allows_allow now session tests asked
    generalize s.allow now session tests asked = t at ha ⊢
    cases ha <;> rfl
  | conclude d w result hd he hs => cases result <;> rfl
  | parts c _ hc hparts =>
    obtain ⟨p, l, rfl, -⟩ := hparts.exists_eq
    rfl
  | _ => rfl

theorem mem_outstanding_of_hands {x : Errand} {more : List Errand} {s s' : Shift}
    (hh : s.Hands x more s') : x ∈ s.outstanding := by
  cases hh with
  | loop _ rest _ he =>
    refine List.mem_append_left _ ?_
    rw [he]
    exact List.mem_cons_self
  | dispatch d _ rest _ hd he =>
    refine List.mem_append_right _ (List.mem_flatMap.mpr ⟨d, hd, ?_⟩)
    rw [he]
    exact List.mem_cons_self

theorem cancelled_hands {x : Errand} {more : List Errand} {s s' : Shift} (hh : s.Hands x more s') :
    s'.cancelled = s.cancelled := by
  cases hh <;> rfl

end Shift

namespace Engine

variable {e : Engine} {asked : List QueueEntry}

/-- A shift at work by itself keeps the books in order. -/
theorem books_works (h : e.Books asked) {now : Moment} {hired : Option WorkerId} (k : Nat)
    (s s' : Shift) (hk : e.shift? k = some s) (hw : s.Works e.settings now hired s') :
    (e.putShift k s').Books asked := by
  have hmem := mem_of_shift e k s hk
  have hsound := h.sound s hmem
  -- Each test that ends stops waiting and has one result and one count on their way.
  obtain ⟨ended, hends, -⟩ := Shift.ends_works hsound (h.nodup_shift s hmem) hw
  have hpending := pending_putShift e k s s' hk
  have houtstanding := outstanding_putShift e k s s' hk
  refine ⟨sound_putShift h.sound k s' (Shift.sound_works hsound hw), ?_, h.nodup, h.opened, ?_, ?_,
    h.positive, ?_⟩
  · intro session tests hm
    obtain ⟨hs, hhead⟩ := h.midway session tests hm
    exact ⟨hs, head_putShift e k s s' hk (Shift.cancelled_works hw) hhead⟩
  · intro x
    have hp := hpending fun y => if y = x then 1 else 0
    have ho := houtstanding (publishes (Event.tells x))
    have hx := h.results x
    rw [hends.pending, weigh_eq_count, weigh_eq_count, weigh_eq_count] at hp
    rw [hends.outstanding _ (silent_tells x),
      weigh_congr _ _ ended fun r _ => resultWeight_tells x r] at ho
    change _ + _ + e.desk.feed.resultCount x = _
    omega
  · intro t
    have hp := hpending fun x => if x.session = t then 1 else 0
    have ho := houtstanding (counts t)
    have ht := h.remaining t
    rw [hends.pending] at hp
    rw [hends.outstanding _ (silent_counts t),
      weigh_congr _ _ ended fun r _ => resultWeight_counts t r] at ho
    change _ + _ = e.desk.feed.remaining t
    omega
  · intro t
    have ho := houtstanding (publishes (Event.completes t))
    have ht := h.complete t
    rw [hends.outstanding _ (silent_completes t),
      weigh_eq_zero _ ended fun r _ => resultWeight_completes t r] at ho
    change _ + e.desk.feed.completeCount t + (e.desk.feed.sessions.contains t).toNat =
      (decide (1 ≤ t ∧ t ≤ e.desk.feed.opened)).toNat
    omega

/-- One errand done by the desk keeps the books in order. -/
theorem books_hands (h : e.Books asked) (now : Moment) (k : Nat) (s s' : Shift) (x : Errand)
    (desk : Desk) (more : List Errand) (hk : e.shift? k = some s)
    (hd : e.desk.deliver now x = (desk, more)) (hh : s.Hands x more s') :
    ({ e with desk }.putShift k s').Books asked := by
  have hmem := mem_of_shift e k s hk
  have hsound := h.sound s hmem
  have hpending := pending_putShift { e with desk } k s s' hk
  have houtstanding := outstanding_putShift { e with desk } k s s' hk
  obtain ⟨hpend, hout⟩ := Shift.weigh_hands hsound hh
  -- The errand was on the books, so a result that it counts is one that its session waits for.
  have hx : x ∈ e.outstanding := List.mem_flatMap.mpr ⟨s, hmem, Shift.mem_outstanding_of_hands hh⟩
  have hexpected (t : SessionId) : counts t x ≤ e.desk.feed.remaining t := by
    have ht := h.remaining t
    have hle := le_weigh (counts t) e.outstanding x hx
    omega
  have hdoes : e.desk.Does x desk more := by
    simpa only [hd] using e.desk.does_deliver now x h.positive hexpected
  refine ⟨sound_putShift (e := { e with desk }) h.sound k s' (Shift.sound_hands hsound hh), ?_,
    h.nodup, ?_, ?_, ?_, hdoes.positive, ?_⟩
  · intro session tests hm
    obtain ⟨hs, hhead⟩ := h.midway session tests hm
    exact ⟨hs.trans hdoes.opened.symm,
      head_putShift { e with desk } k s s' hk (Shift.cancelled_hands hh) hhead⟩
  · intro y hy
    exact Nat.le_trans (h.opened y hy) (Nat.le_of_eq hdoes.opened.symm)
  · intro y
    have hp := hpending fun z => if z = y then 1 else 0
    have ho := houtstanding (publishes (Event.tells y))
    have hy := h.results y
    have hx := hout (publishes (Event.tells y))
    have hf := hdoes.results y
    have hnone : weigh (publishes (Event.tells y)) more = 0 := by
      rcases hdoes.leaves with hl | ⟨t, summary, hl⟩ <;> rw [hl] <;> rfl
    rw [hpend, weigh_eq_count, weigh_eq_count, weigh_eq_count] at hp
    change _ + _ + desk.feed.resultCount y = _
    change _ = weigh _ e.outstanding + _ at ho
    change _ = e.pending.count y + _ at hp
    omega
  · intro t
    have hp := hpending fun x => if x.session = t then 1 else 0
    have ho := houtstanding (counts t)
    have ht := h.remaining t
    have hx := hout (counts t)
    have hf := hdoes.remaining t
    have hnone : weigh (counts t) more = 0 := by
      rcases hdoes.leaves with hl | ⟨t, summary, hl⟩ <;> rw [hl] <;> rfl
    rw [hpend] at hp
    change _ + _ = desk.feed.remaining t
    change _ = weigh _ e.outstanding + _ at ho
    change _ = weigh _ e.pending + _ at hp
    omega
  · intro t
    have ho := houtstanding (publishes (Event.completes t))
    have ht := h.complete t
    have hx := hout (publishes (Event.completes t))
    have hf := hdoes.complete t
    have hopened : desk.feed.opened = e.desk.feed.opened := hdoes.opened
    change _ + desk.feed.completeCount t + (desk.feed.sessions.contains t).toNat =
      (decide (1 ≤ t ∧ t ≤ desk.feed.opened)).toNat
    rw [hopened]
    change _ = weigh _ e.outstanding + _ at ho
    omega

/-- There is a shift on that nobody has called off: the one before, or a fresh one. -/
theorem ensureShift_cases (e : Engine) :
    (∃ s rest, e.shifts = s :: rest ∧ s.cancelled = false ∧ e.ensureShift = e) ∨
      e.ensureShift = { e with shifts := .ofPermits (.ofLimit e.permits.limit) :: e.shifts } := by
  cases hs : e.shifts with
  | nil => exact Or.inr (by simp [ensureShift, isStarted, hs])
  | cons s rest =>
    cases hc : s.cancelled with
    | false => exact Or.inl ⟨s, rest, rfl, hc, by simp [ensureShift, isStarted, hs, hc]⟩
    | true => exact Or.inr (by simp [ensureShift, isStarted, hs, hc])

theorem shifts_ensureShift (e : Engine) (h : ∀ s ∈ e.shifts, s.Sound) :
    (∃ s rest, e.ensureShift.shifts = s :: rest ∧ s.cancelled = false) ∧
      (∀ s ∈ e.ensureShift.shifts, s.Sound) ∧
      e.ensureShift.shifts.flatMap Shift.pending = e.shifts.flatMap Shift.pending ∧
      e.ensureShift.outstanding = e.outstanding ∧ e.ensureShift.desk = e.desk := by
  rcases e.ensureShift_cases with ⟨s, rest, hs, hc, he⟩ | he
  · rw [he]
    exact ⟨⟨s, rest, hs, hc⟩, h, rfl, rfl, rfl⟩
  · rw [he]
    refine ⟨⟨_, _, rfl, rfl⟩, ?_, rfl, rfl, rfl⟩
    intro s hs
    rcases List.mem_cons.mp hs with rfl | hs
    · exact Shift.sound_ofPermits _ rfl
    · exact h s hs

/-- A session that was not opened yet has nothing on the books. -/
theorem Books.fresh (h : e.Books asked) :
    e.desk.feed.sessions.find? (e.desk.feed.opened + 1) = none := by
  have hc := h.complete (e.desk.feed.opened + 1)
  have hno : decide (1 ≤ e.desk.feed.opened + 1 ∧ e.desk.feed.opened + 1 ≤ e.desk.feed.opened) =
      false := by simp
  rw [hno, SortedMap.contains] at hc
  cases hf : e.desk.feed.sessions.find? (e.desk.feed.opened + 1) with
  | none => rfl
  | some o => simp [hf] at hc

/-- Of the tests of one session, all are of that session and none of another. -/
theorem weigh_session_entriesOf (session s : SessionId) (tests : List String) :
    weigh (fun x : QueueEntry => if x.session = s then 1 else 0) (entriesOf session tests) =
      if s = session then tests.length else 0 := by
  rw [weigh_entriesOf]
  by_cases hs : s = session
  · simp [hs, weigh_const]
  · simp [hs, Ne.symm hs, weigh_const]

/-- A session that is opened comes on the books with its tests. -/
theorem books_opens (h : e.Books asked) (now : Moment) (tests : List String)
    (hm : e.midway = none) (ht : tests ≠ []) (hn : tests.Nodup) :
    (e.openSession now tests).Books
      (asked ++ entriesOf (e.desk.feed.opened + 1) tests) := by
  obtain ⟨hhead, hsound, hpending, houtstanding, hdesk⟩ := e.shifts_ensureShift h.sound
  have hsame : (e.openSession now tests).pending =
      entriesOf (e.desk.feed.opened + 1) tests ++ e.pending := by
    have hold : e.pending = e.shifts.flatMap Shift.pending := by simp [pending, halfway, hm]
    rw [hold, ← hpending, ← hdesk]
    rfl
  have hfeed : (e.openSession now tests).desk.feed =
      (e.desk.feed.openSession tests.length now).1 := by
    rw [← hdesk]
    rfl
  have hout : (e.openSession now tests).outstanding = e.outstanding := houtstanding
  refine ⟨hsound, ?_, ?_, ?_, ?_, ?_, ?_, ?_⟩
  · intro session names hmid
    cases hmid
    exact ⟨rfl, hhead⟩
  · rw [List.nodup_append]
    refine ⟨h.nodup, hn.map fun a b hab => (QueueEntry.mk.inj hab).2, ?_⟩
    rintro a ha b hb rfl
    obtain ⟨t, -, rfl⟩ := List.mem_map.mp hb
    have hle : e.desk.feed.opened + 1 ≤ e.desk.feed.opened := h.opened _ ha
    omega
  · intro x hx
    rw [hfeed]
    rcases List.mem_append.mp hx with hx | hx
    · exact Nat.le_succ_of_le (h.opened x hx)
    · obtain ⟨t, -, rfl⟩ := List.mem_map.mp hx
      exact Nat.le_refl _
  · intro x
    have hx := h.results x
    rw [hsame, hout, hfeed, List.count_append, List.count_append]
    change _ + e.desk.feed.resultCount x = _
    omega
  · intro s
    have hs := h.remaining s
    rw [hsame, hout, hfeed, weigh_append, weigh_session_entriesOf,
      Feed.remaining_openSession _ _ _ _ h.fresh]
    omega
  · intro s o ho
    rw [hfeed, Feed.openSession, Feed.find_insert_session] at ho
    split at ho
    · rw [← Option.some.inj ho]
      exact List.length_pos_iff.mpr ht
    · exact h.positive s o ho
  · intro (s : Nat)
    have hs := h.complete s
    rw [hout, hfeed, Feed.contains_openSession]
    change _ + e.desk.feed.completeCount s + _ =
      (decide (1 ≤ s ∧ s ≤ e.desk.feed.opened + 1)).toNat
    by_cases hse : s = e.desk.feed.opened + 1
    · have hold : ¬(1 ≤ s ∧ s ≤ e.desk.feed.opened) := by omega
      have hnew : 1 ≤ s ∧ s ≤ e.desk.feed.opened + 1 := by omega
      rw [decide_eq_false hold, Bool.toNat_false] at hs
      rw [decide_eq_true hnew, decide_eq_true hse, Bool.true_or, Bool.toNat_true]
      omega
    · have hrange : (1 ≤ s ∧ s ≤ e.desk.feed.opened + 1) ↔ 1 ≤ s ∧ s ≤ e.desk.feed.opened := by
        omega
      rw [decide_eq_false hse, Bool.false_or, decide_eq_decide.mpr hrange]
      exact hs

/-- The latest shift changes, and nothing on the books with it. -/
theorem books_head (h : e.Books asked) (s s' : Shift) (rest : List Shift)
    (hs : e.shifts = s :: rest) (midway : Option (SessionId × List String)) (hsound : s'.Sound)
    (hmid : ∀ session tests, midway = some (session, tests) →
      session = e.desk.feed.opened ∧ s'.cancelled = false)
    (hp : ∀ f, weigh f (halfway midway) + weigh f s'.pending =
      weigh f (halfway e.midway) + weigh f s.pending)
    (ho : s'.outstanding = s.outstanding) :
    ({ e with shifts := s' :: rest, midway } : Engine).Books asked := by
  have hpending (f : QueueEntry → Nat) :
      weigh f ({ e with shifts := s' :: rest, midway } : Engine).pending = weigh f e.pending := by
    have hf := hp f
    simp only [pending, hs, weigh_append, List.flatMap_cons]
    omega
  have houtstanding : ({ e with shifts := s' :: rest, midway } : Engine).outstanding =
      e.outstanding := by
    simp only [outstanding, hs, List.flatMap_cons, ho]
  refine ⟨?_, ?_, h.nodup, h.opened, ?_, ?_, h.positive, ?_⟩
  · intro t ht
    rcases List.mem_cons.mp ht with rfl | ht
    · exact hsound
    · exact h.sound t (by rw [hs]; exact List.mem_cons_of_mem s ht)
  · intro session tests hm
    obtain ⟨hsession, hc⟩ := hmid session tests hm
    exact ⟨hsession, s', rest, rfl, hc⟩
  · intro x
    rw [← weigh_eq_count, hpending, houtstanding, weigh_eq_count]
    exact h.results x
  · intro t
    rw [hpending, houtstanding]
    exact h.remaining t
  · intro t
    rw [houtstanding]
    exact h.complete t

theorem books_pushes (h : e.Books asked) (session : SessionId) (tests : List String)
    (hm : e.midway = some (session, tests)) : (e.push session tests).Books asked := by
  obtain ⟨-, s, rest, hs, hc⟩ := h.midway session tests hm
  have hsound := h.sound s (by rw [hs]; exact List.mem_cons_self)
  -- The shift was not called off, so its loop has not swept the queue yet.
  have hlate : s.phase.isLate ≠ true := fun hl => by simp [hsound.late hl] at hc
  have hunswept : s.phase.isSwept ≠ true := fun hw => hlate (s.phase.isLate_of_isSwept hw)
  have hpush := s.queue.weigh_push e.settings.priority e.desk.history session tests
  have hclosed := s.queue.closed_push e.settings.priority e.desk.history session tests
  have hput : e.push session tests = { e with
      shifts := { s with
        queue := s.queue.push e.settings.priority e.desk.history session tests } :: rest
      midway := none } := by
    simp only [push, hs]
  rw [hput]
  refine books_head h s _ rest hs none ?_ (by simp) ?_ rfl
  · refine ⟨hsound.numbers, hsound.started, hsound.unheard, hsound.settled, ?_, ?_, hsound.late,
      fun hw => absurd hw hunswept, hsound.ended, hsound.apart, hsound.arrived⟩
    · intro hq
      exact hsound.calledOff (hclosed ▸ hq)
    · intro hp
      exact hclosed.symm ▸ hsound.sentAway hp
  · intro f
    simp only [hm, halfway, Shift.pending, weigh_append, hpush, weigh_nil]
    omega

/-- A new limit changes nothing on the books. -/
theorem books_adjusts (h : e.Books asked) (n : Nat) : (e.setLimit n).Books asked := by
  cases hs : e.shifts with
  | nil =>
    have hput : e.setLimit n = { e with idle := e.idle.setLimit n } := by simp only [setLimit, hs]
    rw [hput]
    exact ⟨h.sound, h.midway, h.nodup, h.opened, h.results, h.remaining, h.positive, h.complete⟩
  | cons s rest =>
    have hput : e.setLimit n = { e with
        shifts := { s with permits := s.permits.setLimit n } :: rest, midway := e.midway } := by
      simp only [setLimit, hs]
    have hsound := h.sound s (by rw [hs]; exact List.mem_cons_self)
    rw [hput]
    refine books_head h s _ rest hs e.midway
      (Shift.sound_permits hsound _ (s.permits.closed_setLimit n)) ?_ (fun _ => rfl) rfl
    intro session tests hm
    obtain ⟨hsession, s₀, rest₀, hs₀, hc⟩ := h.midway session tests hm
    rw [hs] at hs₀
    cases hs₀
    exact ⟨hsession, hc⟩

theorem books_stops (h : e.Books asked) (s : Shift) (rest : List Shift) (hm : e.midway = none)
    (hs : e.shifts = s :: rest) :
    ({ e with shifts := { s with cancelled := true } :: rest } : Engine).Books asked := by
  have hsound := h.sound s (by rw [hs]; exact List.mem_cons_self)
  refine books_head h s { s with cancelled := true } rest hs e.midway ?_ (by simp [hm])
    (fun _ => rfl) rfl
  exact ⟨hsound.numbers, hsound.started, hsound.unheard, hsound.settled, fun _ => rfl,
    hsound.sentAway, fun _ => rfl, hsound.swept, hsound.ended, hsound.apart, hsound.arrived⟩

/-- What an action asks for is put on the books with it. -/
theorem books_change (h : e.Books asked) (now : Moment) (a : Action) (e' : Engine)
    (hc : e.Change now a e') : e'.Books (asked ++ Turn.asks ⟨e, now, a⟩) := by
  cases hc with
  | opens tests hm ht hr =>
    exact books_opens h now (distinctNames tests) hm ht (nodup_distinctNames tests)
  | pushes session tests hm =>
    have hsame := books_pushes h session tests hm
    rwa [← List.append_nil asked] at hsame
  | adjusts n =>
    have hsame := books_adjusts h n
    rwa [← List.append_nil asked] at hsame
  | stops s rest hm hs hc =>
    have hsame := books_stops h s rest hm hs
    rwa [← List.append_nil asked] at hsame
  | works _ k s s' ha hs hw =>
    rw [Turn.asks_of_shift e now a k ha, List.append_nil]
    exact books_works h k s s' hs hw
  | hands _ k s s' x desk more ha hn hs hd hh =>
    rw [Turn.asks_of_shift e now a k ha, List.append_nil]
    exact books_hands h now k s s' x desk more hs hd hh

/-- A session of which nothing is pending and nothing is on its way has all its results. -/
theorem Books.settled (h : e.Books asked) (session : SessionId)
    (hp : ∀ x ∈ e.pending, x.session ≠ session)
    (ho : ∀ y ∈ e.outstanding, y.owner? ≠ some session) :
    (∀ t, e.desk.feed.resultCount ⟨session, t⟩ = asked.count ⟨session, t⟩) ∧
      e.desk.feed.sessions.find? session = none ∧
      (1 ≤ session → session ≤ e.desk.feed.opened → e.desk.feed.completeCount session = 1) := by
  have hclosed : e.desk.feed.sessions.find? session = none := by
    have hs := h.remaining session
    rw [weigh_eq_zero _ e.pending fun x hx => if_neg (hp x hx),
      weigh_eq_zero _ e.outstanding fun y hy => counts_of_owner session y (ho y hy)] at hs
    cases hf : e.desk.feed.sessions.find? session with
    | none => rfl
    | some o =>
      -- An open session waits for a result, but nothing of it is left to come.
      have hpos := h.positive session o hf
      simp only [Feed.remaining, hf, Option.map_some, Option.getD_some] at hs
      omega
  refine ⟨?_, hclosed, ?_⟩
  · intro t
    have hx := h.results ⟨session, t⟩
    have hnone : e.pending.count ⟨session, t⟩ = 0 := by
      rw [List.count_eq_zero]
      exact fun hx => hp _ hx rfl
    rw [weigh_eq_zero _ e.outstanding fun y hy => publishes_tells_of_owner _ y (ho y hy)] at hx
    omega
  · intro h1 h2
    have hs := h.complete session
    rw [weigh_eq_zero _ e.outstanding fun y hy => publishes_completes_of_owner _ y (ho y hy),
      SortedMap.contains, hclosed, decide_eq_true ⟨h1, h2⟩] at hs
    simpa using hs

theorem books_fresh (settings : EngineSettings) (limit capacity : Nat) (history : History) :
    (fresh settings limit capacity history).Books [] where
  sound := by simp [fresh, ofSettings]
  midway := by simp [fresh, ofSettings]
  nodup := List.nodup_nil
  opened := by simp
  results x := rfl
  remaining s := rfl
  positive s o ho := by cases ho
  complete := by
    intro (s : Nat)
    have hno : ¬(1 ≤ s ∧ s ≤ 0) := by omega
    exact (congrArg Bool.toNat (decide_eq_false hno)).symm

def askedIn (l : List Turn) : List QueueEntry := l.flatMap Turn.asks

/-- The books are in order at every moment of every run. -/
theorem books_run {settings : EngineSettings} {limit capacity : Nat} {history : History}
    {l : List Turn} (h : (fresh settings limit capacity history).Run l e) :
    e.Books (askedIn l) := by
  induction h with
  | start => exact books_fresh settings limit capacity history
  | step l d now a e' _ ha ih =>
    have hnext := books_change ih now a e' (change_of_act d now a e' ha)
    rwa [askedIn, List.flatMap_append, List.flatMap_cons, List.flatMap_nil, List.append_nil]

theorem mem_askedIn (l : List Turn) (turn : Turn) (session : SessionId) (names : List String)
    (t : String) (hl : turn ∈ l) (ho : turn.opens = some (session, names)) (ht : t ∈ names) :
    (⟨session, t⟩ : QueueEntry) ∈ askedIn l := by
  refine List.mem_flatMap.mpr ⟨turn, hl, ?_⟩
  rw [Turn.asks, ho]
  exact List.mem_map.mpr ⟨t, (mem_distinctNames names t).mpr ht, rfl⟩

/-- Each name that was given to a session stands on the books once. -/
theorem Books.count_asked {l : List Turn} (h : e.Books (askedIn l)) (turn : Turn)
    (session : SessionId) (names : List String) (t : String) (hl : turn ∈ l)
    (ho : turn.opens = some (session, names)) (ht : t ∈ names) :
    (askedIn l).count ⟨session, t⟩ = 1 :=
  Nat.le_antisymm (List.nodup_iff_count_le_one.mp h.nodup _)
    (List.count_pos_iff.mpr (mem_askedIn l turn session names t hl ho ht))

theorem of_mem_askedIn (l : List Turn) (x : QueueEntry) (h : x ∈ askedIn l) :
    ∃ turn ∈ l, ∃ names, turn.opens = some (x.session, names) ∧ x.test ∈ names := by
  obtain ⟨turn, hl, hx⟩ := List.mem_flatMap.mp h
  rw [Turn.asks] at hx
  cases ho : turn.opens with
  | none => simp [ho] at hx
  | some o =>
    obtain ⟨session, names⟩ := o
    simp only [ho, Option.map_some, Option.getD_some] at hx
    obtain ⟨t, ht, rfl⟩ := List.mem_map.mp hx
    exact ⟨turn, hl, names, ho, (mem_distinctNames names t).mp ht⟩

end Engine

end Retest
