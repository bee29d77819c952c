import Retest.Proofs.ShiftLedger

/-! What the desk counts: how often a result and the end of a session were published, and how many
results each session still waits for. Every errand moves these counts in one way. -/

namespace Retest
open Std

def Event.tells (x : QueueEntry) : Event → Bool
  | .finished r => r.entry = x
  | .started .. | .complete .. | .diagnostic .. => false

def Event.completes (s : SessionId) : Event → Bool
  | .complete s' _ => s' = s
  | .started .. | .finished _ | .diagnostic .. => false

namespace Feed

def resultCount (f : Feed) (x : QueueEntry) : Nat := f.published.toList.countP (Event.tells x)

def completeCount (f : Feed) (s : SessionId) : Nat := f.published.toList.countP (Event.completes s)

def remaining (f : Feed) (s : SessionId) : Nat := ((f.sessions.find? s).map (·.remaining)).getD 0

theorem countP_publish (f : Feed) (e : Event) (p : Event → Bool) :
    (f.publish e).published.toList.countP p = f.published.toList.countP p + (p e).toNat := by
  rw [publish, Array.toList_push, countP_concat]

theorem find_insert_session (m : SortedMap SessionId OpenSession) (s t : SessionId)
    (o : OpenSession) : (m.insert s o).find? t = if t = s then some o else m.find? t := by
  simp only [SortedMap.find_insert, LawfulEqOrd.compare_eq_iff_eq]

theorem find_erase_session (m : SortedMap SessionId OpenSession) (s t : SessionId) :
    (m.erase s).find? t = if t = s then none else m.find? t := by
  simp only [SortedMap.find_erase, LawfulEqOrd.compare_eq_iff_eq]

/-- A session that is opened adds what it waits for. -/
theorem remaining_openSession (f : Feed) (count : Nat) (now : Moment) (s : SessionId)
    (h : f.sessions.find? (f.opened + 1) = none) : (f.openSession count now).1.remaining s =
      f.remaining s + if s = f.opened + 1 then count else 0 := by
  rw [remaining, openSession, find_insert_session]
  by_cases hs : s = f.opened + 1
  · simp [remaining, hs, h]
  · simp [remaining, hs]

theorem contains_openSession (f : Feed) (count : Nat) (now : Moment) (s : SessionId) :
    (f.openSession count now).1.sessions.contains s =
      (decide (s = f.opened + 1) || f.sessions.contains s) := by
  rw [openSession, SortedMap.contains, find_insert_session]
  by_cases hs : s = f.opened + 1
  · simp [hs]
  · simp [hs, SortedMap.contains]

end Feed

def publishes (p : Event → Bool) : Errand → Nat
  | .publish e => (p e).toNat
  | .note _ | .count .. => 0

def counts (s : SessionId) : Errand → Nat
  | .count s' _ => if s' = s then 1 else 0
  | .note _ | .publish _ => 0

def Errand.owner? : Errand → Option SessionId
  | .note r | .publish (.finished r) => some r.session
  | .publish (.complete s _) | .count s _ => some s
  | .publish (.started ..) | .publish (.diagnostic ..) => none

theorem publishes_tells_of_owner (x : QueueEntry) (y : Errand) (h : y.owner? ≠ some x.session) :
    publishes (Event.tells x) y = 0 := by
  cases y with
  | publish e =>
    cases e with
    | finished r =>
      have hr : r.entry ≠ x := fun hx => h (by rw [← hx]; rfl)
      simp [publishes, Event.tells, hr]
    | _ => rfl
  | _ => rfl

theorem publishes_completes_of_owner (s : SessionId) (y : Errand) (h : y.owner? ≠ some s) :
    publishes (Event.completes s) y = 0 := by
  cases y with
  | publish e =>
    cases e with
    | complete t summary =>
      have ht : t ≠ s := fun hs => h (by rw [← hs]; rfl)
      simp [publishes, Event.completes, ht]
    | _ => rfl
  | _ => rfl

theorem counts_of_owner (s : SessionId) (y : Errand) (h : y.owner? ≠ some s) : counts s y = 0 := by
  cases y with
  | count t o =>
    have ht : t ≠ s := fun hs => h (by rw [← hs]; rfl)
    simp [counts, ht]
  | _ => rfl

theorem silent_tells (x : QueueEntry) : Silent (publishes (Event.tells x)) :=
  ⟨fun _ _ => rfl, fun _ _ => rfl⟩

theorem silent_completes (s : SessionId) : Silent (publishes (Event.completes s)) :=
  ⟨fun _ _ => rfl, fun _ _ => rfl⟩

theorem silent_counts (s : SessionId) : Silent (counts s) := ⟨fun _ _ => rfl, fun _ _ => rfl⟩

theorem resultWeight_tells (x : QueueEntry) (r : TestResult) :
    resultWeight (publishes (Event.tells x)) r = if r.entry = x then 1 else 0 := by
  by_cases h : r.entry = x <;> simp [resultWeight, publishes, Event.tells, h]

theorem resultWeight_completes (s : SessionId) (r : TestResult) :
    resultWeight (publishes (Event.completes s)) r = 0 := rfl

theorem resultWeight_counts (s : SessionId) (r : TestResult) :
    resultWeight (counts s) r = if r.entry.session = s then 1 else 0 := by
  by_cases h : r.session = s <;> simp [resultWeight, counts, TestResult.entry, h]

/-- What an errand does to the desk, and what it leaves. A result of a session that is not open is
passed over; the last one of an open session closes it. -/
inductive Desk.Delivers (k : Desk) (now : Moment) : Errand → Desk → List Errand → Prop
  | notes (r : TestResult) (h : History) : Delivers k now (.note r) { k with history := h } []
  | shows (e : Event) : Delivers k now (.publish e) { k with feed := k.feed.publish e } []
  | passes (s : SessionId) (o : Outcome) (h : k.feed.sessions.find? s = none) :
    Delivers k now (.count s o) k []
  | ends (s : SessionId) (o : Outcome) (u : OpenSession) (h : k.feed.sessions.find? s = some u)
    (hr : u.remaining ≤ 1) : Delivers k now (.count s o)
      { k with feed := { k.feed with sessions := k.feed.sessions.erase s } }
      [.publish (.complete s { u.summary.record o with finishedAt := some now })]
  | counts (s : SessionId) (o : Outcome) (u : OpenSession) (h : k.feed.sessions.find? s = some u)
    (hr : 1 < u.remaining) : Delivers k now (.count s o)
      { k with feed := { k.feed with
          sessions := k.feed.sessions.insert s ⟨u.remaining - 1, u.summary.record o⟩ } } []

theorem Desk.delivers_deliver (k : Desk) (now : Moment) (x : Errand) :
    k.Delivers now x (k.deliver now x).1 (k.deliver now x).2 := by
  cases x with
  | note r => exact .notes r _
  | publish e => exact .shows e
  | count s o =>
    cases hf : k.feed.sessions.find? s with
    | none =>
      have hd : k.deliver now (.count s o) = (k, []) := by simp [deliver, Feed.countDown, hf]
      rw [hd]
      exact .passes s o hf
    | some u =>
      by_cases hr : u.remaining ≤ 1
      · simp only [deliver, Feed.countDown, hf, hr, if_true]
        exact .ends s o u hf hr
      · simp only [deliver, Feed.countDown, hf, hr, if_false]
        exact .counts s o u hf (Nat.lt_of_not_le hr)

namespace Desk.Delivers

variable {k k' : Desk} {now : Moment} {x : Errand} {more : List Errand}

theorem opened (h : k.Delivers now x k' more) : k'.feed.opened = k.feed.opened := by
  cases h <;> rfl

/-- Only the end of a session is left by another errand. -/
theorem leaves (h : k.Delivers now x k' more) :
    more = [] ∨ ∃ s summary, more = [.publish (.complete s summary)] := by
  cases h with
  | ends s o u => exact Or.inr ⟨s, _, rfl⟩
  | _ => exact Or.inl rfl

/-- A session is open, or its end is to be published, or is published; an errand moves it on from
one to the next. -/
theorem complete (h : k.Delivers now x k' more) (s : Nat) :
    k'.feed.completeCount s + weigh (publishes (Event.completes s)) more +
        (k'.feed.sessions.contains s).toNat =
      k.feed.completeCount s + publishes (Event.completes s) x +
        (k.feed.sessions.contains s).toNat := by
  cases h with
  | notes => rfl
  | passes => rfl
  | shows e =>
    have hpub := k.feed.countP_publish e (Event.completes s)
    change (k.feed.publish e).published.toList.countP _ + 0 + _ = _
    rw [hpub]
    rfl
  | ends t o u ht hr =>
    by_cases hst : s = t
    · simp [Feed.completeCount, SortedMap.contains, Feed.find_erase_session, publishes,
        Event.completes, hst, ht]
    · simp [Feed.completeCount, SortedMap.contains, Feed.find_erase_session, publishes,
        Event.completes, hst, Ne.symm hst]
  | counts t o u ht hr =>
    by_cases hst : s = t
    · simp [Feed.completeCount, SortedMap.contains, Feed.find_insert_session, publishes, hst, ht]
    · simp [Feed.completeCount, SortedMap.contains, Feed.find_insert_session, publishes, hst]

end Desk.Delivers

theorem Desk.opened_deliver (k : Desk) (now : Moment) (x : Errand) :
    (k.deliver now x).1.feed.opened = k.feed.opened :=
  (k.delivers_deliver now x).opened

/-- What an errand does to the books of the desk, and what it leaves: at most the end of a session,
which is published next. -/
structure Desk.Does (k : Desk) (x : Errand) (k' : Desk) (more : List Errand) : Prop where
  opened : k'.feed.opened = k.feed.opened
  results : ∀ y, k'.feed.resultCount y = k.feed.resultCount y + publishes (Event.tells y) x
  remaining : ∀ s, k'.feed.remaining s + counts s x = k.feed.remaining s
  positive : ∀ s o, k'.feed.sessions.find? s = some o → 1 ≤ o.remaining
  complete : ∀ s, k'.feed.completeCount s + weigh (publishes (Event.completes s)) more +
    (k'.feed.sessions.contains s).toNat =
      k.feed.completeCount s + publishes (Event.completes s) x + (k.feed.sessions.contains s).toNat
  leaves : more = [] ∨ ∃ s summary, more = [.publish (.complete s summary)]

/-- Every errand does what the books expect, if a result is only counted for a session that waits
for it. -/
theorem Desk.does_deliver (k : Desk) (now : Moment) (x : Errand)
    (hp : ∀ t o, k.feed.sessions.find? t = some o → 1 ≤ o.remaining)
    (hx : ∀ s, counts s x ≤ k.feed.remaining s) :
    k.Does x (k.deliver now x).1 (k.deliver now x).2 := by
  have hd := k.delivers_deliver now x
  generalize k.deliver now x = d at hd
  obtain ⟨k', more⟩ := d
  refine ⟨hd.opened, ?_, ?_, ?_, hd.complete, hd.leaves⟩
  · intro y
    cases hd with
    | shows e => exact k.feed.countP_publish e _
    | _ => rfl
  · intro t
    cases hd with
    | passes s o hnone =>
      -- Nothing is expected of a session that is not open.
      have hs := hx s
      simp [counts, Feed.remaining, hnone] at hs
    | ends s o u hu hr =>
      have hone := hp s u hu
      by_cases hts : t = s
      · simp [Feed.remaining, Feed.find_erase_session, counts, hts, hu]
        omega
      · simp [Feed.remaining, Feed.find_erase_session, counts, hts, Ne.symm hts]
    | counts s o u hu hr =>
      by_cases hts : t = s
      · simp [Feed.remaining, Feed.find_insert_session, counts, hts, hu]
        omega
      · simp [Feed.remaining, Feed.find_insert_session, counts, hts, Ne.symm hts]
    | _ => rfl
  · intro t v hv
    cases hd with
    | ends s o u hu hr =>
      rw [Feed.find_erase_session] at hv
      split at hv
      · cases hv
      · exact hp t v hv
    | counts s o u hu hr =>
      rw [Feed.find_insert_session] at hv
      split at hv
      · rw [← Option.some.inj hv]
        change 1 ≤ u.remaining - 1
        omega
      · exact hp t v hv
    | _ => exact hp t v hv

end Retest
