import Retest.Proofs.QueueRuns

/-! A reader that waits while tests come in and the queue is closed. Every call is taken apart into
its atomic steps, and those of different callers come in any order. -/

namespace Retest

/-- How far the one reader is: it has not asked, has asked, has found the queue open, has found
nothing in it, or waits for the bell. -/
inductive Reader where
  | away
  | entered
  | looking
  | turning
  | parked
  deriving DecidableEq

/-- A queue with its reader and what that was told so far. Some pushes and closings have changed the
queue and have yet to ring. A bell that is heard may have rung once more before the reader comes
back; that ring is kept. -/
structure TestQueue where
  queue : Queue := {}
  reader : Reader := .away
  ringing : Nat := 0
  again : Bool := false
  told : List Delivery := []

inductive TestQueueMove where
  | append (history : History) (session : SessionId) (tests : List String)
  | shut
  | ring
  | call
  | advance (max : Nat)
  | drop

theorem Queue.pop_eq_nil (q : Queue) (max : Nat) : (q.pop max).2 = [] ↔ q.entries = [] := by
  cases hq : q.entries with
  | nil => simp [pop, nextBatch, hq]
  | cons e l =>
    obtain ⟨rest, hb⟩ := nextBatch_cons max e l
    simp [pop, hq, hb]

theorem Queue.look_eq (q : Queue) (max : Nat) :
    q.look max = if q.closed then (q, .closed)
      else if (q.pop max).2 = [] then (q, .waiting)
      else ((q.pop max).1, .batch (q.pop max).2) := by
  rw [look]
  split
  · rfl
  · split <;> simp_all

namespace TestQueue

/-- The next step of the reader. A ring that was kept sends it back to look once more. -/
def advance (v : TestQueue) (max : Nat) : TestQueue :=
  match v.reader with
  | .away => v
  | .entered =>
    if v.queue.closed then { v with reader := .away, told := v.told ++ [.closed] }
    else { v with reader := .looking }
  | .looking =>
    if (v.queue.pop max).2 = [] then { v with reader := .turning }
    else { v with
      queue := (v.queue.pop max).1
      reader := .away
      told := v.told ++ [.batch (v.queue.pop max).2] }
  | .turning =>
    match v.queue.bell with
    | .rung => { v with queue := { v.queue with bell := .silent }, reader := .entered }
    | _ => { v with queue := { v.queue with bell := .awaited }, reader := .parked }
  | .parked =>
    match v.queue.bell with
    | .heard =>
      { v with
        queue := { v.queue with bell := if v.again then .rung else .silent }
        reader := .entered
        again := false }
    | _ => v

def act (p : Priority) (v : TestQueue) : TestQueueMove → TestQueue
  | .append history session tests =>
    if tests = [] then v
    else { v with
      queue := v.queue.append session (p.sort history tests), ringing := v.ringing + 1 }
  | .shut => { v with queue := { v.queue with closed := true }, ringing := v.ringing + 1 }
  | .ring =>
    match v.ringing with
    | 0 => v
    | n + 1 =>
      { v with queue := v.queue.ring, ringing := n, again := v.again || v.queue.bell == .heard }
  | .call => if v.reader = .away then { v with reader := .entered } else v
  | .advance max => v.advance max
  | .drop =>
    if v.reader = .parked then
      { v with queue := v.queue.leave, reader := .away, again := false }
    else v

def after (p : Priority) (moves : List TestQueueMove) : TestQueue := moves.foldl (act p) {}

def Wanted (v : TestQueue) : Prop := v.queue.closed = true ∨ v.queue.entries ≠ []

def Signalled (v : TestQueue) : Prop := 0 < v.ringing ∨ v.queue.bell = .rung

/-- What the reader has not seen any more is announced by a ring that was kept or is to come. -/
structure Watched (v : TestQueue) : Prop where
  parked : v.reader = .parked ↔ v.queue.bell = .awaited ∨ v.queue.bell = .heard
  looking : v.reader = .looking → v.queue.closed = true → v.Signalled
  turning : v.reader = .turning → v.Wanted → v.Signalled
  waiting : v.queue.bell = .awaited → v.Wanted → 0 < v.ringing

variable {p : Priority} {v : TestQueue}

theorem watched_announce (h : v.Watched) (queue : Queue) (hb : queue.bell = v.queue.bell) :
    ({ v with queue, ringing := v.ringing + 1 } : TestQueue).Watched where
  parked := by simpa only [hb] using h.parked
  looking _ _ := Or.inl (Nat.succ_pos _)
  turning _ _ := Or.inl (Nat.succ_pos _)
  waiting _ _ := Nat.succ_pos _

theorem watched_ring (h : v.Watched) : (v.act p .ring).Watched := by
  rw [act]
  split
  · exact h
  · next n hn =>
    have hrung (hne : v.reader ≠ .parked) : v.queue.bell.ring = .rung := by
      have hbell := mt h.parked.mpr hne
      cases hb : v.queue.bell <;> simp_all [Bell.ring]
    refine ⟨?_, ?_, ?_, ?_⟩
    · rw [h.parked]
      cases hb : v.queue.bell <;> simp [Queue.ring, Bell.ring, hb]
    · intro hr _
      exact Or.inr (hrung fun hp => Reader.noConfusion (hr.symm.trans hp))
    · intro hr _
      exact Or.inr (hrung fun hp => Reader.noConfusion (hr.symm.trans hp))
    · -- nobody waits for a bell that has just rung
      intro hb
      cases hv : v.queue.bell <;> simp [Queue.ring, Bell.ring, hv] at hb

/-- Each check of the reader finds nothing, or it goes away with an answer. What comes in after a
check is announced. -/
theorem watched_advance (h : v.Watched) (max : Nat) : (v.advance max).Watched := by
  have hrest (hne : v.reader ≠ .parked) : v.queue.bell ≠ .awaited ∧ v.queue.bell ≠ .heard :=
    not_or.mp (mt h.parked.mpr hne)
  cases hr : v.reader with
  | away =>
    simp only [advance, hr]
    exact h
  | entered =>
    obtain ⟨hawaited, hheard⟩ := hrest (by simp [hr])
    simp only [advance, hr]
    split
    · exact ⟨by simp [hawaited, hheard], by simp, by simp, fun hb => absurd hb hawaited⟩
    · next hopen =>
      refine ⟨by simp [hawaited, hheard], ?_, by simp, fun hb => absurd hb hawaited⟩
      exact fun _ hclosed => absurd hclosed hopen
  | looking =>
    obtain ⟨hawaited, hheard⟩ := hrest (by simp [hr])
    simp only [advance, hr]
    split
    · next hpop =>
      refine ⟨by simp [hawaited, hheard], by simp, ?_, fun hb => absurd hb hawaited⟩
      intro _ hw
      -- the queue is empty now, and if it was closed since the reader came, that is announced
      exact h.looking hr (hw.resolve_right fun hne => hne ((v.queue.pop_eq_nil max).mp hpop))
    · refine ⟨?_, by simp, by simp, fun hb => absurd hb hawaited⟩
      simp [Queue.pop, hawaited, hheard]
  | turning =>
    simp only [advance, hr]
    split
    · exact ⟨by simp, by simp, by simp, by simp⟩
    · next hb =>
      refine ⟨by simp, by simp, by simp, ?_⟩
      exact fun _ hw => (h.turning hr hw).resolve_right hb
  | parked =>
    simp only [advance, hr]
    split
    · refine ⟨?_, by simp, by simp, ?_⟩
      · cases v.again <;> simp
      · cases v.again <;> simp
    · exact h

theorem watched_act (h : v.Watched) (m : TestQueueMove) : (v.act p m).Watched := by
  cases m with
  | append history session tests =>
    rw [act]
    split
    · exact h
    · exact watched_announce h (v.queue.append session (p.sort history tests)) rfl
  | shut => exact watched_announce h { v.queue with closed := true } rfl
  | ring => exact watched_ring h
  | call =>
    rw [act]
    split
    · next hr =>
      obtain ⟨hawaited, hheard⟩ := not_or.mp (mt h.parked.mpr (by simp [hr]))
      exact ⟨by simp [hawaited, hheard], by simp, by simp, fun hb => absurd hb hawaited⟩
    · exact h
  | advance max => exact watched_advance h max
  | drop =>
    rw [act]
    split
    · refine ⟨?_, by simp, by simp, ?_⟩
      · cases hb : v.queue.bell <;> simp [Queue.leave, Bell.leave, hb]
      · cases hb : v.queue.bell <;> simp [Queue.leave, Bell.leave, hb]
    · exact h

/-- Where no other step comes between those of a push or a closing, it is the queue's own. -/
theorem queue_ring (v : TestQueue) (hn : v.ringing = 0) :
    (∀ history session tests, ((v.act p (.append history session tests)).act p .ring).queue =
        v.queue.push p history session tests) ∧
      ((v.act p .shut).act p .ring).queue = v.queue.close := by
  refine ⟨?_, by simp [act, hn, Queue.close]⟩
  intro history session tests
  by_cases ht : tests = []
  · simp [act, Queue.push, ht, hn]
  · simp [act, Queue.push, ht, hn]

def answers : Delivery → List Delivery
  | .waiting => []
  | answer => [answer]

/-- The steps of a reader that nobody disturbs make the queue's own answer. A ring that was kept
costs it another round. -/
theorem asks_alone (v : TestQueue) (max : Nat) (hr : v.reader = .entered)
    (hb : v.queue.bell = .silent ∨ v.queue.bell = .rung) :
    let w := (List.replicate 6 (.advance max)).foldl (act p) v
    w.queue = (v.queue.ask max).1 ∧ w.told = v.told ++ answers (v.queue.ask max).2 := by
  by_cases hc : v.queue.closed = true
  · simp [List.replicate, act, advance, hr, hc, Queue.ask, Queue.look_eq, answers]
  · by_cases hpop : (v.queue.pop max).2 = []
    · have hask : v.queue.ask max = ({ v.queue with bell := .awaited }, .waiting) := by
        simp [Queue.ask, Queue.look_eq, hc, hpop]
      rw [hask]
      simp only [Queue.pop] at hpop
      rcases hb with hb | hb
      · simp [List.replicate, act, advance, hr, hc, hb, Queue.pop, hpop, answers]
      · simp [List.replicate, act, advance, hr, hc, hb, Queue.pop, hpop, answers]
    · simp [List.replicate, act, advance, hr, hc, Queue.ask, Queue.look_eq, hpop, answers]

/-- A reader that heard the bell and is left alone makes the queue's own second answer. -/
theorem resumes_alone (v : TestQueue) (max : Nat) (hr : v.reader = .parked)
    (hb : v.queue.bell = .heard) (ha : v.again = false) :
    let w := (List.replicate 7 (.advance max)).foldl (act p) v
    w.queue = (v.queue.resume max).1 ∧ w.told = v.told ++ answers (v.queue.resume max).2 := by
  have hback : v.act p (.advance max) =
      { v with queue := { v.queue with bell := .silent }, reader := .entered, again := false } := by
    simp [act, advance, hr, hb, ha]
  rw [List.replicate_succ, List.foldl_cons, hback, Queue.resume, hb]
  exact asks_alone _ max rfl (Or.inl rfl)

theorem after_append (moves more : List TestQueueMove) :
    after p (moves ++ more) = more.foldl (act p) (after p moves) := by
  simp [after]

theorem watched_after (moves : List TestQueueMove) : (after p moves).Watched := by
  induction moves using List.reverseRecOn with
  | nil => exact ⟨by simp [after], by simp [after], by simp [after], by simp [after]⟩
  | append_singleton moves m ih =>
    rw [after_append]
    exact watched_act ih m

/-- When all that were about to ring have done so, the reader has heard it. -/
theorem heard_rings (n : Nat) (hr : v.reader = .parked) (hn : v.ringing = n)
    (hb : v.queue.bell = .heard ∨ v.queue.bell = .awaited ∧ 0 < n) :
    ∃ again, (List.replicate n .ring).foldl (act p) v =
      { v with queue := { v.queue with bell := .heard }, ringing := 0, again } := by
  induction n generalizing v with
  | zero =>
    have hheard : v.queue.bell = .heard := by simpa using hb
    refine ⟨v.again, ?_⟩
    obtain ⟨⟨entries, closed, bell⟩, reader, ringing, again, told⟩ := v
    cases hheard
    cases hn
    rfl
  | succ n ih =>
    have hring : v.act p .ring = { v with
        queue := { v.queue with bell := .heard }, ringing := n,
        again := v.again || v.queue.bell == .heard } := by
      rcases hb with hb | ⟨hb, -⟩ <;> simp [act, hn, Queue.ring, Bell.ring, hb]
    rw [List.replicate_succ, List.foldl_cons, hring]
    obtain ⟨again, hagain⟩ := ih (v := { v with
      queue := { v.queue with bell := .heard }, ringing := n,
      again := v.again || v.queue.bell == .heard }) hr rfl (Or.inl rfl)
    exact ⟨again, hagain⟩

/-- A reader that has heard the bell comes back and is told what there is. -/
theorem told_back (max : Nat) (hr : v.reader = .parked) (hb : v.queue.bell = .heard)
    (hw : v.Wanted) :
    (((v.advance max).advance max).advance max).told =
      v.told ++ [if v.queue.closed then .closed else .batch (v.queue.pop max).2] := by
  by_cases hc : v.queue.closed = true
  · simp [advance, hr, hb, hc]
  · have hne : v.queue.entries ≠ [] := hw.resolve_left hc
    have hpop := mt (v.queue.pop_eq_nil max).mp hne
    simp only [Queue.pop] at hpop
    simp [advance, hr, hb, hc, Queue.pop, hpop]

/-- Whatever the order of the steps: a reader that waits and has not heard the bell misses nothing
once every push and closing has rung, for then the queue is empty and open. If there is something
while it waits, then it is told so after those that are about to ring have done it. -/
theorem no_ring_is_lost (p : Priority) (moves : List TestQueueMove) :
    let v := after p moves
    v.reader = .parked →
      (v.queue.bell ≠ .heard → v.ringing = 0 → v.queue.entries = [] ∧ v.queue.closed = false) ∧
      (v.queue.entries ≠ [] ∨ v.queue.closed = true → ∀ max,
        (after p (moves ++ List.replicate v.ringing .ring ++
          [.advance max, .advance max, .advance max])).told =
            v.told ++ [if v.queue.closed then .closed else .batch (v.queue.pop max).2]) := by
  intro v hr
  have hv : v.Watched := watched_after moves
  have hbell := hv.parked.mp hr
  refine ⟨?_, ?_⟩
  · intro hb hn
    have hfree : ¬v.Wanted := by
      intro hw
      have hpos := hv.waiting (hbell.resolve_right hb) hw
      omega
    rw [Wanted, not_or, not_not] at hfree
    exact ⟨hfree.2, Bool.eq_false_iff.mpr hfree.1⟩
  · intro hw max
    have hsoon : v.queue.bell = .heard ∨ v.queue.bell = .awaited ∧ 0 < v.ringing :=
      hbell.symm.imp_right fun hb => ⟨hb, hv.waiting hb hw.symm⟩
    obtain ⟨again, hrung⟩ := heard_rings (p := p) v.ringing hr rfl hsoon
    rw [after_append, after_append, hrung]
    exact told_back max hr rfl hw.symm

/-- The reader has found the queue empty when a test comes in, and wants to wait before the push has
rung. -/
def lateRing : List TestQueueMove :=
  [.call, .advance 1, .advance 1, .append {} 1 ["A"], .advance 1]

def quietEnd : List TestQueueMove :=
  lateRing ++ [.ring, .advance 1, .advance 1, .advance 1, .call, .advance 1, .advance 1, .advance 1]

theorem late_ring_is_heard :
    (after .byName lateRing).reader = .parked ∧ (after .byName lateRing).ringing = 1 ∧
      (after .byName lateRing).queue.bell ≠ .heard ∧
      (after .byName (lateRing ++ [.ring] ++ [.advance 1, .advance 1, .advance 1])).told =
        [.batch [⟨1, "A"⟩]] ∧
      (after .byName quietEnd).reader = .parked ∧ (after .byName quietEnd).ringing = 0 ∧
      (after .byName quietEnd).queue.bell ≠ .heard ∧
      (after .byName quietEnd).queue.entries = [] ∧
        (after .byName quietEnd).queue.closed = false := by
  have hlate : after .byName lateRing =
      { queue := { entries := [⟨1, "A"⟩], bell := .awaited }, reader := .parked,
        ringing := 1 } := by
    cbv
  have hquiet : after .byName quietEnd =
      { queue := { bell := .awaited }, reader := .parked, told := [.batch [⟨1, "A"⟩]] } := by
    cbv
  obtain ⟨-, htold⟩ := no_ring_is_lost .byName lateRing (by rw [hlate])
  obtain ⟨hempty, -⟩ := no_ring_is_lost .byName quietEnd (by rw [hquiet])
  have hsome := htold (by simp [hlate]) 1
  rw [hlate] at hsome
  refine ⟨by rw [hlate], by rw [hlate], by simp [hlate], hsome, by rw [hquiet], by rw [hquiet],
    by simp [hquiet], ?_⟩
  exact hempty (by simp [hquiet]) (by rw [hquiet])

end TestQueue

end Retest
