import Retest.Run.Queue

namespace Retest.Queue

theorem frontOf_append_drop (session : SessionId) (max : Nat) (l : List QueueEntry) :
    frontOf session max l ++ l.drop (frontOf session max l).length = l := by
  induction l generalizing max with
  | nil => cases max <;> rfl
  | cons e l ih =>
    cases max with
    | zero => rfl
    | succ max =>
      simp only [frontOf]
      split
      · simp [ih]
      · rfl

theorem session_of_mem_frontOf (session : SessionId) (max : Nat) (l : List QueueEntry)
    (e : QueueEntry) (h : e ∈ frontOf session max l) : e.session = session := by
  induction l generalizing max with
  | nil => cases max <;> simp [frontOf] at h
  | cons d l ih =>
    cases max with
    | zero => simp [frontOf] at h
    | succ max =>
      simp only [frontOf] at h
      split at h
      · next hd =>
        rcases List.mem_cons.mp h with rfl | h
        · exact hd
        · exact ih max h
      · simp at h

/-- The next batch is not empty unless the queue is. -/
theorem nextBatch_cons (max : Nat) (e : QueueEntry) (l : List QueueEntry) :
    ∃ rest, nextBatch max (e :: l) = e :: rest := by
  obtain ⟨m, hm⟩ : ∃ m, Nat.max max 1 = m + 1 :=
    ⟨_, (Nat.sub_add_cancel (Nat.le_max_right max 1)).symm⟩
  exact ⟨frontOf e.session m l, by simp [nextBatch, hm, frontOf]⟩

/-- What a reader is told, and what is left: a closed queue and an empty one keep their entries, any
other loses a batch at its front. -/
inductive Asked (q : Queue) : Queue → Delivery → Prop
  | closed (h : q.closed = true) : Asked q q .closed
  | waiting (h : q.entries = []) : Asked q { q with bell := .awaited } .waiting
  | batch (e : QueueEntry) (rest left : List QueueEntry) (h : q.entries = e :: rest ++ left)
    (hs : ∀ x ∈ rest, x.session = e.session) :
    Asked q { q with entries := left } (.batch (e :: rest))

theorem asked_ask (q : Queue) (max : Nat) : q.Asked (q.ask max).1 (q.ask max).2 := by
  by_cases hc : q.closed = true
  · have ha : q.ask max = (q, .closed) := by simp [ask, look, hc]
    rw [ha]
    exact .closed hc
  · cases hl : q.entries with
    | nil =>
      have ha : q.ask max = ({ q with bell := .awaited }, .waiting) := by
        simp [ask, look, hc, pop, hl, nextBatch]
      rw [ha]
      exact .waiting hl
    | cons e l =>
      obtain ⟨rest, hb⟩ := nextBatch_cons max e l
      have hfront : e :: rest = frontOf e.session (Nat.max max 1) (e :: l) := by
        rw [← hb]
        rfl
      have hsplit : e :: rest ++ (e :: l).drop (e :: rest).length = e :: l := by
        rw [hfront]
        exact frontOf_append_drop e.session _ _
      have ha : q.ask max =
          ({ q with entries := (e :: l).drop (e :: rest).length }, .batch (e :: rest)) := by
        simp [ask, look, hc, pop, hl, hb]
      rw [ha]
      refine .batch e rest _ (by rw [hl, hsplit]) ?_
      intro x hx
      exact session_of_mem_frontOf e.session (Nat.max max 1) (e :: l) x
        (hfront ▸ List.mem_cons_of_mem e hx)

end Retest.Queue
