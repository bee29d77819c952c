import Retest.Proofs.EngineLedger

/-! Shifts by number, counted from the first one on. A shift keeps its number for good, so what
happens to it over a run can be told step by step. -/

namespace Retest.Engine

def nth (e : Engine) (i : Nat) : Option Shift := e.shifts.reverse[i]?

variable {e e' : Engine} {i k : Nat} {s s' : Shift}

theorem lt_of_shift (h : e.shift? k = some s) : k < e.shifts.length :=
  (List.getElem?_eq_some_iff.mp h).1

theorem lt_of_nth (h : e.nth i = some s) : i < e.shifts.length := by
  have hlt := (List.getElem?_eq_some_iff.mp h).1
  rwa [List.length_reverse] at hlt

theorem place_lt (h : k < e.shifts.length) : e.place k < e.shifts.length := by
  rw [place]
  omega

theorem place_place (h : k < e.shifts.length) : e.place (e.place k) = k := by
  rw [place, place]
  omega

theorem nth_eq_shift (h : i < e.shifts.length) : e.nth i = e.shift? (e.place i) :=
  List.getElem?_reverse h

theorem nth_place (h : e.shift? k = some s) : e.nth (e.place k) = some s := by
  have hk := lt_of_shift h
  rw [nth_eq_shift (place_lt hk), place_place hk, h]

theorem nth_latest (rest : List Shift) (h : e.shifts = s :: rest) :
    e.nth (e.shifts.length - 1) = some s :=
  nth_place (k := 0) (by simp [shift?, h])

theorem mem_of_nth (h : e.nth i = some s) : s ∈ e.shifts :=
  List.mem_reverse.mp (List.mem_of_getElem? h)

/-- Setting a shift leaves the others with their numbers. -/
theorem nth_putShift (h : e.shift? k = some s) :
    (e.putShift k s').nth i = if i = e.place k then some s' else e.nth i := by
  have hk := lt_of_shift h
  by_cases hi : i < e.shifts.length
  · have hi' : i < (e.putShift k s').shifts.length := by simpa [putShift] using hi
    have hplace : (e.putShift k s').place i = e.place i := by simp [place, putShift]
    have hiff : e.place k ≠ i ↔ k ≠ e.place i := by
      rw [place, place]
      omega
    rw [nth_eq_shift hi', hplace, nth_eq_shift hi, shift?, putShift, List.getElem?_set, shift?]
    by_cases heq : k = e.place i
    · have hik : i = e.place k := by rw [heq, place_place hi]
      rw [if_pos heq, if_pos hk, if_pos hik]
    · rw [if_neg heq, if_neg fun hik => hiff.mpr heq hik.symm]
  · have hne : i ≠ e.place k := by
      have hlt := place_lt hk
      omega
    have hnone : e.nth i = none := by
      simp [nth]
      omega
    have hnone' : (e.putShift k s').nth i = none := by
      simp [nth, putShift]
      omega
    rw [if_neg hne, hnone, hnone']

inductive Step (e : Engine) (now : Moment) (a : Action) (i : Nat) (s : Shift) : Shift → Prop
  | rests (h : ∀ k, a.shift? = some k → e.place k ≠ i) : Step e now a i s s
  | queues (session : SessionId) (tests : List String) (hm : e.midway = some (session, tests))
    (hi : i = e.shifts.length - 1) (ha : a = .push) : Step e now a i s
      { s with queue := s.queue.push e.settings.priority e.desk.history session tests }
  | adjusts (n : Nat) (ha : a = .setLimit n) (hi : i = e.shifts.length - 1) :
    Step e now a i s { s with permits := s.permits.setLimit n }
  | stops (ha : a = .cancel) : Step e now a i s { s with cancelled := true }
  | works (k : Nat) (s' : Shift) (ha : a.shift? = some k) (hk : e.place k = i)
    (hw : s.Works e.settings now a.hired? s') : Step e now a i s s'
  | hands (k : Nat) (s' : Shift) (x : Errand) (ha : a.shift? = some k) (hk : e.place k = i)
    (hn : a.hired? = none) (hh : s.Hands x (e.desk.deliver now x).2 s') : Step e now a i s s'

/-- The shifts of an engine whose latest one has changed. -/
theorem nth_head (s s' : Shift) (rest : List Shift) (hs : e.shifts = s :: rest)
    (midway : Option (SessionId × List String)) :
    ({ e with shifts := s' :: rest, midway } : Engine).nth i =
      if i = e.shifts.length - 1 then some s' else e.nth i := by
  have hk : e.shift? 0 = some s := by simp [shift?, hs]
  have hput : (e.putShift 0 s').nth i = if i = e.shifts.length - 1 then some s' else e.nth i :=
    nth_putShift hk
  rw [← hput, nth, nth, putShift, hs]
  rfl

theorem nth_ensureShift :
    e.ensureShift.nth i = e.nth i ∨
      i = e.shifts.length ∧ e.ensureShift.nth i = some (.ofPermits (.ofLimit e.permits.limit)) := by
  rcases e.ensureShift_cases with ⟨-, -, -, -, he⟩ | he
  · exact Or.inl (by rw [he])
  · rw [he, nth, nth, List.reverse_cons, List.getElem?_append, List.length_reverse]
    by_cases hi : i < e.shifts.length
    · exact Or.inl (if_pos hi)
    · by_cases hlast : i = e.shifts.length
      · refine Or.inr ⟨hlast, ?_⟩
        simp [hlast]
      · refine Or.inl ?_
        have hnone : e.shifts.reverse[i]? = none := by simp; omega
        rw [if_neg hi, hnone]
        simp
        omega

variable {now : Moment} {a : Action} {t : Shift} {rest : List Shift}

/-- Where the latest shift alone has changed, it has taken a step and the others rest. -/
theorem step_of_head (hl : e.shifts = s :: rest) (midway : Option (SessionId × List String))
    (hs : ({ e with shifts := t :: rest, midway } : Engine).nth i = some s')
    (ha : a.shift? = none) (ht : i = e.shifts.length - 1 → e.Step now a i s t) :
    ∃ s, e.nth i = some s ∧ e.Step now a i s s' := by
  rw [nth_head s t rest hl] at hs
  split at hs
  · next hi =>
    have htwice : t = s' := Option.some.inj hs
    have hlatest : e.nth i = some s := by
      rw [hi]
      exact nth_latest rest hl
    exact ⟨s, hlatest, htwice ▸ ht hi⟩
  · refine ⟨s', hs, .rests fun k hk => ?_⟩
    rw [ha] at hk
    cases hk

/-- So it is where one shift has changed that the action is about. -/
theorem step_of_putShift (hk : e.shift? k = some s) (hs : (e.putShift k t).nth i = some s')
    (ha : a.shift? = some k) (ht : e.place k = i → e.Step now a i s t) :
    ∃ s, e.nth i = some s ∧ e.Step now a i s s' := by
  rw [nth_putShift hk] at hs
  split at hs
  · next hi =>
    have htwice : t = s' := Option.some.inj hs
    have hplace : e.nth i = some s := by
      rw [hi]
      exact nth_place hk
    exact ⟨s, hplace, htwice ▸ ht hi.symm⟩
  · next hi =>
    refine ⟨s', hs, .rests fun j hj => ?_⟩
    rw [ha] at hj
    rw [← Option.some.inj hj]
    exact Ne.symm hi

/-- A shift comes out of its state before by a step of its own, or it is a fresh one. -/
theorem step_of_change (h : e.Change now a e') (hs : e'.nth i = some s') :
    (∃ s, e.nth i = some s ∧ e.Step now a i s s') ∨
      i = e.shifts.length ∧ a.hired? = none ∧ ∃ n, s' = .ofPermits (.ofLimit n) := by
  cases h with
  | opens tests hm ht =>
    have hs' : e.ensureShift.nth i = some s' := hs
    rcases nth_ensureShift (e := e) (i := i) with hn | ⟨hi, hn⟩
    · rw [hn] at hs'
      exact Or.inl ⟨s', hs', .rests fun k hk => by cases hk⟩
    · rw [hn] at hs'
      exact Or.inr ⟨hi, rfl, _, (Option.some.inj hs').symm⟩
  | pushes session tests hm =>
    left
    rw [push] at hs
    split at hs
    · exact ⟨s', hs, .rests fun k hk => by cases hk⟩
    · next s rest hl =>
      exact step_of_head hl none hs rfl fun hi => .queues session tests hm hi rfl
  | adjusts n =>
    left
    rw [setLimit] at hs
    split at hs
    · exact ⟨s', hs, .rests fun k hk => by cases hk⟩
    · next s rest hl => exact step_of_head hl e.midway hs rfl fun hi => .adjusts n rfl hi
  | stops s rest hm hl hc =>
    left
    exact step_of_head hl e.midway hs rfl fun _ => .stops rfl
  | works _ k s t hk hl hw =>
    left
    exact step_of_putShift hl hs hk fun hi => .works k t hk hi hw
  | hands _ k s t x desk more hk hn hl hd hh =>
    left
    -- The desk has changed as well, which the shifts do not notice.
    have hs' : (e.putShift k t).nth i = some s' := hs
    refine step_of_putShift hl hs' hk fun hi => .hands k t x hk hi hn ?_
    rw [hd]
    exact hh

end Retest.Engine
