import Retest.Proofs.Connections
import Retest.Proofs.Sessions
import Retest.Proofs.ShiftNumbers

/-! Where things belong. A session belongs to the shift that was on when it was opened, and so do
its tests and errands; a connection belongs to the shift that made it. -/

namespace Retest

namespace Turn

def home (t : Turn) : Nat := t.before.ensureShift.shifts.length - 1

def hires (i : Nat) (w : WorkerId) (t : Turn) : Bool :=
  t.action.shift?.map t.before.place = some i && t.action.hired? = some w

end Turn

def OpenedOn (l : List Turn) (session : SessionId) (i : Nat) : Prop :=
  ∃ turn ∈ l, ∃ names, turn.opens = some (session, names) ∧ turn.home = i

def HandedIn (l : List Turn) (x : QueueEntry) : Prop :=
  ∃ turn ∈ l, ∃ s ∈ turn.before.shifts, s.Handed x

theorem OpenedOn.append {l : List Turn} {session : SessionId} {i : Nat} (h : OpenedOn l session i)
    (m : List Turn) : OpenedOn (l ++ m) session i := by
  obtain ⟨turn, hl, ho⟩ := h
  exact ⟨turn, List.mem_append_left m hl, ho⟩

theorem HandedIn.append {l : List Turn} {x : QueueEntry} (h : HandedIn l x) (m : List Turn) :
    HandedIn (l ++ m) x := by
  obtain ⟨turn, hl, hs⟩ := h
  exact ⟨turn, List.mem_append_left m hl, hs⟩

namespace Shift

variable {s s' : Shift} {ended : List TestResult}

theorem Ends.mem_pending (h : s.Ends s' ended) (x : QueueEntry) (hx : x ∈ s'.pending) :
    x ∈ s.pending := by
  have hp := h.pending fun y => if y = x then 1 else 0
  have hpos := List.count_pos_iff.mpr hx
  rw [weigh_eq_count, weigh_eq_count] at hp
  exact List.count_pos_iff.mp (by omega)

theorem Ends.entry_mem (h : s.Ends s' ended) (r : TestResult) (hr : r ∈ ended) :
    r.entry ∈ s.pending := by
  have hp := h.pending fun y => if y = r.entry then 1 else 0
  have hpos := le_weigh (fun r' : TestResult => if r'.entry = r.entry then 1 else 0) ended r hr
  rw [weigh_eq_count, weigh_eq_count] at hp
  simp only [if_true] at hpos
  exact List.count_pos_iff.mp (by omega)

/-- An errand of a kind that matters was there before, or a result made it. -/
theorem Ends.mem_outstanding (h : s.Ends s' ended) (p : Errand → Bool)
    (hp : ∀ y, p y = true → y.owner? ≠ none) (y : Errand) (hy : y ∈ s'.outstanding)
    (hpy : p y = true) : (∃ z ∈ s.outstanding, p z = true) ∨ ∃ r ∈ ended, p (.note r) = true ∨
      p (.publish (.finished r)) = true ∨ p (.count r.session r.outcome) = true := by
  have hsilent : Silent fun z => (p z).toNat := by
    refine ⟨fun u t => ?_, fun u m => ?_⟩
    · rw [Bool.toNat_eq_zero, ← Bool.not_eq_true]
      exact fun hps => hp _ hps rfl
    · rw [Bool.toNat_eq_zero, ← Bool.not_eq_true]
      exact fun hps => hp _ hps rfl
  have hout := h.outstanding _ hsilent
  have hle := le_weigh (fun z => (p z).toNat) s'.outstanding y hy
  simp only [hpy, Bool.toNat_true] at hle
  -- Otherwise nothing of the kind was on the books, and no result has put it there.
  by_contra hno
  simp only [not_or, not_exists, not_and, Bool.not_eq_true] at hno
  obtain ⟨hold, hnew⟩ := hno
  have hzero : weigh (fun z => (p z).toNat) s.outstanding = 0 :=
    weigh_eq_zero _ _ fun z hz => by rw [hold z hz]; rfl
  have hzero' : weigh (resultWeight fun z => (p z).toNat) ended = 0 := by
    apply weigh_eq_zero
    intro r hr
    obtain ⟨h1, h2, h3⟩ := hnew r hr
    rw [resultWeight, h1, h2, h3]
    rfl
  omega

/-- What remains to be done for a session goes on as before, or a result of it is new. -/
theorem Ends.owner (h : s.Ends s' ended) (session : SessionId) (y : Errand)
    (hy : y ∈ s'.outstanding) (ho : y.owner? = some session) :
    (∃ z ∈ s.outstanding, z.owner? = some session) ∨ ∃ x ∈ s.pending, x.session = session := by
  rcases h.mem_outstanding (fun z => z.owner? = some session) (by simp +contextual) y hy
    (by simpa using ho) with ⟨z, hz, hzo⟩ | ⟨r, hr, hzo⟩
  · exact Or.inl ⟨z, hz, by simpa using hzo⟩
  · refine Or.inr ⟨r.entry, h.entry_mem r hr, ?_⟩
    simpa [Errand.owner?, TestResult.entry] using hzo

theorem Ends.finished (h : s.Ends s' ended) (r : TestResult)
    (hr : .publish (.finished r) ∈ s'.outstanding) :
    .publish (.finished r) ∈ s.outstanding ∨ r ∈ ended := by
  have howned : ∀ y : Errand, decide (y = .publish (.finished r)) = true → y.owner? ≠ none := by
    intro y hy
    simp [of_decide_eq_true hy, Errand.owner?]
  rcases h.mem_outstanding (fun z => z = .publish (.finished r)) howned _ hr (by simp) with
    ⟨z, hz, hzr⟩ | ⟨r', hr', hzr⟩
  · have heq : z = .publish (.finished r) := by simpa using hzr
    exact Or.inl (heq ▸ hz)
  · have heq : r' = r := by simpa using hzr
    exact Or.inr (heq ▸ hr')

theorem mem_hands {x y : Errand} {more : List Errand} (hh : s.Hands x more s')
    (hy : y ∈ s'.outstanding) : y ∈ s.outstanding ∨ y ∈ more := by
  cases hh with
  | loop _ rest _ he =>
    rcases List.mem_append.mp hy with hy | hy
    · rcases List.mem_append.mp hy with hy | hy
      · exact Or.inr hy
      · refine Or.inl (List.mem_append_left _ ?_)
        rw [he]
        exact List.mem_cons_of_mem x hy
    · exact Or.inl (List.mem_append_right _ hy)
  | dispatch d _ rest _ hd he =>
    rcases List.mem_append.mp hy with hy | hy
    · exact Or.inl (List.mem_append_left _ hy)
    · obtain ⟨c, hc, hy⟩ := List.mem_flatMap.mp hy
      rcases mem_put s { d with errands := more ++ rest } c hc with rfl | hc
      · rcases List.mem_append.mp hy with hy | hy
        · exact Or.inr hy
        · refine Or.inl (List.mem_append_right _ (List.mem_flatMap.mpr ⟨d, hd, ?_⟩))
          rw [he]
          exact List.mem_cons_of_mem x hy
      · exact Or.inl (List.mem_append_right _ (List.mem_flatMap.mpr ⟨c, hc, hy⟩))

end Shift

/-- The only errand that an errand leaves is to publish the end of a session, after its last
count. -/
theorem Desk.mem_deliver (k : Desk) (now : Moment) (x y : Errand) (h : y ∈ (k.deliver now x).2) :
    ∃ s o summary, x = .count s o ∧ y = .publish (.complete s summary) := by
  cases x with
  | note r => simp [deliver] at h
  | publish e => simp [deliver] at h
  | count s o =>
    cases hc : k.feed.countDown s o with
    | mk feed end? =>
      cases end? with
      | none => simp [deliver, hc] at h
      | some summary =>
        simp only [deliver, hc, List.mem_singleton] at h
        exact ⟨s, o, _, rfl, h⟩

theorem Desk.published_deliver (k : Desk) (now : Moment) (x : Errand) (ev : Event)
    (h : ev ∈ (k.deliver now x).1.feed.published) : ev ∈ k.feed.published ∨ x = .publish ev := by
  cases x with
  | note r => exact Or.inl h
  | publish e =>
    refine (Array.mem_push.mp h).imp id ?_
    rintro rfl
    rfl
  | count s o =>
    refine Or.inl ?_
    cases hf : k.feed.sessions.find? s with
    | none => simpa [deliver, Feed.countDown, hf] using h
    | some u => by_cases hr : u.remaining ≤ 1 <;> simpa [deliver, Feed.countDown, hf, hr] using h

/-- What belongs to a shift: the tests that wait on it, its errands and its connections. -/
structure Shift.Kept (l : List Turn) (i : Nat) (s : Shift) : Prop where
  waits : ∀ x ∈ s.pending, OpenedOn l x.session i
  errands : ∀ y ∈ s.outstanding, ∀ session, y.owner? = some session → OpenedOn l session i
  workers : ∀ w, s.connections.count w = l.countP (Turn.hires i w)

namespace Engine

variable {e e' : Engine} {i : Nat} {s s' : Shift}

/-- A turn that hires nobody for a shift leaves what belongs to the shift as it is, if it adds
nothing to wait for or to do. -/
theorem kept_rests {l : List Turn} (h : s.Kept l i) (turn : Turn)
    (hno : ∀ w, turn.hires i w = false)
    (hp : ∀ x ∈ s'.pending, x ∈ s.pending ∨ OpenedOn l x.session i)
    (ho : ∀ y ∈ s'.outstanding, y ∈ s.outstanding ∨
      ∀ session, y.owner? = some session → OpenedOn l session i)
    (hc : ∀ f, weigh f s'.connections = weigh f s.connections) : s'.Kept (l ++ [turn]) i := by
  refine ⟨?_, ?_, ?_⟩
  · intro x hx
    exact ((hp x hx).elim (h.waits x) id).append _
  · intro y hy session hys
    exact ((ho y hy).elim (fun hy => h.errands y hy session hys)
      fun hall => hall session hys).append _
  · intro w
    rw [countP_concat, hno w, ← weigh_eq_count, hc, weigh_eq_count]
    exact h.workers w

theorem hires_of_rests (now : Moment) (a : Action) (w : WorkerId)
    (h : ∀ k, a.shift? = some k → e.place k ≠ i) : (⟨e, now, a⟩ : Turn).hires i w = false := by
  rw [Turn.hires, Bool.and_eq_false_imp]
  intro hk
  obtain ⟨k, hk, hi⟩ := Option.map_eq_some_iff.mp (of_decide_eq_true hk)
  exact absurd hi (h k hk)

theorem hires_of_hired (now : Moment) (a : Action) (w : WorkerId) (h : a.hired? = none) :
    (⟨e, now, a⟩ : Turn).hires i w = false := by
  simp [Turn.hires, h]

/-- Tests that are queued belong to the session that was just opened. -/
theorem kept_queues {l : List Turn} (h : s.Kept l i) (now : Moment) (session : SessionId)
    (tests : List String) (p : Priority) (known : History) (hopened : OpenedOn l session i) :
    ({ s with queue := s.queue.push p known session tests } : Shift).Kept
      (l ++ [⟨e, now, .push⟩]) i := by
  refine kept_rests h _ (fun w => hires_of_hired now _ w rfl) ?_ (fun y hy => Or.inl hy)
    fun f => rfl
  intro x hx
  rcases List.mem_append.mp hx with hx | hx
  · rcases List.mem_append.mp hx with hx | hx
    · rcases s.queue.mem_push _ _ _ _ x hx with hx | hx
      · exact Or.inl (List.mem_append_left _ (List.mem_append_left _ hx))
      · obtain ⟨t, -, rfl⟩ := List.mem_map.mp hx
        exact Or.inr hopened
    · exact Or.inl (List.mem_append_left _ (List.mem_append_right _ hx))
  · exact Or.inl (List.mem_append_right _ hx)

/-- A shift at work turns tests into errands of the same sessions, and each connection that it makes
is its own. -/
theorem kept_works {l : List Turn} (h : s.Kept l i) (now : Moment) (a : Action) (k : Nat)
    (hsound : s.Sound) (hn : s.pending.Nodup) (ha : a.shift? = some k) (hk : e.place k = i)
    (hw : s.Works e.settings now a.hired? s') : s'.Kept (l ++ [⟨e, now, a⟩]) i := by
  obtain ⟨ended, hends, -⟩ := Shift.ends_works hsound hn hw
  refine ⟨?_, ?_, ?_⟩
  · intro x hx
    exact (h.waits x (hends.mem_pending x hx)).append _
  · intro y hy session hys
    rcases hends.owner session y hy hys with ⟨z, hz, hzs⟩ | ⟨x, hx, hxs⟩
    · exact (h.errands z hz session hzs).append _
    · exact (hxs ▸ h.waits x hx).append _
  · intro w
    have hconn := Shift.connections_works hsound hw fun v => if v = w then 1 else 0
    rw [weigh_eq_count, weigh_eq_count, weigh_eq_count, h.workers w] at hconn
    rw [countP_concat, hconn, Turn.hires, ha]
    cases hh : a.hired? with
    | none => simp
    | some v => by_cases hvw : v = w <;> simp [hk, hvw]

/-- What an errand leaves is of the same session. -/
theorem kept_hands {l : List Turn} (h : s.Kept l i) (now : Moment) (a : Action) (x : Errand)
    (hsound : s.Sound) (ha : a.hired? = none) (hh : s.Hands x (e.desk.deliver now x).2 s') :
    s'.Kept (l ++ [⟨e, now, a⟩]) i := by
  obtain ⟨hpend, -⟩ := Shift.weigh_hands hsound hh
  refine kept_rests h _ (fun w => hires_of_hired now a w ha) ?_ ?_
    fun f => Shift.connections_hands hsound hh f
  · intro y hy
    have hcount := hpend fun z => if z = y then 1 else 0
    rw [weigh_eq_count, weigh_eq_count] at hcount
    exact Or.inl (List.count_pos_iff.mp (hcount ▸ List.count_pos_iff.mpr hy))
  · intro y hy
    refine (Shift.mem_hands hh hy).imp id ?_
    intro hmore session hys
    obtain ⟨t, o, summary, rfl, rfl⟩ := e.desk.mem_deliver now x y hmore
    exact h.errands _ (Shift.mem_outstanding_of_hands hh) session hys

/-- What belongs to a shift stays with it. -/
theorem kept_step {l : List Turn} (h : s.Kept l i) (now : Moment) (a : Action) (hsound : s.Sound)
    (hn : s.pending.Nodup) (hstep : e.Step now a i s s')
    (hm : ∀ session tests, e.midway = some (session, tests) →
      OpenedOn l session (e.shifts.length - 1)) : s'.Kept (l ++ [⟨e, now, a⟩]) i := by
  cases hstep with
  | rests hr =>
    exact kept_rests h _ (fun w => hires_of_rests now a w hr) (fun x hx => Or.inl hx)
      (fun y hy => Or.inl hy) fun f => rfl
  | queues session tests hmid hi ha =>
    rw [ha]
    exact kept_queues h now session tests _ _ (hi ▸ hm session tests hmid)
  | adjusts n ha =>
    rw [ha]
    exact kept_rests h _ (fun w => hires_of_hired now _ w rfl) (fun x hx => Or.inl hx)
      (fun y hy => Or.inl hy) fun f => rfl
  | stops ha =>
    rw [ha]
    exact kept_rests h _ (fun w => hires_of_hired now _ w rfl) (fun x hx => Or.inl hx)
      (fun y hy => Or.inl hy) fun f => rfl
  | works k _ ha hk hw => exact kept_works h now a k hsound hn ha hk hw
  | hands k _ x ha hk hnone hh => exact kept_hands h now a x hsound hnone hh

structure Placed (l : List Turn) (e : Engine) : Prop where
  shifts : ∀ i s, e.nth i = some s → s.Kept l i
  midway : ∀ session tests, e.midway = some (session, tests) →
    OpenedOn l session (e.shifts.length - 1)
  hired : ∀ turn ∈ l, ∀ i w, turn.hires i w = true → i < e.shifts.length

theorem length_le_ensureShift (e : Engine) : e.shifts.length ≤ e.ensureShift.shifts.length := by
  rcases e.ensureShift_cases with ⟨-, -, -, -, he⟩ | he
  · exact Nat.le_of_eq (by rw [he])
  · rw [he]
    exact Nat.le_succ _

theorem length_change (now : Moment) (a : Action) (h : e.Change now a e') :
    e.shifts.length ≤ e'.shifts.length := by
  rcases midway_change now a h with ⟨_, -, -, -, hl⟩ | ⟨-, -, hl⟩ | ⟨-, -, hl⟩
  · rw [hl]
    exact e.length_le_ensureShift
  · exact Nat.le_of_eq hl.symm
  · exact Nat.le_of_eq hl.symm

/-- A shift that is there stays there, whoever acts: the action is a step of it, or it rests. -/
theorem exists_step (hs : e.nth i = some s) (now : Moment) (a : Action) (h : e.Change now a e') :
    ∃ s', e'.nth i = some s' ∧ e.Step now a i s s' := by
  have hlt := lt_of_nth hs
  have hle := length_change now a h
  obtain ⟨s', hs'⟩ : ∃ s', e'.nth i = some s' :=
    ⟨_, List.getElem?_eq_getElem (by rw [List.length_reverse]; omega)⟩
  refine ⟨s', hs', ?_⟩
  rcases step_of_change h hs' with ⟨u, hu, hstep⟩ | ⟨hi, -, -⟩
  · rw [hs] at hu
    rwa [← Option.some.inj hu] at hstep
  · omega

theorem lt_of_hires (now : Moment) (a : Action) (h : e.Change now a e') (w : WorkerId)
    (hw : (⟨e, now, a⟩ : Turn).hires i w = true) : i < e.shifts.length := by
  rw [Turn.hires, Bool.and_eq_true, decide_eq_true_eq, decide_eq_true_eq] at hw
  obtain ⟨hplace, hw⟩ := hw
  obtain ⟨k, hk, rfl⟩ := Option.map_eq_some_iff.mp hplace
  cases h with
  | works _ k' s s' hk' hs _ =>
    change a.shift? = some k at hk
    rw [hk] at hk'
    cases hk'
    exact place_lt (lt_of_shift hs)
  | hands _ k' s s' x desk more hk' hn hs _ _ =>
    change a.hired? = some w at hw
    rw [hn] at hw
    cases hw
  | _ => cases hk

theorem placed_change {l : List Turn} {asked : List QueueEntry} (h : e.Placed l)
    (hb : e.Books asked) (now : Moment) (a : Action) (hc : e.Change now a e') :
    e'.Placed (l ++ [⟨e, now, a⟩]) := by
  refine ⟨?_, ?_, ?_⟩
  · intro i s' hs'
    rcases step_of_change hc hs' with ⟨s, hs, hstep⟩ | ⟨hi, hn, n, rfl⟩
    · have hmem := mem_of_nth hs
      exact kept_step (h.shifts i s hs) now a (hb.sound s hmem) (hb.nodup_shift s hmem) hstep
        h.midway
    · -- A fresh shift has nothing yet, and nobody could be hired for it before.
      refine ⟨fun x hx => absurd hx List.not_mem_nil, fun y hy => absurd hy List.not_mem_nil, ?_⟩
      intro w
      have hnone : l.countP (Turn.hires i w) = 0 := by
        rw [List.countP_eq_zero]
        intro turn hl hw
        have hlt := h.hired turn hl i w hw
        omega
      rw [countP_concat, hnone, hires_of_hired now a w hn]
      rfl
  · intro session tests hm
    rcases midway_change now a hc with ⟨names, rfl, -, hmid, hl⟩ | ⟨-, hmid, -⟩ | ⟨-, hmid, hl⟩
    · rw [hm] at hmid
      cases hmid
      refine ⟨⟨e, now, .openSession names⟩, by simp, names, rfl, ?_⟩
      rw [hl]
      rfl
    · rw [hm] at hmid
      cases hmid
    · rw [hl]
      exact (h.midway session tests (hmid ▸ hm)).append _
  · intro turn hl i w hw
    have hle := length_change now a hc
    rcases List.mem_append.mp hl with hl | hl
    · have hlt := h.hired turn hl i w hw
      omega
    · rw [List.mem_singleton.mp hl] at hw
      have hlt := lt_of_hires now a hc w hw
      omega

variable {settings : EngineSettings} {limit capacity : Nat} {history : History} {l : List Turn}

theorem placed_run (h : (fresh settings limit capacity history).Run l e) : e.Placed l := by
  induction h with
  | start =>
    refine ⟨fun i s hs => ?_, fun session tests hm => ?_, fun turn hl => absurd hl List.not_mem_nil⟩
    · simp [nth, fresh, ofSettings] at hs
    · cases hm
  | step l d now a e' hrun ha ih =>
    exact placed_change ih (books_run hrun) now a (change_of_act d now a e' ha)

end Engine

end Retest
