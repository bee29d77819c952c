import Retest.Proofs.Sessions

namespace Retest

namespace Shift

/-- Nothing is queued, held or under way. A batch that is given up is held until its errands are
done. -/
structure Quiet (s : Shift) : Prop where
  queue : s.queue.entries = []
  phase : s.phase.held = []
  errands : s.errands = []
  dispatches : s.dispatches = []

instance (s : Shift) : Decidable s.Quiet :=
  decidable_of_iff (s.queue.entries = [] ∧ s.phase.held = [] ∧ s.errands = [] ∧ s.dispatches = [])
    ⟨fun h => ⟨h.1, h.2.1, h.2.2.1, h.2.2.2⟩, fun h => ⟨h.queue, h.phase, h.errands, h.dispatches⟩⟩

theorem Quiet.pending {s : Shift} (h : s.Quiet) : s.pending = [] := by
  rw [Shift.pending, h.queue, h.phase, h.dispatches]
  rfl

theorem Quiet.outstanding {s : Shift} (h : s.Quiet) : s.outstanding = [] := by
  rw [Shift.outstanding, h.errands, h.dispatches]
  rfl

end Shift

namespace Engine

structure Quiet (e : Engine) : Prop where
  midway : e.midway = none
  shifts : ∀ s ∈ e.shifts, s.Quiet

instance (e : Engine) : Decidable e.Quiet :=
  decidable_of_iff (e.midway.isNone = true ∧ ∀ s ∈ e.shifts, s.Quiet)
    ⟨fun h => ⟨Option.isNone_iff_eq_none.mp h.1, h.2⟩,
      fun h => ⟨Option.isNone_iff_eq_none.mpr h.midway, h.shifts⟩⟩

theorem Quiet.pending {e : Engine} (h : e.Quiet) : e.pending = [] := by
  rw [Engine.pending, h.midway, halfway, List.nil_append, List.flatMap_eq_nil_iff]
  exact fun s hs => (h.shifts s hs).pending

theorem Quiet.outstanding {e : Engine} (h : e.Quiet) : e.outstanding = [] := by
  rw [Engine.outstanding, List.flatMap_eq_nil_iff]
  exact fun s hs => (h.shifts s hs).outstanding

/-- At every moment of every run each test of a session has at most one result, and only tests that
were pushed in the session have one. Once nothing is under way, each name that was given to a
session has one, and each session has ended once. -/
theorem results_exactly_once (settings : EngineSettings) (limit capacity : Nat) (history : History)
    (l : List Turn) (e : Engine) (h : (fresh settings limit capacity history).Run l e) :
    (∀ x, e.desk.feed.resultCount x ≤ 1) ∧
      (∀ x, 0 < e.desk.feed.resultCount x →
        (∃ turn ∈ l, ∃ names, turn.opens = some (x.session, names) ∧ x.test ∈ names) ∧
          ∃ turn ∈ l, ∃ names, turn.pushes = some (x.session, names) ∧ x.test ∈ names) ∧
      (e.Quiet → ∀ turn ∈ l, ∀ session names, turn.opens = some (session, names) →
        (∀ t ∈ names, e.desk.feed.resultCount ⟨session, t⟩ = 1) ∧
          e.desk.feed.completeCount session = 1) := by
  have hbooks := books_run h
  have hone (x : QueueEntry) : (askedIn l).count x ≤ 1 :=
    List.nodup_iff_count_le_one.mp hbooks.nodup x
  refine ⟨?_, ?_, ?_⟩
  · intro x
    have hx := hbooks.results x
    have hle := hone x
    omega
  · intro x hpos
    have hx := hbooks.results x
    have hle := hone x
    have hasked : x ∈ askedIn l := List.count_pos_iff.mp (by omega)
    -- A test of the push that is midway still waits, so it has no result.
    refine ⟨of_mem_askedIn l x hasked, (pushed_run h x hasked).resolve_left fun hm => ?_⟩
    have hwaits : 0 < e.pending.count x := by
      rw [List.count_pos_iff, pending]
      exact List.mem_append_left _ hm
    omega
  · intro hq turn hl session names ho
    obtain ⟨hfirst, hlast⟩ := opened_run h turn session names hl ho
    obtain ⟨hresults, -, hcomplete⟩ := hbooks.settled session (by simp [hq.pending])
      (by simp [hq.outstanding])
    refine ⟨?_, hcomplete hfirst hlast⟩
    intro t ht
    rw [hresults t]
    exact hbooks.count_asked turn session names t hl ho ht

def soloTrial : List (Moment × Action) :=
  [.openSession ["a", "a"], .push, .fetch 0, .allow 0, .checkout 0 0 fun _ => true,
    .connected 0 0 (.ok ⟨1⟩), .hear 0 0 (.finished "a" .pass none), .deliverFor 0 0,
    .deliverFor 0 0, .deliverFor 0 0, .deliverFor 0 0, .hear 0 0 (.finished "a" .fail none),
    .conclude 0 0 (.ok ()), .checkin 0 0 true, .leave 0 0].map fun a => (default, a)

theorem solo_trial_has_one_result : ∃ l e, (fresh {} 1 1 {}).Run l e ∧ e.Quiet ∧
    e.desk.feed.resultCount ⟨1, "a"⟩ = 1 ∧ e.desk.feed.completeCount 1 = 1 := by
  have htrial : ((fresh {} 1 1 {}).follow soloTrial).any (fun r =>
      decide r.2.Quiet && r.1.any fun turn => turn.opens = some (1, ["a", "a"])) = true := by
    decide +kernel
  obtain ⟨⟨l, e⟩, hf, ht⟩ := (Option.any_eq_true _ _).mp htrial
  simp only [Bool.and_eq_true, decide_eq_true_eq, List.any_eq_true] at ht
  obtain ⟨hquiet, turn, hl, ho⟩ := ht
  have hrun := run_of_follow soloTrial (l, e) hf
  obtain ⟨-, -, honce⟩ := results_exactly_once {} 1 1 {} l e hrun
  obtain ⟨hresults, hcomplete⟩ := honce hquiet turn hl 1 ["a", "a"] ho
  exact ⟨l, e, hrun, hquiet, hresults "a" List.mem_cons_self, hcomplete⟩

end Engine

end Retest
