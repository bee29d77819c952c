import Retest.Proofs.Homes

namespace Retest

namespace Shift

/-- A shift whose shutdown has come back: it was called off, its queue and its permits are closed,
and its loop is over. -/
structure Stopped (s : Shift) : Prop where
  cancelled : s.cancelled = true
  queue : s.queue.closed = true
  permits : s.permits.closed = true
  phase : s.phase = .over

instance (s : Shift) : Decidable s.Stopped :=
  decidable_of_iff
    (s.cancelled = true ∧ s.queue.closed = true ∧ s.permits.closed = true ∧ s.phase = .over)
    ⟨fun h => ⟨h.1, h.2.1, h.2.2.1, h.2.2.2⟩, fun h => ⟨h.cancelled, h.queue, h.permits, h.phase⟩⟩

variable {s s' : Shift}

theorem Stopped.empty (h : s.Stopped) (hs : s.Sound) :
    s.queue.entries = [] ∧ s.dispatches = [] ∧ s.errands = [] ∧ s.pool.idle = [] := by
  obtain ⟨hq, hd⟩ := hs.swept (by rw [h.phase]; rfl)
  obtain ⟨he, hi⟩ := hs.ended h.phase
  exact ⟨hq, hd, he, hi⟩

theorem Stopped.pending (h : s.Stopped) (hs : s.Sound) : s.pending = [] := by
  obtain ⟨hq, hd, -, -⟩ := h.empty hs
  rw [Shift.pending, hq, hd, h.phase]
  rfl

theorem Stopped.outstanding (h : s.Stopped) (hs : s.Sound) : s.outstanding = [] := by
  obtain ⟨-, hd, he, -⟩ := h.empty hs
  rw [Shift.outstanding, hd, he]
  rfl

theorem Stopped.connections (h : s.Stopped) (hs : s.Sound) : s.connections = s.retired := by
  obtain ⟨-, hd, -, hi⟩ := h.empty hs
  rw [Shift.connections, hd, hi]
  rfl

end Shift

namespace Engine

variable {settings : EngineSettings} {limit capacity : Nat} {history : History} {l : List Turn}
variable {e e' : Engine} {i : Nat} {s s' : Shift}

end Engine

end Retest
