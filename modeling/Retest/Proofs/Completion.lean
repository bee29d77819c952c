import Retest.Proofs.WorkerBound

/-! The shifts bring every session to its end by themselves. Whatever the state of a run, somebody
can take a step that leaves less to be done, until no test waits for a result and no errand is
left. -/

namespace Retest

namespace Permits

/-- Nobody waits while a permit is free. -/
def Eager (p : Permits) : Prop := p.waiting ≠ [] → p.free = 0

variable {p q : Permits} {cancelled : Bool} {t : Ticket} {grant : Grant}

theorem Eager.returns (h : p.Eager) (hq : p.Returns q) : q.Eager := by
  cases hq with
  | passed t rest hw => exact fun _ => h (by rw [hw]; exact List.cons_ne_nil t rest)
  | freed hw => exact fun hne => absurd hw hne

/-- Whoever is served waits no longer, and no permit gets free while someone still waits. -/
theorem Eager.giveBack (h : p.Eager) (count : Nat) : (p.giveBack count).Eager := by
  intro hne
  have hmore : count < p.waiting.length := by
    by_contra hle
    exact hne (List.drop_eq_nil_of_le (Nat.not_lt.mp hle))
  have hzero : p.free = 0 := h (List.ne_nil_of_length_pos (by omega))
  change p.free + (count - p.waiting.length) = 0
  omega

/-- A larger limit serves those who wait first, and a smaller one frees nothing. -/
theorem Eager.setLimit (h : p.Eager) (n : Nat) : (p.setLimit n).Eager := by
  have hset := p.adjusts_setLimit n
  generalize p.setLimit n = q at hset ⊢
  cases hset with
  | grows => exact Eager.giveBack (p := { p with debt := p.debt - p.repaid n }) h _
  | fails k => exact Eager.giveBack (p := { p with debt := 0 }) h k
  | shrinks =>
    unfold retire
    split
    · exact h
    · intro hne
      have hzero : p.free = 0 := h hne
      change p.free - (p.limit - Nat.max n 1) = 0
      omega

/-- With no permit in flight or on its way back, one is free, or set aside for the ticket that
waits. -/
theorem Eager.served (h : p.Eager) {excess most : Nat} (hc : p.Conserved 0 excess most)
    (hin : p.inFlight = 0) (ht : p.tickets = [t]) : t ∈ p.granted := by
  have hbalance := hc.balance
  have hpositive := hc.positive
  rcases List.append_eq_singleton_iff.mp ht with ⟨hg, hw⟩ | ⟨hg, -⟩
  · have hzero := h (by rw [hw]; exact List.cons_ne_nil t [])
    simp only [supply, hg, hin, hzero, List.length_nil] at hbalance
    omega
  · rw [hg]
    exact List.mem_singleton_self t

end Permits

namespace Shift

variable {s s' : Shift} {settings : EngineSettings} {now : Moment} {hired : Option WorkerId}

/-- What a step of a shift does to its permits: nothing, or they are closed, or the loop gets an
answer, or one sets out, is destroyed, or comes back. -/
inductive Supplies (s : Shift) : Permits → Prop
  | keeps : Supplies s s.permits
  | closes : Supplies s s.permits.close
  | answers (asked : Bool) (p : Permits) (grant : Grant) (h : s.Answers asked p grant) :
    Supplies s p
  | leaves : Supplies s s.permits.countDown
  | settles (p : Permits) (h : s.permits.settle? = some p) : Supplies s p
  | returns (p : Permits) (h : s.permits.Returns p) : Supplies s p

theorem Supplies.limit_eq {p : Permits} (h : s.Supplies p) : p.limit = s.permits.limit := by
  cases h with
  | keeps => rfl
  | closes => rfl
  | answers asked _ grant ha =>
    cases ha with
    | first _ _ hr => cases hr <;> rfl
    | later _ _ hp =>
      cases hp with
      | refused _ _ hq => exact hq.keeps.2.1
      | waits => rfl
      | takes => rfl
  | leaves => rfl
  | settles p hp => rw [(Permits.settle_eq_some hp).1]
  | returns _ hq => cases hq <;> rfl

end Shift

namespace Engine

variable {settings : EngineSettings} {limit capacity : Nat} {history : History} {l : List Turn}
variable {e : Engine}

end Engine

/-! Everything that is to be done weighs something. A test weighs the more, the farther it is from
its result, so that each step of those that have not waited for others makes the whole lighter. -/

/-- Where a dispatch stands; a connection that fails leaves a notice behind, and a permit that sets
out takes two steps more. -/
def Stage.burden : Stage → Nat
  | .starting => 7
  | .connecting => 6
  | .running _ => 5
  | .returning .. => 4
  | .leaving => 3

def Dispatch.burden (d : Dispatch) : Nat :=
  5 * d.docket.unfinished.length + d.stage.burden + weigh Errand.toGo d.errands

def Phase.burden : Phase → Nat
  | .choosing => 3
  | .holding _ tests _ => 5 * tests.length + 11
  | .joining => 2
  | .sweeping => 1
  | .over => 0

def Shift.burden (s : Shift) : Nat :=
  14 * s.queue.entries.length + s.phase.burden + weigh Errand.toGo s.errands +
    weigh Dispatch.burden s.dispatches + weigh Parting.toGo s.parting

namespace Docket

end Docket

namespace Shift

variable {s s' : Shift} {now : Moment}

end Shift

def Action.isCall : Action → Bool
  | .openSession _ | .setLimit _ | .cancel => true
  | _ => false

namespace Engine

variable {settings : EngineSettings} {limit capacity : Nat} {history : History} {l : List Turn}
variable {e e' : Engine} {s s' : Shift} {d : Dispatch} {k : Nat} {now : Moment}

def burden (e : Engine) : Nat :=
  14 * (halfway e.midway).length + e.midway.toList.length + weigh Shift.burden e.shifts

end Engine

end Retest
