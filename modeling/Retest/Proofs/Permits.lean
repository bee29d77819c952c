import Mathlib.Data.List.Nodup
import Retest.Run.Permits

/-! What can become of a supply of permits by each operation, told once by cases, and how many
permits there are then: as many as the limit and the debt say, and never more than the largest limit
so far. -/

namespace Retest.Permits

/-- All permits that exist: free, held, or set aside. -/
def supply (p : Permits) : Nat := p.free + p.inFlight + p.granted.length

/-- Everybody who has asked and has not come back for an answer, the first to be served in front. -/
def tickets (p : Permits) : List Ticket := p.granted ++ p.waiting

inductive Returns (p : Permits) : Permits → Prop
  | passed (t : Ticket) (rest : List Ticket) (hw : p.waiting = t :: rest) :
    Returns p { p with waiting := rest, granted := p.granted ++ [t] }
  | freed (hw : p.waiting = []) : Returns p { p with free := p.free + 1 }

inductive Abandons (p : Permits) (t : Ticket) : Permits → Prop
  | unserved (hg : t ∉ p.granted) : Abandons p t { p with waiting := p.waiting.filter (· ≠ t) }
  | returned (q : Permits) (hg : t ∈ p.granted)
    (hq : Returns
      { p with waiting := p.waiting.filter (· ≠ t), granted := p.granted.erase t } q) :
    Abandons p t q

inductive Requests (p : Permits) (cancelled : Bool) (t : Ticket) : Permits → Grant → Prop
  | refused (hr : cancelled = true ∨ p.closed = true) : Requests p cancelled t p .refused
  | waits (ho : p.closed = false) (hf : p.free = 0) :
    Requests p cancelled t { p with waiting := p.waiting ++ [t] } .waiting
  | takes (n : Nat) (ho : p.closed = false) (hf : p.free = n + 1) :
    Requests p cancelled t { p with free := n, inFlight := p.inFlight + 1 } .held

inductive Polls (p : Permits) (cancelled : Bool) (t : Ticket) : Permits → Grant → Prop
  | refused (q : Permits) (hr : cancelled = true ∨ p.closed = true) (hq : p.Abandons t q) :
    Polls p cancelled t q .refused
  | waits (ho : p.closed = false) (hg : t ∉ p.granted) : Polls p cancelled t p .waiting
  | takes (ho : p.closed = false) (hg : t ∈ p.granted) :
    Polls p cancelled t { p with granted := p.granted.erase t, inFlight := p.inFlight + 1 } .held

inductive Releases (p : Permits) : Permits → Prop
  | settles (d : Nat) (hd : p.debt = d + 1) :
    Releases p { p with inFlight := p.inFlight - 1, debt := d }
  | returned (q : Permits) (hd : p.debt = 0)
    (hq : Returns { p with inFlight := p.inFlight - 1 } q) : Releases p q

/-- What a new limit does. It grows the supply or shrinks it; if it is refused, nothing is owed any
more, and some permits may have been added. -/
inductive Adjusts (p : Permits) (n : Nat) : Permits → Prop
  | grows (hlt : p.limit < Nat.max n 1) (hr : p.refuses n = false) :
    Adjusts p n { { p with debt := p.debt - p.repaid n }.giveBack (p.added n) with
      limit := Nat.max n 1 }
  | fails (k : Nat) (hr : p.refuses n = true) :
    Adjusts p n ({ p with debt := 0 }.giveBack k)
  | shrinks (hle : Nat.max n 1 ≤ p.limit) (hr : p.refuses n = false) :
    Adjusts p n { p.retire (p.limit - Nat.max n 1) with limit := Nat.max n 1 }

variable (p : Permits)

theorem returns_giveBack : p.Returns (p.giveBack 1) := by
  cases hw : p.waiting with
  | nil =>
    have hq : p.giveBack 1 = { p with free := p.free + 1 } := by simp [giveBack, hw]
    rw [hq]
    exact .freed hw
  | cons t rest =>
    have hq : p.giveBack 1 = { p with waiting := rest, granted := p.granted ++ [t] } := by
      simp [giveBack, hw]
    rw [hq]
    exact .passed t rest hw

theorem abandons_abandon (t : Ticket) : p.Abandons t (p.abandon t) := by
  unfold abandon
  split
  · next hg => exact .returned _ (List.contains_iff_mem.mp hg) (returns_giveBack _)
  · next hg =>
    have hmem : t ∉ p.granted := fun h => hg (List.contains_iff_mem.mpr h)
    rw [List.erase_of_not_mem hmem]
    exact .unserved hmem

theorem requests_requestUnless (cancelled : Bool) (t : Ticket) :
    p.Requests cancelled t (p.requestUnless cancelled t).1 (p.requestUnless cancelled t).2 := by
  unfold requestUnless
  split
  · next hc => exact .refused (Or.inl hc)
  · unfold request
    split
    · next ho => exact .refused (Or.inr ho)
    · next ho =>
      have hopen : p.closed = false := Bool.not_eq_true _ ▸ ho
      split
      · next hf => exact .waits hopen hf
      · next n hf => exact .takes n hopen hf

theorem polls_pollUnless (cancelled : Bool) (t : Ticket) :
    p.Polls cancelled t (p.pollUnless cancelled t).1 (p.pollUnless cancelled t).2 := by
  unfold pollUnless
  split
  · next hc => exact .refused _ (Or.inl hc) (p.abandons_abandon t)
  · unfold poll
    split
    · next ho => exact .refused _ (Or.inr ho) (p.abandons_abandon t)
    · next ho =>
      have hopen : p.closed = false := Bool.not_eq_true _ ▸ ho
      split
      · next hg => exact .takes hopen (List.contains_iff_mem.mp hg)
      · next hg => exact .waits hopen fun h => hg (List.contains_iff_mem.mpr h)

theorem releases_release : p.Releases p.release := by
  unfold release settle? countDown
  dsimp only
  split
  · next hd => exact .returned _ hd (returns_giveBack _)
  · next d hd => exact .settles d hd

/-- A limit that is not larger calls for no new permits, and nobody is refused none. -/
theorem added_eq_zero {n : Nat} (h : Nat.max n 1 ≤ p.limit) :
    p.added n = 0 ∧ p.refuses n = false := by
  have hzero : p.added n = 0 := by
    unfold added
    omega
  refine ⟨hzero, ?_⟩
  simp [refuses, canAdd, hzero]

/-- Whoever is refused has asked for new permits, so the whole debt is repaid by then. -/
theorem repaid_of_refuses {n : Nat} (h : p.refuses n = true) :
    p.repaid n = p.debt ∧ p.limit < Nat.max n 1 := by
  have hpos : 0 < p.added n := by
    by_contra hzero
    simp [refuses, canAdd, Nat.eq_zero_of_not_pos hzero] at h
  have hrepaid : p.repaid n = min (Nat.max n 1 - p.limit) p.debt := rfl
  unfold added at hpos
  omega

theorem adjusts_setLimit (n : Nat) : p.Adjusts n (p.setLimit n) := by
  unfold setLimit
  split
  · next hlt =>
    cases hr : p.refuses n with
    | true =>
      have hdebt : p.debt - p.repaid n = 0 := by rw [(p.repaid_of_refuses hr).1, Nat.sub_self]
      rw [if_pos rfl, hdebt]
      exact .fails _ hr
    | false =>
      have hfits : p.added n - p.waiting.length ≤ maxPermits := by
        simp only [refuses, canAdd, Bool.not_eq_false', Bool.or_eq_true, decide_eq_true_eq] at hr
        omega
      rw [if_neg Bool.false_ne_true, add, if_pos hfits]
      exact .grows hlt hr
  · next hle =>
    have hle := Nat.le_of_not_lt hle
    exact .shrinks hle (p.added_eq_zero hle).2

theorem supply_giveBack (count : Nat) : (p.giveBack count).supply = p.supply + count := by
  have hmoved : (p.waiting.take count).length = min count p.waiting.length := List.length_take
  simp only [giveBack, supply, List.length_append, hmoved]
  omega

theorem tickets_giveBack (count : Nat) : (p.giveBack count).tickets = p.tickets := by
  simp only [giveBack, tickets, List.append_assoc, List.take_append_drop]

variable {p} {q : Permits} {most : Nat} {t : Ticket}

theorem Returns.supply_eq (h : p.Returns q) : q.supply = p.supply + 1 := by
  cases h with
  | passed t rest hw =>
    simp only [supply, List.length_append, List.length_singleton]
    omega
  | freed hw =>
    simp only [supply]
    omega

theorem Returns.inFlight_eq (h : p.Returns q) : q.inFlight = p.inFlight := by cases h <;> rfl

theorem Returns.tickets_eq (h : p.Returns q) : q.tickets = p.tickets := by
  cases h with
  | passed t rest hw => simp only [tickets, hw, List.append_assoc, List.singleton_append]
  | freed hw => rfl

theorem supply_take {n : Nat} (hf : p.free = n + 1) :
    ({ p with free := n, inFlight := p.inFlight + 1 } : Permits).supply = p.supply := by
  simp only [supply, hf]
  omega

theorem supply_collect (hg : t ∈ p.granted) :
    ({ p with granted := p.granted.erase t, inFlight := p.inFlight + 1 } : Permits).supply =
      p.supply := by
  have hpos : 0 < p.granted.length := List.length_pos_of_mem hg
  simp only [supply, List.length_erase_of_mem hg]
  omega

theorem Releases.tickets_eq (h : p.Releases q) : q.tickets = p.tickets := by
  cases h with
  | settles => rfl
  | returned _ hd hq => exact hq.tickets_eq

/-- What destroying permits does not take from the supply, it adds to the debt. -/
theorem supply_retire (p : Permits) (count : Nat) :
    p.supply + (p.retire count).debt = (p.retire count).supply + p.debt + count ∧
      (p.retire count).supply ≤ p.supply := by
  unfold retire
  split
  · simp only [supply]
    omega
  · simp only [supply]
    omega

/-- Permits are conserved. Those that exist, and those that are on their way back, make up the limit
and what is owed, if no new limit was ever refused; else there may be some more. And there are no
more than there was ever leave for. -/
structure Conserved (way excess most : Nat) (p : Permits) : Prop where
  balance : p.supply + way = p.limit + p.debt + excess
  positive : 0 < p.limit
  bounded : p.supply + way ≤ most

variable {way excess : Nat}

theorem Conserved.mono {more : Nat} (h : p.Conserved way excess most) (hle : most ≤ more) :
    p.Conserved way excess more := ⟨h.balance, h.positive, Nat.le_trans h.bounded hle⟩

theorem Conserved.of_eq (h : p.Conserved way excess most) (hs : q.supply = p.supply)
    (hl : q.limit = p.limit) (hd : q.debt = p.debt) : q.Conserved way excess most where
  balance := by rw [hs, hl, hd, h.balance]
  positive := by rw [hl]; exact h.positive
  bounded := by rw [hs]; exact h.bounded

theorem conserved_ofLimit (n : Nat) : (ofLimit n).Conserved 0 0 (Nat.max n 1) where
  balance := rfl
  positive := Nat.le_max_right n 1
  bounded := Nat.le_refl _

/-- A held permit sets out on its way back. -/
theorem Conserved.countDown (h : p.Conserved way excess most) (hpos : 0 < p.inFlight) :
    p.countDown.Conserved (way + 1) excess most := by
  have hbalance := h.balance
  have hbounded := h.bounded
  simp only [supply] at hbalance hbounded
  refine ⟨?_, h.positive, ?_⟩
  · simp only [Permits.countDown, supply]
    omega
  · simp only [Permits.countDown, supply]
    omega

theorem settle_eq_some (hq : p.settle? = some q) : q = { p with debt := q.debt } ∧
    q.debt + 1 = p.debt := by
  unfold settle? at hq
  split at hq
  · cases hq
  · next d hd =>
    rw [← Option.some.inj hq]
    exact ⟨rfl, hd.symm⟩

/-- A permit on its way back is destroyed, and one less is owed. -/
theorem Conserved.settle (h : p.Conserved (way + 1) excess most) (hq : p.settle? = some q) :
    q.Conserved way excess most := by
  obtain ⟨hsame, hdebt⟩ := settle_eq_some hq
  have hbalance := h.balance
  have hbounded := h.bounded
  have hsupply : q.supply = p.supply := by rw [hsame]; rfl
  have hlimit : q.limit = p.limit := by rw [hsame]
  refine ⟨?_, ?_, ?_⟩
  · omega
  · rw [hlimit]
    exact h.positive
  · omega

/-- A permit on its way back has arrived. -/
theorem Conserved.returns (h : p.Conserved (way + 1) excess most) (hq : p.Returns q) :
    q.Conserved way excess most := by
  have hbalance := h.balance
  have hbounded := h.bounded
  have hsupply := hq.supply_eq
  have hsame : q.limit = p.limit ∧ q.debt = p.debt := by cases hq <;> exact ⟨rfl, rfl⟩
  refine ⟨?_, ?_, ?_⟩
  · omega
  · rw [hsame.1]
    exact h.positive
  · omega

/-- Only the tickets change, and the permits change places. -/
theorem Abandons.keeps (h : p.Abandons t q) :
    q.supply = p.supply ∧ q.limit = p.limit ∧ q.debt = p.debt ∧ q.inFlight = p.inFlight ∧
      q.closed = p.closed := by
  cases h with
  | unserved hg => exact ⟨rfl, rfl, rfl, rfl, rfl⟩
  | returned _ hg hq =>
    have hpos : 0 < p.granted.length := List.length_pos_of_mem hg
    have hone : (p.granted.erase t).length = p.granted.length - 1 := List.length_erase_of_mem hg
    have hs := hq.supply_eq
    have hsupply : q.supply = p.supply := by
      simp only [supply, hone] at hs ⊢
      omega
    cases hq with
    | passed => exact ⟨hsupply, rfl, rfl, rfl, rfl⟩
    | freed => exact ⟨hsupply, rfl, rfl, rfl, rfl⟩

/-- Without a twin of its own a ticket that goes away is gone. -/
theorem Abandons.mem_tickets (h : p.Abandons t q) (hn : p.tickets.Nodup) (u : Ticket)
    (hu : u ∈ q.tickets) : u ∈ p.tickets ∧ u ≠ t := by
  have hsplit := List.nodup_append.mp hn
  have hafter : u ∈ p.granted.erase t ∨ u ∈ p.waiting.filter (· ≠ t) := by
    cases h with
    | unserved hg =>
      rw [List.erase_of_not_mem hg]
      exact List.mem_append.mp hu
    | returned _ hg hq =>
      rw [hq.tickets_eq] at hu
      exact List.mem_append.mp hu
  rcases hafter with hg | hw
  · have hmem := (List.Nodup.mem_erase_iff hsplit.1).mp hg
    exact ⟨List.mem_append_left _ hmem.2, hmem.1⟩
  · have hmem := List.mem_filter.mp hw
    exact ⟨List.mem_append_right _ hmem.1, by simpa using hmem.2⟩

theorem Abandons.nodup (h : p.Abandons t q) (hn : p.tickets.Nodup) : q.tickets.Nodup := by
  have hsub : (p.granted.erase t ++ p.waiting.filter (· ≠ t)).Sublist p.tickets :=
    (List.erase_sublist).append List.filter_sublist
  cases h with
  | unserved hg =>
    rw [List.erase_of_not_mem hg] at hsub
    exact hn.sublist hsub
  | returned _ hg hq =>
    rw [hq.tickets_eq]
    exact hn.sublist hsub

theorem Conserved.release (h : p.Conserved way excess most) (hpos : 0 < p.inFlight)
    (hr : p.Releases q) : q.Conserved way excess most ∧ q.inFlight + 1 = p.inFlight := by
  have hout := h.countDown hpos
  have hless : p.inFlight - 1 + 1 = p.inFlight := Nat.sub_add_cancel hpos
  cases hr with
  | settles d hd =>
    have hsettled : p.countDown.settle? = some { p.countDown with debt := d } := by
      simp only [settle?, Permits.countDown, hd]
    exact ⟨hout.settle hsettled, hless⟩
  | returned _ hd hq =>
    have hin : q.inFlight = p.inFlight - 1 := hq.inFlight_eq
    refine ⟨hout.returns hq, ?_⟩
    rw [hin, hless]

variable {n : Nat}

theorem limit_setLimit (p : Permits) (n : Nat) :
    (p.setLimit n).limit = if p.refuses n then p.limit else Nat.max n 1 := by
  have h := p.adjusts_setLimit n
  generalize p.setLimit n = q at h ⊢
  cases h with
  | grows _ hr => rw [hr]; rfl
  | fails k hr => rw [hr]; rfl
  | shrinks _ hr => rw [hr]; rfl

/-- A new limit changes neither who holds a permit nor who waits for one. -/
theorem Adjusts.keeps (h : p.Adjusts n q) :
    q.inFlight = p.inFlight ∧ q.tickets = p.tickets ∧ q.closed = p.closed := by
  cases h with
  | grows => exact ⟨rfl, tickets_giveBack { p with debt := _ } _, rfl⟩
  | fails k => exact ⟨rfl, tickets_giveBack { p with debt := 0 } k, rfl⟩
  | shrinks =>
    unfold retire
    split <;> exact ⟨rfl, rfl, rfl⟩

theorem inFlight_setLimit (p : Permits) (n : Nat) : (p.setLimit n).inFlight = p.inFlight :=
  (p.adjusts_setLimit n).keeps.1

theorem tickets_setLimit (p : Permits) (n : Nat) : (p.setLimit n).tickets = p.tickets :=
  (p.adjusts_setLimit n).keeps.2.1

theorem closed_setLimit (p : Permits) (n : Nat) : (p.setLimit n).closed = p.closed :=
  (p.adjusts_setLimit n).keeps.2.2

/-- A limit that is not refused adds to the debt or takes from it what it does not add to or take
from the supply. -/
theorem Conserved.setLimit (h : p.Conserved way excess most) (hr : p.refuses n = false) :
    (p.setLimit n).Conserved way excess (max most (Nat.max n 1 + excess)) := by
  have hbalance := h.balance
  have hbounded := h.bounded
  have hpositive := h.positive
  have hn : 0 < Nat.max n 1 := Nat.le_max_right n 1
  have hset := p.adjusts_setLimit n
  generalize p.setLimit n = q at hset ⊢
  cases hset with
  | grows hlt =>
    -- What is repaid makes no new permit.
    have hsupply := supply_giveBack { p with debt := p.debt - p.repaid n } (p.added n)
    have hrepaid : p.repaid n = min (Nat.max n 1 - p.limit) p.debt := rfl
    have hadded : p.added n = Nat.max n 1 - p.limit - p.repaid n := rfl
    generalize Nat.max n 1 = m at *
    simp only [supply, giveBack] at hsupply hbalance hbounded
    refine ⟨?_, hn, ?_⟩
    · simp only [supply, giveBack]
      omega
    · simp only [supply, giveBack]
      omega
  | fails k hrefused =>
    rw [hr] at hrefused
    cases hrefused
  | shrinks hle =>
    obtain ⟨hsupply, hless⟩ := p.supply_retire (p.limit - Nat.max n 1)
    have hsame : ({ p.retire (p.limit - Nat.max n 1) with limit := Nat.max n 1 } : Permits).supply =
        (p.retire (p.limit - Nat.max n 1)).supply := rfl
    generalize Nat.max n 1 = m at *
    refine ⟨?_, hn, ?_⟩
    · rw [hsame]
      dsimp only
      omega
    · rw [hsame]
      omega

/-- A limit that is refused may leave more permits than before, and fewer owed. -/
theorem Conserved.refused (h : p.Conserved way excess most) (hr : p.refuses n = true) :
    ∃ more, (p.setLimit n).Conserved way (excess + more) (most + more) := by
  have hbalance := h.balance
  have hbounded := h.bounded
  have hset := p.adjusts_setLimit n
  generalize p.setLimit n = q at hset ⊢
  cases hset with
  | fails k =>
    have hsupply := supply_giveBack { p with debt := 0 } k
    have hsame : ({ p with debt := 0 } : Permits).supply = p.supply := rfl
    have hlimit : ({ p with debt := 0 }.giveBack k).limit = p.limit := rfl
    have hdebt : ({ p with debt := 0 }.giveBack k).debt = 0 := rfl
    refine ⟨p.debt + k, ?_, ?_, ?_⟩
    · omega
    · rw [hlimit]
      exact h.positive
    · omega
  | grows _ hno => rw [hr] at hno; cases hno
  | shrinks _ hno => rw [hr] at hno; cases hno

theorem Conserved.close (h : p.Conserved way excess most) : p.close.Conserved way excess most :=
  h.of_eq rfl rfl rfl

/-- While permits are owed, none is free. -/
def Spare (p : Permits) : Prop := 0 < p.debt → p.free = 0

theorem Spare.setLimit (h : p.Spare) (ho : p.closed = false) (n : Nat) : (p.setLimit n).Spare := by
  have hset := p.adjusts_setLimit n
  generalize p.setLimit n = q at hset ⊢
  cases hset with
  | grows =>
    have hrepaid : p.repaid n = min (Nat.max n 1 - p.limit) p.debt := rfl
    have hadded : p.added n = Nat.max n 1 - p.limit - p.repaid n := rfl
    intro hd
    simp only [giveBack] at hd ⊢
    have hfree : p.free = 0 := h (by omega)
    omega
  | fails k => exact fun hd => absurd hd (Nat.lt_irrefl 0)
  | shrinks =>
    unfold retire
    rw [ho]
    intro hd
    simp only [Bool.false_eq_true, if_false] at hd ⊢
    by_cases hdebt : 0 < p.debt
    · have hfree : p.free = 0 := h hdebt
      omega
    · omega

theorem Spare.debt_eq_zero (h : p.Spare) (hf : 0 < p.free) : p.debt = 0 := by
  by_contra hne
  have hnone := h (Nat.pos_of_ne_zero hne)
  omega

/-- With nobody there, all permits are free again. -/
theorem Spare.restored (h : p.Spare) (hc : p.Conserved 0 0 most) (hin : p.inFlight = 0)
    (hg : p.granted = []) : p.free = p.limit := by
  have hbalance := hc.balance
  have hpositive := hc.positive
  rw [supply, hin, hg, List.length_nil] at hbalance
  have hdebt : p.debt = 0 := h.debt_eq_zero (by omega)
  omega

end Retest.Permits
