import Retest.Proofs.PermitRuns

/-! Whether a new limit holds for those who ask after it was set. It does as long as no permit that
was set aside comes back unclaimed while surplus ones are out: such a permit is not destroyed, as a
held one would be. -/

namespace Retest.ConcurrencyController
open PermitMove

/-- Moves under which the supply stays open and the limit stays the same. -/
def Steady (moves : List PermitMove) : Prop := ∀ m ∈ moves, m.limit? = none ∧ m ≠ .close

instance (moves : List PermitMove) : Decidable (Steady moves) :=
  inferInstanceAs (Decidable (∀ m ∈ moves, m.limit? = none ∧ m ≠ .close))

/-- A claim with this ticket has asked and has no answer yet. -/
def Asked (h : ConcurrencyController) (t : Ticket) : Prop :=
  ∃ c ∈ h.claims, c.ticket = t ∧ c.asked = true

instance (h : ConcurrencyController) (t : Ticket) : Decidable (h.Asked t) :=
  inferInstanceAs (Decidable (∃ c ∈ h.claims, c.ticket = t ∧ c.asked = true))

/-- The later of two states keeps to the limit of the earlier one: whoever had not asked then and
gets a permit now finds no more than the limit in flight, and with nobody there all permits are
free. -/
structure Honours (h g : ConcurrencyController) : Prop where
  bound : ∀ t, ¬h.Asked t → t ∉ g.held → t ∈ (g.act (.poll t)).held →
    (g.act (.poll t)).permits.inFlight ≤ h.permits.limit
  restored : g.held = [] → (∀ c ∈ g.claims, c.asked = false) → g.permits.free = g.permits.limit

def Spills (h h' : ConcurrencyController) : Prop :=
  0 < h.permits.debt ∧ ∃ t ∈ h.permits.granted, t ∉ h'.permits.granted ∧ t ∉ h'.held

instance (h h' : ConcurrencyController) : Decidable (h.Spills h') :=
  inferInstanceAs (Decidable (0 < h.permits.debt ∧
    ∃ t ∈ h.permits.granted, t ∉ h'.permits.granted ∧ t ∉ h'.held))

def SpillFree : ConcurrencyController → List PermitMove → Prop
  | _, [] => True
  | h, m :: rest => ¬h.Spills (h.act m) ∧ (h.act m).SpillFree rest

def decideSpillFree :
    (h : ConcurrencyController) → (moves : List PermitMove) → Decidable (h.SpillFree moves)
  | _, [] => isTrue trivial
  | h, m :: rest =>
    have := decideSpillFree (h.act m) rest
    inferInstanceAs (Decidable (¬h.Spills (h.act m) ∧ (h.act m).SpillFree rest))

instance (h : ConcurrencyController) (moves : List PermitMove) : Decidable (h.SpillFree moves) :=
  decideSpillFree h moves

variable {h g g' : ConcurrencyController} {m : PermitMove} {excess most : Nat}

theorem steady_cons (more : List PermitMove) :
    Steady (m :: more) ↔ (m.limit? = none ∧ m ≠ .close) ∧ Steady more := List.forall_mem_cons

theorem steady_append (l r : List PermitMove) : Steady (l ++ r) ↔ Steady l ∧ Steady r :=
  List.forall_mem_append

theorem spillFree_append (l r : List PermitMove) :
    h.SpillFree (l ++ r) ↔ h.SpillFree l ∧ (h.run l).SpillFree r := by
  induction l generalizing h with
  | nil =>
    change h.SpillFree r ↔ True ∧ h.SpillFree r
    rw [true_and]
  | cons m l ih =>
    have htail := ih (h := h.act m)
    change ¬h.Spills (h.act m) ∧ (h.act m).SpillFree (l ++ r) ↔
      (¬h.Spills (h.act m) ∧ (h.act m).SpillFree l) ∧ ((h.act m).run l).SpillFree r
    rw [htail, and_assoc]

theorem closed_moves (hm : g.Moves m g') (hne : m ≠ .close) :
    g'.permits.closed = g.permits.closed := by
  cases hm with
  | leaves _ _ c q hc ha hq => exact hq.keeps.2.2.2.2
  | releases t q ht hq =>
    cases hq with
    | settles => rfl
    | returned _ hd hq => cases hq <;> rfl
  | adjusts n => exact g.permits.closed_setLimit n
  | closes => exact absurd rfl hne
  | _ => rfl

theorem open_after (n : Nat) (moves : List PermitMove) (hopen : .close ∉ moves) :
    (after n moves).permits.closed = false := by
  induction moves using List.reverseRecOn with
  | nil => rfl
  | append_singleton moves m ih =>
    have hne : m ≠ .close := by
      rintro rfl
      exact hopen (by simp)
    rw [after, run_concat, closed_moves (moves_act _ m) hne]
    exact ih fun hmem => hopen (List.mem_append_left _ hmem)

/-- As long as permits are owed and none is spilled, no permit gets free and none is set aside. -/
theorem owed_moves (ho : g.Orderly excess most) (hm : g.Moves m g') (hlimit : m.limit? = none)
    (hno : ¬g.Spills g') (hd : 0 < g'.permits.debt) :
    0 < g.permits.debt ∧ g'.permits.free ≤ g.permits.free ∧
      ∀ t ∈ g'.permits.granted, t ∈ g.permits.granted := by
  have hsame (t : Ticket) (ht : t ∈ g.permits.granted) : t ∈ g.permits.granted := ht
  cases hm with
  | leaves _ _ c q hc ha hq =>
    have hdebt : q.debt = g.permits.debt := hq.keeps.2.2.1
    have hd' : 0 < g.permits.debt := hdebt ▸ hd
    have hgone := hq.mem_tickets ho.distinct c.ticket
    cases hq with
    | unserved hg => exact ⟨hd', Nat.le_refl _, hsame⟩
    | returned _ hg hq =>
      -- The permit of the claim would come back unclaimed.
      refine absurd ⟨hd', c.ticket, hg, ?_, ho.apart c hc⟩ hno
      exact fun hmem => (hgone (List.mem_append_left _ hmem)).2 rfl
  | takes c n hc ha hopen hf =>
    refine ⟨hd, ?_, hsame⟩
    rw [hf]
    exact Nat.le_succ n
  | collects c hc ha hopen hg =>
    exact ⟨hd, Nat.le_refl _, fun t ht => List.mem_of_mem_erase ht⟩
  | releases t q ht hq =>
    cases hq with
    | settles d hdebt =>
      have hd' : 0 < g.permits.debt := by omega
      exact ⟨hd', Nat.le_refl _, hsame⟩
    | returned _ hdebt hq =>
      have hnone : q.debt = 0 := by cases hq <;> exact hdebt
      change 0 < q.debt at hd
      omega
  | adjusts n => cases hlimit
  | _ => exact ⟨hd, Nat.le_refl _, hsame⟩

theorem spare_act (ho : g.Orderly excess most) (hs : g.permits.Spare)
    (hopen : g.permits.closed = false)
    (m : PermitMove) (hno : ¬g.Spills (g.act m)) : (g.act m).permits.Spare := by
  have hkept (hlimit : m.limit? = none) : (g.act m).permits.Spare := by
    intro hd
    obtain ⟨hd', hle, -⟩ := owed_moves ho (g.moves_act m) hlimit hno hd
    have hfree := hs hd'
    omega
  cases m with
  | setLimit n => exact hs.setLimit hopen n
  | _ => exact hkept rfl

theorem steady_run (ho : h.Orderly excess most) (hopen : h.permits.closed = false)
    (more : List PermitMove) (hsteady : Steady more) :
    (h.run more).Orderly excess most ∧ (h.run more).permits.closed = false ∧
      (h.run more).permits.limit = h.permits.limit := by
  induction more using List.reverseRecOn with
  | nil => exact ⟨ho, hopen, rfl⟩
  | append_singleton more m ih =>
    obtain ⟨hbefore, hlast⟩ := (steady_append more [m]).mp hsteady
    obtain ⟨⟨hlimit, hne⟩, -⟩ := (steady_cons []).mp hlast
    obtain ⟨hord, hop, hl⟩ := ih hbefore
    have hm := moves_act (h.run more) m
    rw [run_concat]
    refine ⟨orderly_moves hord hm hlimit, (closed_moves hm hne).trans hop, ?_⟩
    rw [limit_moves hm, hlimit, ite_self]
    exact hl

theorem granted_of_unasked (ho : g.Orderly excess most) (hc : ∀ c ∈ g.claims, c.asked = false) :
    g.permits.granted = [] := by
  rw [List.eq_nil_iff_forall_not_mem]
  intro t ht
  obtain ⟨c, hmem, -, hask⟩ := ho.claimed t (List.mem_append_left _ ht)
  rw [hc c hmem] at hask
  cases hask

theorem honours_of_served (ho : g.Orderly 0 most) (hs : g.permits.Spare)
    (hserved : 0 < g.permits.debt → ∀ t ∈ g.permits.granted, h.Asked t)
    (hlimit : g.permits.limit = h.permits.limit) : h.Honours g where
  bound t hnew hno hheld := by
    have hbalance := ho.conserved.balance
    have hm := g.moves_act (.poll t)
    generalize g.act (.poll t) = g' at hm hheld ⊢
    cases hm with
    | takes c n hc ha hopen hf =>
      -- A permit was free, so none is owed.
      have hdebt : g.permits.debt = 0 := hs.debt_eq_zero (by omega)
      change g.permits.inFlight + 1 ≤ h.permits.limit
      unfold Permits.supply at hbalance
      omega
    | collects c hc ha hopen hg =>
      have hdebt : g.permits.debt = 0 := by
        by_contra hne
        exact hnew (hserved (Nat.pos_of_ne_zero hne) c.ticket hg)
      have hpos : 0 < g.permits.granted.length := List.length_pos_of_mem hg
      change g.permits.inFlight + 1 ≤ h.permits.limit
      unfold Permits.supply at hbalance
      omega
    | _ => exact absurd hheld hno
  restored hheld hclaims := by
    have hin : g.permits.inFlight = 0 := by rw [ho.holders, hheld, List.length_nil]
    exact hs.restored ho.conserved hin (granted_of_unasked ho hclaims)

theorem honours_of_spillFree (ho : h.Orderly 0 most) (hs : h.permits.Spare)
    (hopen : h.permits.closed = false) (more : List PermitMove) (hsteady : Steady more)
    (hfree : h.SpillFree more) : h.Honours (h.run more) := by
  have hkept : (h.run more).permits.Spare ∧
      (0 < (h.run more).permits.debt → ∀ t ∈ (h.run more).permits.granted, h.Asked t) := by
    induction more using List.reverseRecOn with
    | nil => exact ⟨hs, fun _ t ht => ho.claimed t (List.mem_append_left _ ht)⟩
    | append_singleton more m ih =>
      obtain ⟨hsteady', hlast⟩ := (steady_append more [m]).mp hsteady
      obtain ⟨⟨hlimit, -⟩, -⟩ := (steady_cons []).mp hlast
      obtain ⟨hord, hop, -⟩ := steady_run ho hopen more hsteady'
      obtain ⟨hbefore, hno, -⟩ := (spillFree_append more [m]).mp hfree
      obtain ⟨hspare, hserved⟩ := ih hsteady' hbefore
      rw [run_concat]
      refine ⟨spare_act hord hspare hop m hno, ?_⟩
      intro hd t ht
      -- While permits are owed, nothing new is set aside, so who has one has asked before.
      obtain ⟨hd', -, hsub⟩ := owed_moves hord (moves_act _ m) hlimit hno hd
      exact hserved hd' t (hsub t ht)
  obtain ⟨hord, -, hlimit⟩ := steady_run ho hopen more hsteady
  exact honours_of_served hord hkept.1 hkept.2 hlimit

theorem spare_after (n : Nat) (moves : List PermitMove) (hopen : .close ∉ moves)
    (hfree : SpillFree { permits := .ofLimit n } moves) : (after n moves).permits.Spare := by
  induction moves using List.reverseRecOn with
  | nil => exact fun hd => absurd hd (Nat.lt_irrefl 0)
  | append_singleton moves m ih =>
    obtain ⟨hbefore, hlast⟩ := (spillFree_append moves [m]).mp hfree
    have hopen' : .close ∉ moves := fun hmem => hopen (List.mem_append_left _ hmem)
    obtain ⟨excess, most, ho⟩ := exists_orderly_after n moves
    rw [after, run_concat]
    exact spare_act ho (ih hopen' hbefore) (open_after n moves hopen') m hlast.1

/-- Where nothing is set aside while permits are owed, it stays so, and nothing can spill. -/
theorem spillFree_of_unserved (ho : g.Orderly excess most) (more : List PermitMove)
    (hsteady : Steady more) (hs : 0 < g.permits.debt → g.permits.granted = []) :
    g.SpillFree more := by
  induction more generalizing g with
  | nil => trivial
  | cons m more ih =>
    obtain ⟨⟨hlimit, -⟩, hlater⟩ := (steady_cons more).mp hsteady
    have hm := g.moves_act m
    have hno : ¬g.Spills (g.act m) := by
      rintro ⟨hd, t, ht, -⟩
      rw [hs hd] at ht
      exact List.not_mem_nil ht
    have hord := orderly_moves ho hm hlimit
    refine ⟨hno, ih hord hlater ?_⟩
    intro hd
    obtain ⟨hd', -, hsub⟩ := owed_moves ho hm hlimit hno hd
    rw [List.eq_nil_iff_forall_not_mem]
    intro t ht
    have hmem := hsub t ht
    rw [hs hd'] at hmem
    exact List.not_mem_nil hmem

/-- All claims can be dropped, which leaves the held permits, the limit and the debt. -/
theorem exists_dismissed (h : ConcurrencyController) : ∃ l, Steady l ∧ (h.run l).claims = [] ∧
    (h.run l).permits.limit = h.permits.limit ∧ (h.run l).permits.debt = h.permits.debt ∧
    (h.run l).permits.inFlight = h.permits.inFlight ∧ (h.run l).next = h.next := by
  -- Dropping a claim may take others of its number along, so the induction is on how many remain.
  induction hk : h.claims.length using Nat.strongRecOn generalizing h with
  | ind k ih =>
    cases hclaims : h.claims with
    | nil => exact ⟨[], by simp [Steady], hclaims, rfl, rfl, rfl, rfl⟩
    | cons c rest =>
      have hact : h.act (.withdraw c.ticket) = h.dismiss c := by
        simp [act, claim?, hclaims]
      have hshorter : (h.dismiss c).claims.length < k := by
        have hdropped : (h.dismiss c).claims = rest.filter fun d => d.ticket ≠ c.ticket := by
          simp [dismiss, without, hclaims]
        have hle : (rest.filter fun d => d.ticket ≠ c.ticket).length ≤ rest.length :=
          List.length_filter_le _ _
        rw [← hk, hclaims, hdropped]
        exact Nat.lt_succ_of_le hle
      obtain ⟨l, hl, hnone, hlimit, hdebt, hin, hnext⟩ := ih _ hshorter (h.dismiss c) rfl
      have hkeeps : (h.dismiss c).permits.limit = h.permits.limit ∧
          (h.dismiss c).permits.debt = h.permits.debt ∧
          (h.dismiss c).permits.inFlight = h.permits.inFlight := by
        unfold dismiss
        split
        · obtain ⟨-, hl, hd, hi, -⟩ := (h.permits.abandons_abandon c.ticket).keeps
          exact ⟨hl, hd, hi⟩
        · exact ⟨rfl, rfl, rfl⟩
      refine ⟨.withdraw c.ticket :: l, ?_, ?_⟩
      · exact (steady_cons l).mpr ⟨⟨rfl, by simp⟩, hl⟩
      · have hrun : h.run (.withdraw c.ticket :: l) = (h.dismiss c).run l := by
          rw [← hact]
          rfl
        rw [hrun, hnone, hlimit, hdebt, hin, hnext]
        exact ⟨rfl, hkeeps.1, hkeeps.2.1, hkeeps.2.2, rfl⟩

/-- A new claim that finds a free permit gets it at its first poll. -/
theorem poll_claim (k : Nat) (hopen : g.permits.closed = false) (hclaims : g.claims = [])
    (hk : g.permits.free = k + 1) :
    (g.act (.claim none)).act (.poll g.next) =
      { g with
        permits := { g.permits with free := k, inFlight := g.permits.inFlight + 1 }
        next := g.next + 1
        held := g.held ++ [g.next] } := by
  simp [act, claim?, answer, ask, Claim.calledOff, Permits.requestUnless, Permits.request, without,
    hclaims, hopen, hk]

/-- Free permits can all be taken, by one new claim after the other. -/
theorem exists_all_taken (k : Nat) (ho : g.Orderly excess most) (hopen : g.permits.closed = false)
    (hclaims : g.claims = []) (hk : g.permits.free = k + 1) :
    ∃ l t, Steady l ∧ g.next ≤ t ∧ t ∉ (g.run l).held ∧
      t ∈ ((g.run l).act (.poll t)).held ∧
      ((g.run l).act (.poll t)).permits.inFlight = g.permits.inFlight + k + 1 := by
  induction k generalizing g with
  | zero =>
    refine ⟨[.claim none], g.next, by decide, Nat.le_refl _, ?_, ?_, ?_⟩
    · exact fun hmem => Nat.lt_irrefl _ (ho.old g.next hmem)
    · change g.next ∈ ((g.act (.claim none)).act (.poll g.next)).held
      rw [poll_claim 0 hopen hclaims hk]
      simp
    · change ((g.act (.claim none)).act (.poll g.next)).permits.inFlight = _
      rw [poll_claim 0 hopen hclaims hk]
  | succ k ih =>
    have hentered := orderly_moves ho (g.moves_act (.claim none)) rfl
    have hserved := orderly_moves hentered (moves_act _ (.poll g.next)) rfl
    have hpoll := poll_claim (k + 1) hopen hclaims hk
    rw [hpoll] at hserved
    obtain ⟨l, t, hl, hle, hno, hheld, hin⟩ := ih hserved hopen hclaims rfl
    have hrun : g.run (.claim none :: .poll g.next :: l) = run _ l := congrArg (run · l) hpoll
    refine ⟨.claim none :: .poll g.next :: l, t, ?_, Nat.le_of_succ_le hle, ?_, ?_, ?_⟩
    · have hpolled : Steady (.poll g.next :: l) := (steady_cons l).mpr ⟨⟨rfl, by simp⟩, hl⟩
      exact (steady_cons _).mpr ⟨⟨rfl, by decide⟩, hpolled⟩
    · rw [hrun]
      exact hno
    · rw [hrun]
      exact hheld
    · rw [hrun, hin]
      dsimp only
      omega

/-- Permits that are free or set aside while others are owed can all be in flight in the end. -/
theorem exists_excess (ho : h.Orderly 0 most) (hopen : h.permits.closed = false)
    (hd : 0 < h.permits.debt) (hs : 0 < h.permits.free + h.permits.granted.length) :
    ∃ more, Steady more ∧ ¬h.Honours (h.run more) := by
  obtain ⟨l, hl, hnone, hlimit, hdebt, hin, hnext⟩ := exists_dismissed h
  obtain ⟨hord, hopen', -⟩ := steady_run ho hopen l hl
  have hbalance := ho.conserved.balance
  have hbalance' := hord.conserved.balance
  have hgranted : (h.run l).permits.granted.length = 0 := by
    rw [granted_of_unasked hord (by simp [hnone]), List.length_nil]
  unfold Permits.supply at hbalance hbalance'
  obtain ⟨k, hk⟩ : ∃ k, (h.run l).permits.free = k + 1 :=
    Nat.exists_eq_succ_of_ne_zero (by omega)
  obtain ⟨r, t, hr, hle, hno, hheld, htaken⟩ := exists_all_taken k hord hopen' hnone hk
  refine ⟨l ++ r, (steady_append l r).mpr ⟨hl, hr⟩, ?_⟩
  intro hhonours
  -- The last of them asks after the limit was set, and there are more than the limit by then.
  have hnew : ¬h.Asked t := by
    rintro ⟨c, hc, rfl, -⟩
    have hlt := ho.fresh c hc
    rw [hnext] at hle
    exact Nat.lt_irrefl _ (Nat.lt_of_lt_of_le hlt hle)
  have hbound := hhonours.bound t hnew
  rw [run_append] at hbound
  have hexcess := hbound hno hheld
  rw [htaken] at hexcess
  omega

/-- On an open supply, whoever asks after a limit was set finds at most as many permits in flight,
and all permits are free again once nobody is there, in every run without a spill. From a state on
this is sure to hold, whatever comes, exactly if no permit is owed then, or none is free or set
aside. Limits that were refused are left out, as they were not set. -/
theorem later_claims_within_limit_iff (n : Nat) (moves : List PermitMove) (hopen : .close ∉ moves)
    (hgo : unrefused { permits := .ofLimit n } moves = true) :
    let h := after n moves
    (∃ earlier k, requested n moves = earlier ++ [k] ∧ h.permits.limit = Nat.max k 1) ∧
      (∀ more, Steady more → SpillFree { permits := .ofLimit n } (moves ++ more) →
        h.Honours (h.run more)) ∧
      ((∀ more, Steady more → h.Honours (h.run more)) ↔
        h.permits.debt = 0 ∨ h.permits.free = 0 ∧ h.permits.granted = []) := by
  intro h
  obtain ⟨k, -, ho⟩ := exists_orderly n moves hgo
  have hop : h.permits.closed = false := open_after n moves hopen
  have hlimit := limit_after n moves
  rw [limitsSet_eq _ moves hgo] at hlimit
  refine ⟨hlimit, ?_, ?_, ?_⟩
  · intro more hsteady hfree
    obtain ⟨hbefore, hafter⟩ := (spillFree_append moves more).mp hfree
    exact honours_of_spillFree ho (spare_after n moves hopen hbefore) hop more hsteady hafter
  · intro hall
    by_contra hno
    obtain ⟨hd, hs⟩ := not_or.mp hno
    have hsome : 0 < h.permits.free + h.permits.granted.length := by
      by_contra hzero
      refine hs ⟨by omega, List.length_eq_zero_iff.mp (by omega)⟩
    obtain ⟨more, hsteady, hbad⟩ := exists_excess ho hop (Nat.pos_of_ne_zero hd) hsome
    exact hbad (hall more hsteady)
  · intro hs more hsteady
    have hspare : h.permits.Spare := by
      intro hd
      exact (hs.resolve_left (Nat.ne_of_gt hd)).1
    have hunserved : 0 < h.permits.debt → h.permits.granted = [] := by
      intro hd
      exact (hs.resolve_left (Nat.ne_of_gt hd)).2
    exact honours_of_spillFree ho hspare hop more hsteady
      (spillFree_of_unserved ho more hsteady hunserved)

/-- After the limit has fallen to one, the permit that was set aside comes back to the free ones,
and a new claim takes it while the other permit is still out. -/
theorem dropped_permit_exceeds_limit :
    .close ∉ shrunkTrial ∧ unrefused { permits := .ofLimit 2 } shrunkTrial = true ∧
      Steady [.withdraw 2, .claim none] ∧
      (after 2 shrunkTrial).permits.limit = 1 ∧
      ¬(after 2 shrunkTrial).Honours ((after 2 shrunkTrial).run [.withdraw 2, .claim none]) := by
  refine ⟨by decide, by decide, by decide, by decide, ?_⟩
  intro hhonours
  have hbound := hhonours.bound 3 (by decide) (by decide) (by decide)
  revert hbound
  decide

/-- If the claim takes the permit that was set aside for it, the limit of one holds for the next
claim. -/
theorem collected_permit_keeps_limit :
    .close ∉ shrunkTrial ∧ unrefused { permits := .ofLimit 2 } shrunkTrial = true ∧
      Steady [.poll 2, .claim none, .poll 3, .release 1, .release 2] ∧
      SpillFree { permits := .ofLimit 2 }
        (shrunkTrial ++ [.poll 2, .claim none, .poll 3, .release 1, .release 2]) ∧
      (((after 2 shrunkTrial).run [.poll 2, .claim none, .poll 3, .release 1, .release 2]).act
        (.poll 3)).permits.inFlight ≤ 1 := by
  have hsteady : Steady [.poll 2, .claim none, .poll 3, .release 1, .release 2] := by decide
  have hfree : SpillFree { permits := .ofLimit 2 }
      (shrunkTrial ++ [.poll 2, .claim none, .poll 3, .release 1, .release 2]) := by decide
  have hgo : unrefused { permits := .ofLimit 2 } shrunkTrial = true := by decide
  obtain ⟨-, hkept, -⟩ := later_claims_within_limit_iff 2 shrunkTrial (by decide) hgo
  have hbound := (hkept _ hsteady hfree).bound 3 (by decide) (by decide) (by decide)
  exact ⟨by decide, hgo, hsteady, hfree, hbound⟩

end Retest.ConcurrencyController
