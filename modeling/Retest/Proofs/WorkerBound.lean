import Retest.Proofs.DispatchSteps
import Retest.Proofs.Homes
import Retest.Proofs.ShiftPermits

/-! The bound on workers over whole runs: a shift has at most as many dispatches under way as its
largest limit so far, and every dispatch gives one permit back. With none under way all permits are
free, and those that the limit allows are all, unless one came back past what was owed. -/

namespace Retest

/-- A shift under a run: how often the permit of each dispatch has come back, and how often the
dispatch has taken a way out. -/
structure Shift.Tallied (l : List Turn) (i : Nat) (s : Shift) : Prop where
  returned : ∀ n, l.countP (Turn.returns i n) +
    weigh (fun d => (decide (d.number = n)).toNat) s.dispatches +
    weigh (fun c => (decide (c.number = n)).toNat) s.parting = if n < s.started then 1 else 0
  exited : ∀ n, l.countP (Turn.exits i n) = l.countP (Turn.returns i n) +
    weigh (fun d => (decide (d.number = n) && d.stage.isBack).toNat) s.dispatches +
    weigh (fun c => (decide (c.number = n)).toNat) s.parting

/-- The dispatch with a number is done with its worker, and its permit is back after so many steps
of its own at most. -/
def Shift.HomeIn (s : Shift) (n steps : Nat) : Prop :=
  (∃ d ∈ s.dispatches, d.number = n ∧ d.stage.isBack = true ∧ d.toGo ≤ steps) ∨
    ∃ c ∈ s.parting, c.number = n ∧ c.toGo ≤ steps

namespace Turn

variable {t : Turn} {i k n : Nat}

theorem isOf_of_dispatch (h : t.dispatch? i = some k) : t.isOf i n = decide (k = n) := by
  simp [isOf, h]

theorem isOf_of_none (h : t.dispatch? i = none) : t.isOf i n = false := by simp [isOf, h]

def refuses (i : Nat) (t : Turn) : Bool :=
  match t.action with
  | .setLimit n =>
    (t.before.nth i).any (·.permits.refuses n) && decide (i = t.before.shifts.length - 1)
  | _ => false

/-- A permit of the shift with a number comes back while one is owed. It was settled before that. -/
def spills (i : Nat) (t : Turn) : Bool :=
  (t.before.nth i).any fun s => decide (0 < s.permits.debt) &&
    s.parting.any fun c => c.settled && t.returns i c.number

end Turn

namespace Shift

variable {s s' : Shift} {l : List Turn} {t : Turn} {i : Nat}

theorem countP_of_none (h : t.dispatch? i = none) (n : Nat) :
    (l ++ [t]).countP (Turn.returns i n) = l.countP (Turn.returns i n) ∧
      (l ++ [t]).countP (Turn.exits i n) = l.countP (Turn.exits i n) := by
  have hno : t.isOf i n = false := Turn.isOf_of_none h
  rw [countP_concat, countP_concat, Turn.returns, Turn.exits, hno]
  exact ⟨rfl, rfl⟩

theorem weigh_put (h : s.Sound) (d d' : Dispatch) (hd : d ∈ s.dispatches)
    (hn : d'.number = d.number) (f : Dispatch → Nat) :
    weigh f (s.put d').dispatches + f d = weigh f s.dispatches + f d' :=
  weigh_replace s.dispatches h.numbers d d' hd hn f

theorem weigh_leave (h : s.Sound) (d : Dispatch) (hd : d ∈ s.dispatches) (f : Dispatch → Nat) :
    weigh f (s.leave d).dispatches + f d = weigh f s.dispatches :=
  weigh_takeOut f (·.number) s.dispatches h.numbers d hd

theorem mem_put_self (d d' : Dispatch) (hd : d ∈ s.dispatches) (hn : d'.number = d.number) :
    d' ∈ (s.put d').dispatches := List.mem_map.mpr ⟨d, hd, if_pos hn.symm⟩

theorem mem_put_of_ne (c d' : Dispatch) (hc : c ∈ s.dispatches) (hne : c.number ≠ d'.number) :
    c ∈ (s.put d').dispatches := List.mem_map.mpr ⟨c, hc, if_neg hne⟩

theorem weigh_pass (c : Parting) (f : Nat → Nat) :
    weigh (fun b => f b.number) (s.pass c).parting = weigh (fun b => f b.number) s.parting := by
  rw [pass, weigh_map]
  refine weigh_congr _ _ _ fun b _ => ?_
  split <;> rfl

theorem weigh_arrive (h : s.Sound) (c : Parting) (hc : c ∈ s.parting) (n : Nat) :
    weigh (fun b => (decide (b.number = n)).toNat) (s.arrive c).parting +
      (decide (c.number = n)).toNat =
        weigh (fun b => (decide (b.number = n)).toNat) s.parting :=
  weigh_takeOut _ (·.number) s.parting h.apart.numbers c hc

/-- A number that begins is a new one, and a dispatch that is gone has sent its permit back, which
comes to its end once. -/
theorem returned_fate (h : s.Tallied l i) (hsound : s.Sound) (hf : s.Fate t i s') (n : Nat) :
    (l ++ [t]).countP (Turn.returns i n) +
      weigh (fun d => (decide (d.number = n)).toNat) s'.dispatches +
      weigh (fun c => (decide (c.number = n)).toNat) s'.parting =
        if n < s'.started then 1 else 0 := by
  have hbefore := h.returned n
  cases hf with
  | keeps ho hd hp hs =>
    rw [(countP_of_none ho n).1, hd, hp, hs]
    exact hbefore
  | begins d ho hn hearly hd hp hs =>
    rw [(countP_of_none ho n).1, hd, hp, hs, weigh_append, weigh_cons, weigh_nil, hn]
    by_cases heq : s.started = n
    · -- The new number was not in use.
      rw [if_neg (by omega)] at hbefore
      rw [if_pos (by omega), decide_eq_true heq]
      simp only [Bool.toNat_true]
      omega
    · have hiff : n < s.started + 1 ↔ n < s.started := by omega
      rw [decide_eq_false heq]
      simp only [hiff, Bool.toNat_false]
      omega
  | goes d d' ho hmem ha hd hp hs =>
    cases ha with
    | goes _ hn hstays =>
      have hsame := weigh_put hsound d d' hmem hn fun d => (decide (d.number = n)).toNat
      rw [countP_concat, Turn.returns, hstays, Bool.and_false, hd, hp, hs]
      simp only [hn, Bool.toNat_false] at hsame ⊢
      omega
  | leaves d ho hmem ha hd hp hs =>
    cases ha with
    | leaves hstays =>
      have hparting : s'.parting = s.parting ++ [{ number := d.number }] := hp
      have hgone := weigh_leave hsound d hmem fun d => (decide (d.number = n)).toNat
      rw [countP_concat, Turn.returns, hstays, Bool.and_false, hd, hparting, hs, weigh_append,
        weigh_cons, weigh_nil]
      simp only [Bool.toNat_false]
      omega
  | passes c ho hmem ha hd hp hs =>
    cases ha with
    | goes _ hstays =>
      rw [countP_concat, Turn.returns, hstays, Bool.and_false, hd, hp, hs,
        weigh_pass c fun k => (decide (k = n)).toNat]
      exact hbefore
  | returns c ho hmem ha hd hp hs =>
    cases ha with
    | ends hreturn =>
      have hgone := weigh_arrive hsound c hmem n
      rw [countP_concat, Turn.returns, hreturn, Bool.and_true, Turn.isOf_of_dispatch ho, hd, hp, hs]
      omega

/-- A dispatch takes one way out, and only after that can its permit come to an end. -/
theorem exited_fate (h : s.Tallied l i) (hsound : s.Sound) (hf : s.Fate t i s') (n : Nat) :
    (l ++ [t]).countP (Turn.exits i n) = (l ++ [t]).countP (Turn.returns i n) +
      weigh (fun d => (decide (d.number = n) && d.stage.isBack).toNat) s'.dispatches +
      weigh (fun c => (decide (c.number = n)).toNat) s'.parting := by
  have hbefore := h.exited n
  cases hf with
  | keeps ho hd hp hs =>
    rw [(countP_of_none ho n).1, (countP_of_none ho n).2, hd, hp]
    exact hbefore
  | begins d ho hn hearly hd hp hs =>
    rw [(countP_of_none ho n).1, (countP_of_none ho n).2, hd, hp, weigh_append, weigh_cons,
      weigh_nil, hearly, Bool.and_false]
    exact hbefore
  | goes d d' ho hmem ha hd hp hs =>
    cases ha with
    | goes _ hn hstays hback hexit =>
      have hmoved := weigh_put hsound d d' hmem hn fun d =>
        (decide (d.number = n) && d.stage.isBack).toNat
      rw [countP_concat, countP_concat, Turn.returns, Turn.exits, hstays, Bool.and_false,
        Turn.isOf_of_dispatch ho, hd, hp]
      simp only [hn, hback] at hmoved
      -- A way out leads from the front to the back, and nothing else does.
      cases hx : t.action.isExit with
      | false =>
        simp only [hx, Bool.or_false, Bool.and_false, Bool.toNat_false] at hmoved ⊢
        omega
      | true =>
        simp only [hx, hexit hx, Bool.or_true, Bool.and_true, Bool.and_false,
          Bool.toNat_false] at hmoved ⊢
        omega
  | leaves d ho hmem ha hd hp hs =>
    cases ha with
    | leaves hstays hexit _ hstage =>
      have hparting : s'.parting = s.parting ++ [{ number := d.number }] := hp
      have hback : d.stage.isBack = true := by rw [hstage]; rfl
      have hgone := weigh_leave hsound d hmem fun d =>
        (decide (d.number = n) && d.stage.isBack).toNat
      rw [countP_concat, countP_concat, Turn.returns, Turn.exits, hstays, hexit, Bool.and_false,
        hd, hparting, weigh_append, weigh_cons, weigh_nil]
      simp only [hback, Bool.and_true, Bool.toNat_false] at hgone ⊢
      omega
  | passes c ho hmem ha hd hp hs =>
    cases ha with
    | goes _ hstays hexit =>
      rw [countP_concat, countP_concat, Turn.returns, Turn.exits, hstays, hexit, Bool.and_false,
        hd, hp, weigh_pass c fun k => (decide (k = n)).toNat]
      exact hbefore
  | returns c ho hmem ha hd hp hs =>
    cases ha with
    | ends hreturn hexit =>
      have hgone := weigh_arrive hsound c hmem n
      rw [countP_concat, countP_concat, Turn.returns, Turn.exits, hreturn, hexit, Bool.and_true,
        Bool.and_false, Turn.isOf_of_dispatch ho, hd, hp]
      simp only [Bool.toNat_false]
      omega

theorem tallied_fate (h : s.Tallied l i) (hsound : s.Sound) (hf : s.Fate t i s') :
    s'.Tallied (l ++ [t]) i :=
  ⟨returned_fate h hsound hf, exited_fate h hsound hf⟩

theorem HomeIn.pos {n steps : Nat} (h : s.HomeIn n steps) : 0 < steps := by
  rcases h with ⟨d, -, -, -, hle⟩ | ⟨c, -, -, hle⟩
  · exact Nat.lt_of_lt_of_le (Nat.lt_of_lt_of_le (by decide) d.three_le_toGo) hle
  · exact Nat.lt_of_lt_of_le c.toGo_pos hle

/-- A dispatch that is done with its worker keeps its place, or takes a step of its own. -/
theorem nearer_dispatch (hsound : s.Sound) (hf : s.Fate t i s') {d : Dispatch}
    (hmem : d ∈ s.dispatches) (hb : d.stage.isBack = true) :
    ∃ left, s'.HomeIn d.number left ∧ left + (t.isOf i d.number).toNat ≤ d.toGo := by
  have hone (c : Dispatch) (hc : c ∈ s.dispatches) (hn : c.number = d.number) : c = d :=
    List.inj_on_of_nodup_map hsound.numbers hc hmem hn
  -- In most cases the dispatch is still there, and the turn is not about it.
  have hstays (hd : d ∈ s'.dispatches) (hno : t.isOf i d.number = false) :
      ∃ left, s'.HomeIn d.number left ∧ left + (t.isOf i d.number).toNat ≤ d.toGo := by
    rw [hno]
    exact ⟨d.toGo, Or.inl ⟨d, hd, rfl, hb, Nat.le_refl _⟩, Nat.le_refl _⟩
  have hother (n : Nat) (ho : t.dispatch? i = some n) (hne : n ≠ d.number) :
      t.isOf i d.number = false := by rw [Turn.isOf_of_dispatch ho, decide_eq_false hne]
  cases hf with
  | keeps ho hd => exact hstays (hd ▸ hmem) (Turn.isOf_of_none ho)
  | begins c ho _ _ hd => exact hstays (hd ▸ List.mem_append_left _ hmem) (Turn.isOf_of_none ho)
  | goes c c' ho hc ha hd =>
    cases ha with
    | goes _ hn _ hstage _ _ hless =>
      by_cases hcd : c.number = d.number
      · obtain rfl := hone c hc hcd
        have hlater := hless hb
        have hback : c'.stage.isBack = true := by rw [hstage, hb, Bool.true_or]
        refine ⟨c'.toGo, Or.inl ⟨c', hd ▸ mem_put_self c c' hc hn, hn, hback, Nat.le_refl _⟩, ?_⟩
        rw [Turn.isOf_of_dispatch ho, decide_eq_true rfl, Bool.toNat_true]
        omega
      · have hne : d.number ≠ c'.number := by
          rw [hn]
          exact Ne.symm hcd
        exact hstays (hd ▸ mem_put_of_ne d c' hmem hne) (hother _ ho hcd)
  | leaves c ho hc ha hd hp =>
    by_cases hcd : c.number = d.number
    · obtain rfl := hone c hc hcd
      have hsent : ({ number := c.number } : Parting) ∈ s'.parting := by
        rw [hp]
        exact List.mem_append_right _ List.mem_cons_self
      refine ⟨2, Or.inr ⟨_, hsent, rfl, Nat.le_refl 2⟩, ?_⟩
      rw [Turn.isOf_of_dispatch ho, decide_eq_true rfl, Bool.toNat_true]
      exact c.three_le_toGo
    · have hstill : d ∈ (s.leave c).dispatches :=
        List.mem_filter.mpr ⟨hmem, decide_eq_true (Ne.symm hcd)⟩
      exact hstays (hd ▸ hstill) (hother _ ho hcd)
  | passes c ho hc ha hd => exact hstays (hd ▸ hmem) (hother _ ho (hsound.apart.gone c hc d hmem))
  | returns c ho hc ha hd => exact hstays (hd ▸ hmem) (hother _ ho (hsound.apart.gone c hc d hmem))

/-- A permit on its way comes back, or goes on waiting, or takes a step of its own. -/
theorem nearer_parting (hsound : s.Sound) (hf : s.Fate t i s') {c : Parting}
    (hmem : c ∈ s.parting) :
    t.returns i c.number = true ∨ ∃ b ∈ s'.parting, b.number = c.number ∧
      b.toGo + (t.isOf i c.number).toNat ≤ c.toGo := by
  have hone (b : Parting) (hb : b ∈ s.parting) (hn : b.number = c.number) : b = c :=
    List.inj_on_of_nodup_map hsound.apart.numbers hb hmem hn
  have hstays (hc : c ∈ s'.parting) (hno : t.isOf i c.number = false) :
      ∃ b ∈ s'.parting, b.number = c.number ∧ b.toGo + (t.isOf i c.number).toNat ≤ c.toGo := by
    rw [hno]
    exact ⟨c, hc, rfl, Nat.le_refl _⟩
  have hother (n : Nat) (ho : t.dispatch? i = some n) (hne : n ≠ c.number) :
      t.isOf i c.number = false := by rw [Turn.isOf_of_dispatch ho, decide_eq_false hne]
  cases hf with
  | keeps ho _ hp => exact Or.inr (hstays (hp ▸ hmem) (Turn.isOf_of_none ho))
  | begins d ho _ _ _ hp => exact Or.inr (hstays (hp ▸ hmem) (Turn.isOf_of_none ho))
  | goes d d' ho hd ha _ hp =>
    exact Or.inr (hstays (hp ▸ hmem) (hother _ ho (hsound.apart.gone c hmem d hd).symm))
  | leaves d ho hd ha _ hp =>
    have hstill : c ∈ s'.parting := by
      rw [hp]
      exact List.mem_append_left _ hmem
    exact Or.inr (hstays hstill (hother _ ho (hsound.apart.gone c hmem d hd).symm))
  | passes b ho hb ha _ hp =>
    right
    rw [hp]
    by_cases hbc : b.number = c.number
    · obtain rfl := hone b hb hbc
      cases ha with
      | goes hs =>
        refine ⟨{ b with settled := true }, List.mem_map.mpr ⟨b, hmem, if_pos rfl⟩, rfl, ?_⟩
        rw [Turn.isOf_of_dispatch ho, decide_eq_true rfl, Parting.toGo, Parting.toGo, hs]
        exact Nat.le_refl 2
    · rw [hother _ ho hbc]
      exact ⟨c, List.mem_map.mpr ⟨c, hmem, if_neg (Ne.symm hbc)⟩, rfl, Nat.le_refl _⟩
  | returns b ho hb ha _ hp =>
    by_cases hbc : b.number = c.number
    · left
      cases ha with
      | ends hreturn =>
        rw [Turn.returns, hreturn, Turn.isOf_of_dispatch ho, decide_eq_true hbc]
        rfl
    · have hstill : c ∈ (s.arrive b).parting :=
        List.mem_filter.mpr ⟨hmem, decide_eq_true (Ne.symm hbc)⟩
      exact Or.inr (hstays (hp ▸ hstill) (hother _ ho hbc))

/-- Whoever acts, a permit that is so many steps from home comes back, or is as far from it as
before, or nearer by each step of its own. -/
theorem nearer_fate (hsound : s.Sound) (hf : s.Fate t i s') {n steps : Nat}
    (h : s.HomeIn n steps) : t.returns i n = true ∨
      ∃ left, s'.HomeIn n left ∧ left + (t.isOf i n).toNat ≤ steps := by
  rcases h with ⟨d, hmem, rfl, hb, hle⟩ | ⟨c, hmem, rfl, hle⟩
  · obtain ⟨left, hnear, hless⟩ := nearer_dispatch hsound hf hmem hb
    exact Or.inr ⟨left, hnear, Nat.le_trans hless hle⟩
  · rcases nearer_parting hsound hf hmem with hback | ⟨b, hb, hn, hless⟩
    · exact Or.inl hback
    · exact Or.inr ⟨b.toGo, Or.inr ⟨b, hb, hn, Nat.le_refl _⟩, Nat.le_trans hless hle⟩

end Shift

namespace Engine

def limitsSince (i : Nat) (l : List Turn) (e : Engine) : List Nat :=
  (l.map (·.before) ++ [e]).filterMap fun e => (e.nth i).map (·.permits.limit)

variable {settings : EngineSettings} {limit capacity : Nat} {history : History} {l : List Turn}
variable {e e' : Engine} {now : Moment} {a : Action} {i n : Nat} {s s' : Shift} {d : Dispatch}

theorem limitsSince_concat (h : e'.nth i = some s') :
    limitsSince i (l ++ [⟨e, now, a⟩]) e' = limitsSince i l e ++ [s'.permits.limit] := by
  have hlast : [e'].filterMap (fun e => (e.nth i).map (·.permits.limit)) = [s'.permits.limit] := by
    simp [h]
  rw [limitsSince, List.map_append, List.filterMap_append, hlast]
  rfl

/-- A step of a shift keeps its permits accounted for, under the limits so far and the one in force.
Only a limit that is refused leaves more than that. -/
theorem staffed_step {excess most : Nat} (h : s.Staffed excess most) (hsound : s.Sound)
    (hs : e.nth i = some s) (hstep : e.Step now a i s s') :
    (s'.Staffed excess most ∨ s'.Staffed excess (s'.permits.limit + excess)) ∨
      Turn.refuses i ⟨e, now, a⟩ = true ∧ ∃ more bound, s'.Staffed more bound := by
  cases hstep with
  | rests => exact Or.inl (Or.inl h)
  | queues => exact Or.inl (Or.inl (h.of_same rfl rfl rfl (Or.inl rfl)))
  | adjusts n ha hi =>
    have hlimit := s.permits.limit_setLimit n
    cases hr : s.permits.refuses n with
    | false =>
      rw [hr, if_neg Bool.false_ne_true] at hlimit
      have hset := Shift.staffed_adjusts h n (h.conserved.setLimit hr)
      left
      rcases Nat.le_total (Nat.max n 1 + excess) most with hle | hle
      · rw [Nat.max_eq_left hle] at hset
        exact Or.inl hset
      · rw [Nat.max_eq_right hle, ← hlimit] at hset
        exact Or.inr hset
    | true =>
      obtain ⟨more, hconserved⟩ := h.conserved.refused hr
      refine Or.inr ⟨?_, _, _, Shift.staffed_adjusts h n hconserved⟩
      simp only [Turn.refuses, ha, hs, Option.any_some, hr, Bool.true_and, decide_eq_true hi]
  | stops => exact Or.inl (Or.inl (h.of_same rfl rfl rfl (Or.inl rfl)))
  | works k _ _ _ hw => exact Or.inl (Or.inl (Shift.staffed_works h hsound hw))
  | hands k _ x _ _ _ hh => exact Or.inl (Or.inl (Shift.staffed_hands h hh))

/-- The permits of a shift are accounted for in every run, and if no limit was ever refused to it,
then under one of its limits and with none in excess. -/
theorem staffed_run (h : (fresh settings limit capacity history).Run l e) (hs : e.nth i = some s) :
    ∃ excess most, s.Staffed excess most ∧
      ((∀ turn ∈ l, turn.refuses i = false) → excess = 0 ∧ most ∈ limitsSince i l e) := by
  induction h generalizing s with
  | start => simp [nth, fresh, ofSettings] at hs
  | step l d now a e' hrun ha ih =>
    rw [limitsSince_concat hs]
    have hlast : s.permits.limit ∈ limitsSince i l d ++ [s.permits.limit] := by simp
    have hearlier (hno : ∀ turn ∈ l ++ [⟨d, now, a⟩], turn.refuses i = false) :
        ∀ turn ∈ l, turn.refuses i = false := fun turn hl => hno turn (List.mem_append_left _ hl)
    rcases step_of_change (change_of_act d now a e' ha) hs with ⟨t, ht, hstep⟩ | ⟨-, -, n, rfl⟩
    · obtain ⟨excess, most, hstaffed, hbound⟩ := ih ht
      have hsound := (books_run hrun).sound t (mem_of_nth ht)
      -- The bound of before does, unless the limit has just been raised above it.
      rcases staffed_step hstaffed hsound ht hstep with
        (hafter | hafter) | ⟨hrefused, more, bound, hafter⟩
      · refine ⟨excess, most, hafter, fun hno => ?_⟩
        obtain ⟨hzero, hmost⟩ := hbound (hearlier hno)
        exact ⟨hzero, List.mem_append_left _ hmost⟩
      · refine ⟨excess, _, hafter, fun hno => ?_⟩
        obtain ⟨rfl, -⟩ := hbound (hearlier hno)
        exact ⟨rfl, hlast⟩
      · refine ⟨more, bound, hafter, fun hno => ?_⟩
        rw [hno _ (List.mem_append_right _ List.mem_cons_self)] at hrefused
        cases hrefused
    · exact ⟨0, _, Shift.staffed_ofPermits n, fun _ => ⟨rfl, hlast⟩⟩

/-- Who acts for a dispatch finds its shift there, and who speaks for it finds it with a worker. -/
theorem acts_of_isOf (h : e.act now a = some e') (ho : (⟨e, now, a⟩ : Turn).isOf i n = true) :
    ∃ s, e.nth i = some s ∧ (a.isSpeech = true →
      ∃ d ∈ s.dispatches, d.number = n ∧ ∃ w, d.stage = .running w) := by
  have hof : (⟨e, now, a⟩ : Turn).dispatch? i = some n := of_decide_eq_true ho
  cases ha : a.shift? with
  | none => simp [Turn.dispatch?, ha] at hof
  | some k =>
    have hplace : e.place k = i := by
      by_contra hne
      simp [Turn.dispatch?, ha, hne] at hof
    obtain ⟨s, s', hs, -, hfate⟩ := fate_of_act h ha
    rw [hplace] at hfate
    refine ⟨s, hplace ▸ nth_place hs, fun hspeech => ?_⟩
    have hsilent (hno : a.isSpeech = false) :
        ∃ d ∈ s.dispatches, d.number = n ∧ ∃ w, d.stage = .running w := by
      rw [hno] at hspeech
      cases hspeech
    cases hfate with
    | keeps hno => rw [hno] at hof; cases hof
    | begins d hno => rw [hno] at hof; cases hof
    | goes d d' hd hmem hacts =>
      rw [hd] at hof
      cases hacts with
      | goes _ _ _ _ _ hruns => exact ⟨d, hmem, Option.some.inj hof, hruns hspeech⟩
    | leaves d hd hmem hacts => cases hacts with | leaves _ _ hno => exact hsilent hno
    | passes c hc hmem hacts => cases hacts with | goes _ _ _ hno => exact hsilent hno
    | returns c hc hmem hacts => cases hacts with | ends _ _ hno => exact hsilent hno

theorem speech_run {e₀ : Engine} (h : e₀.Run l e) (turn : Turn) (hl : turn ∈ l) (n : Nat)
    (ho : turn.isOf i n = true) (hspeech : turn.action.isSpeech = true) :
    ∃ s, turn.before.nth i = some s ∧
      ∃ d ∈ s.dispatches, d.number = n ∧ ∃ w, d.stage = .running w := by
  induction h with
  | start => exact absurd hl List.not_mem_nil
  | step l e now a e' hrun ha ih =>
    rcases List.mem_append.mp hl with hl | hl
    · exact ih hl
    · rw [List.mem_singleton.mp hl] at ho hspeech ⊢
      obtain ⟨s, hs, hruns⟩ := acts_of_isOf ha ho
      exact ⟨s, hs, hruns hspeech⟩

/-- A shift that is there stays there, and each of its dispatches meets one fate. -/
theorem exists_fate (hs : e.nth i = some s) (h : e.act now a = some e') :
    ∃ s', e'.nth i = some s' ∧ s.Fate ⟨e, now, a⟩ i s' := by
  obtain ⟨s', hs', -⟩ := exists_step hs now a (change_of_act e now a e' h)
  refine ⟨s', hs', ?_⟩
  rcases fate_of_nth h hs' with ⟨u, hu, hfate⟩ | ⟨hi, -⟩
  · rw [hs] at hu
    rwa [← Option.some.inj hu] at hfate
  · have hlt := lt_of_nth hs
    omega

/-- Unless a permit comes back while one is owed, none that is owed ever lies idle. -/
theorem frugal_run (h : (fresh settings limit capacity history).Run l e) (hs : e.nth i = some s)
    (hno : ∀ turn ∈ l, turn.spills i = false) : s.Frugal := by
  induction h generalizing s with
  | start => simp [nth, fresh, ofSettings] at hs
  | step l d now a e' hrun ha ih =>
    have hearlier (turn : Turn) (hl : turn ∈ l) : turn.spills i = false :=
      hno turn (List.mem_append_left _ hl)
    rcases step_of_change (change_of_act d now a e' ha) hs with ⟨t, ht, hstep⟩ | ⟨-, -, n, rfl⟩
    · have hfrugal := ih ht hearlier
      have hsound := (books_run hrun).sound t (mem_of_nth ht)
      cases hstep with
      | rests => exact hfrugal
      | queues => exact hfrugal.of_same rfl rfl rfl
      | adjusts n => exact Shift.frugal_setLimit hfrugal hsound n
      | stops => exact fun hopen => by cases hopen
      | hands k _ x _ _ _ hh => exact Shift.frugal_hands hfrugal hh
      | works k _ _ _ hw =>
        rcases Shift.frugal_works hfrugal hsound hw with hkept | ⟨howed, c, hc, hsettled, rfl⟩
        · exact hkept
        · -- The permit is gone from its way, so it was this turn that brought it back.
          have hspills := hno ⟨d, now, a⟩ (List.mem_append_right _ List.mem_cons_self)
          obtain ⟨u, hu, hfate⟩ := exists_fate ht ha
          rw [hs] at hu
          obtain rfl := Option.some.inj hu
          rcases Shift.nearer_parting hsound hfate hc with hback | ⟨b, hb, hn, -⟩
          · simp only [Turn.spills, ht, Option.any_some, Bool.and_eq_false_imp,
              decide_eq_true_eq, List.any_eq_false, Bool.and_eq_true, not_and] at hspills
            exact absurd hback (hspills howed c hc hsettled)
          · exact absurd hn (of_decide_eq_true (List.mem_filter.mp hb).2)
    · exact Shift.frugal_ofPermits n

/-- A turn about a dispatch of a shift comes when the shift is there already. -/
theorem lt_of_isOf {e₀ : Engine} (h : e₀.Run l e) (turn : Turn) (hl : turn ∈ l)
    (ho : turn.isOf i n = true) : i < e.shifts.length := by
  induction h with
  | start => exact absurd hl List.not_mem_nil
  | step l d now a e' hrun ha ih =>
    have hle := length_change now a (change_of_act d now a e' ha)
    rcases List.mem_append.mp hl with hl | hl
    · have hlt := ih hl
      omega
    · rw [List.mem_singleton.mp hl] at ho
      obtain ⟨s, hs, -⟩ := acts_of_isOf ha ho
      have hlt := lt_of_nth hs
      omega

theorem tallied_run (h : (fresh settings limit capacity history).Run l e)
    (hs : e.nth i = some s) : s.Tallied l i := by
  induction h generalizing s with
  | start => simp [nth, fresh, ofSettings] at hs
  | step l d now a e' hrun ha ih =>
    rcases fate_of_nth ha hs with ⟨t, ht, hfate⟩ | ⟨hi, ho, m, rfl⟩
    · exact Shift.tallied_fate (ih ht) ((books_run hrun).sound t (mem_of_nth ht)) hfate
    · -- No turn so far was about a dispatch of this shift.
      have hnobody (turn : Turn) (hl : turn ∈ l) (n : Nat) : turn.isOf i n = false := by
        rw [← Bool.not_eq_true]
        intro hof
        have hlt := lt_of_isOf hrun turn hl hof
        omega
      have hreturns (n : Nat) : l.countP (Turn.returns i n) = 0 := by
        rw [List.countP_eq_zero]
        intro turn hl
        simp [Turn.returns, hnobody turn hl n]
      have hexits (n : Nat) : l.countP (Turn.exits i n) = 0 := by
        rw [List.countP_eq_zero]
        intro turn hl
        simp [Turn.exits, hnobody turn hl n]
      refine ⟨fun n => ?_, fun n => ?_⟩
      · rw [(Shift.countP_of_none ho n).1, hreturns]
        rfl
      · rw [(Shift.countP_of_none ho n).1, (Shift.countP_of_none ho n).2, hreturns, hexits]
        rfl

theorem dispatch?_of_mem (hsound : s.Sound) (hd : d ∈ s.dispatches) :
    s.dispatch? d.number = some d := by
  cases hfound : s.dispatch? d.number with
  | none =>
    have hnone := List.find?_eq_none.mp hfound d hd
    simp at hnone
  | some c =>
    have hsame := List.inj_on_of_nodup_map hsound.numbers (s.mem_of_dispatch _ c hfound) hd
      (number_of_dispatch hfound)
    rw [hsame]

theorem parting?_of_mem {c : Parting} (hsound : s.Sound) (hc : c ∈ s.parting) :
    s.parting? c.number = some c := by
  cases hfound : s.parting? c.number with
  | none =>
    have hnone := List.find?_eq_none.mp hfound c hc
    simp at hnone
  | some b =>
    have hsame := List.inj_on_of_nodup_map hsound.apart.numbers (List.mem_of_find?_eq_some hfound)
      hc (number_of_parting hfound)
    rw [hsame]

/-- A permit on its way back can always take its next step. -/
theorem exists_parts {c : Parting} (hk : e.shift? k = some s) (hsound : s.Sound)
    (hc : c ∈ s.parting) (now : Moment) :
    ∃ a s', a.shift? = some k ∧ a.dispatch? = some c.number ∧
      e.act now a = some (e.putShift k s') ∧ s.Parts c s' := by
  have hfound := parting?_of_mem hsound hc
  cases hsettled : c.settled with
  | true =>
    refine ⟨.giveBack k c.number, _, rfl, rfl, ?_, .arrived hsettled⟩
    simp [act, onParting, hk, hfound, hsettled]
  | false =>
    -- Whether it is owed decides what becomes of it.
    cases howed : s.permits.settle? with
    | none =>
      refine ⟨.pass k c.number, _, rfl, rfl, ?_, .passed hsettled howed⟩
      simp [act, onParting, hk, hfound, hsettled, howed]
    | some p =>
      refine ⟨.destroy k c.number, _, rfl, rfl, ?_, .destroyed p hsettled howed⟩
      simp [act, onParting, hk, hfound, hsettled, howed]

/-- Until its permit is back, a dispatch that is done with its worker can always take its next
step. -/
theorem exists_step_home {steps : Nat} (hsound : s.Sound) (hs : e.nth i = some s)
    (h : s.HomeIn n steps) (now : Moment) :
    ∃ a, (⟨e, now, a⟩ : Turn).isOf i n = true ∧ (e.act now a).isSome = true := by
  have hi := lt_of_nth hs
  have hk : e.shift? (e.place i) = some s := by rw [← nth_eq_shift hi, hs]
  have hof (a : Action) (ha : a.shift? = some (e.place i)) (hn : a.dispatch? = some n) :
      (⟨e, now, a⟩ : Turn).isOf i n = true := by
    simp [Turn.isOf, Turn.dispatch?, ha, hn, place_place hi]
  rcases h with ⟨d, hd, rfl, hb, -⟩ | ⟨c, hc, rfl, -⟩
  · have hfound := dispatch?_of_mem hsound hd
    cases he : d.errands with
    | cons x rest =>
      exact ⟨.deliverFor (e.place i) d.number, hof _ rfl rfl, by simp [act, hk, hfound, he]⟩
    | nil =>
      cases hstage : d.stage with
      | returning w broken =>
        refine ⟨.checkin (e.place i) d.number true, hof _ rfl rfl, ?_⟩
        simp [act, onDispatch, hk, hfound, he, hstage]
      | leaving =>
        refine ⟨.leave (e.place i) d.number, hof _ rfl rfl, ?_⟩
        simp [act, onDispatch, hk, hfound, he, hstage]
      | _ => simp [hstage, Stage.isBack] at hb
  · obtain ⟨a, s', hshift, hnumber, hact, -⟩ := exists_parts hk hsound hc now
    exact ⟨a, hof a hshift hnumber, by rw [hact]; rfl⟩

/-- Whoever else acts, the permit of a dispatch that is done with its worker comes nearer to its end
with each of the dispatch's own steps, or is back. -/
theorem nearer_run {steps : Nat} (h : (fresh settings limit capacity history).Run l e)
    (hs : e.nth i = some s) (hhome : s.HomeIn n steps) {m : List Turn} (hm : e.Run m e') :
    ∃ s', e'.nth i = some s' ∧ (0 < m.countP (Turn.returns i n) ∨
      ∃ left, s'.HomeIn n left ∧ left + m.countP (Turn.isOf i n) ≤ steps) := by
  -- The steps that it has taken and those that it still needs add up to what it needed at first.
  induction hm with
  | start => exact ⟨s, hs, Or.inr ⟨steps, hhome, Nat.le_refl _⟩⟩
  | step m f now a e' hrun ha ih =>
    obtain ⟨t, ht, hsofar⟩ := ih
    obtain ⟨t', ht', hfate⟩ := exists_fate ht ha
    refine ⟨t', ht', ?_⟩
    rw [countP_concat, countP_concat]
    rcases hsofar with hgone | ⟨left, hhome, hle⟩
    · left
      omega
    · have hsound := (books_run (h.trans hrun)).sound t (mem_of_nth ht)
      rcases Shift.nearer_fate hsound hfate hhome with hgone | ⟨less, hhome, hless⟩
      · left
        rw [hgone]
        exact Nat.succ_pos _
      · exact Or.inr ⟨less, hhome, by omega⟩

/-- Whatever the workers do and in whatever order everybody acts, a shift has as many dispatches
under way as permits are in flight. With the permits on their way back these are no more than one of
the limits that it has had, if none was refused to it. A worker is heard of for a dispatch under way
only, and each connection is in one place. A dispatch gives one permit back, after one way out; from
there on it can always take its next step, and so many of its steps are the most it needs. Once no
dispatch is under way, no permit on its way back and no batch waits for one, none is in flight and
all are free. These are as many as the limit says, as long as no permit came back while one was
owed. -/
theorem dispatches_within_limit (settings : EngineSettings) (limit capacity : Nat)
    (history : History) (l : List Turn) (e : Engine) (i : Nat) (s : Shift)
    (h : (fresh settings limit capacity history).Run l e) (hs : e.nth i = some s) :
    (s.permits.inFlight = s.dispatches.length ∧ ((∀ turn ∈ l, turn.refuses i = false) →
        ∃ most ∈ limitsSince i l e, s.dispatches.length + s.parting.length ≤ most)) ∧
      (∀ turn ∈ l, ∀ n, turn.isOf i n = true → turn.action.isSpeech = true →
        ∃ t, turn.before.nth i = some t ∧
          ∃ d ∈ t.dispatches, d.number = n ∧ ∃ w, d.stage = .running w) ∧
      (∀ w, s.connections.count w = l.countP (Turn.hires i w)) ∧
      (∀ n, l.countP (Turn.returns i n) + s.dispatches.countP (fun d => d.number = n) +
        s.parting.countP (fun c => c.number = n) = if n < s.started then 1 else 0) ∧
      (∀ n, l.countP (Turn.exits i n) = l.countP (Turn.returns i n) +
        s.dispatches.countP (fun d => d.number = n && d.stage.isBack) +
        s.parting.countP fun c => c.number = n) ∧
      (∀ n steps, s.HomeIn n steps →
        (∀ now, ∃ a, (⟨e, now, a⟩ : Turn).isOf i n = true ∧ (e.act now a).isSome = true) ∧
          ∀ m e', e.Run m e' → steps ≤ m.countP (Turn.isOf i n) →
            (l ++ m).countP (Turn.returns i n) = 1) ∧
      (s.dispatches = [] → s.parting = [] → s.phase.hasAsked = false →
        s.permits.inFlight = 0 ∧ ((∀ turn ∈ l, turn.refuses i = false) →
          s.permits.free = s.permits.limit + s.permits.debt ∧
            (s.cancelled = false → (∀ turn ∈ l, turn.spills i = false) →
              s.permits.free = s.permits.limit))) := by
  have hsound := (books_run h).sound s (mem_of_nth hs)
  have htallied := tallied_run h hs
  obtain ⟨excess, most, hstaffed, hbound⟩ := staffed_run h hs
  refine ⟨⟨hstaffed.held, fun hno => ?_⟩, ?_, ?_, ?_, ?_, ?_, ?_⟩
  · obtain ⟨-, hmost⟩ := hbound hno
    refine ⟨most, hmost, ?_⟩
    have hbounded := hstaffed.conserved.bounded
    rw [Permits.supply] at hbounded
    rw [← hstaffed.held]
    omega
  · exact speech_run h
  · exact ((placed_run h).shifts i s hs).workers
  · intro n
    rw [← weigh_eq_countP fun d : Dispatch => decide (d.number = n),
      ← weigh_eq_countP fun c : Parting => decide (c.number = n)]
    exact htallied.returned n
  · intro n
    rw [← weigh_eq_countP fun d : Dispatch => decide (d.number = n) && d.stage.isBack,
      ← weigh_eq_countP fun c : Parting => decide (c.number = n)]
    exact htallied.exited n
  · intro n steps hhome
    refine ⟨exists_step_home hsound hs hhome, fun m e' hm hsteps => ?_⟩
    obtain ⟨s', hs', hnearer⟩ := nearer_run h hs hhome hm
    have hreturned := (tallied_run (h.trans hm) hs').returned n
    rcases hnearer with hgone | ⟨left, hhome, hle⟩
    · -- It has come back, and no permit comes back twice.
      rw [List.countP_append] at hreturned ⊢
      split at hreturned <;> omega
    · have hpos := hhome.pos
      omega
  · intro hnone hway hidle
    obtain ⟨hin, hfree⟩ := hstaffed.restored hnone hway hidle
    refine ⟨hin, fun hno => ?_⟩
    obtain ⟨rfl, -⟩ := hbound hno
    refine ⟨hfree, fun hopen hspills => ?_⟩
    have hdebt := hstaffed.debt_eq_zero (frugal_run h hs hspills) hopen hnone hway hidle
    omega

def twoBegun : List Action :=
  [.openSession ["a"], .push, .fetch 0, .allow 0, .openSession ["b"], .push, .fetch 0, .allow 0]

/-- Two dispatches are under way when the limit falls to one; one gets no worker, and the worker of
the other crashes. -/
def crowded : List Action :=
  [.checkout 0 0 fun _ => true, .connected 0 0 (.ok ⟨1⟩), .setLimit 1, .checkout 0 1 fun _ => true,
    .connected 0 1 (.error .noCommand), .conclude 0 0 (.error (.crashed "exit status: 1"))]

/-- Both of them come to their end. The permit of the first is owed by then and destroyed. -/
def dispersed : List Action :=
  [.deliverFor 0 1, .deliverFor 0 1, .deliverFor 0 0, .deliverFor 0 1, .deliverFor 0 1,
    .deliverFor 0 1, .leave 0 1, .destroy 0 1, .deliverFor 0 0, .deliverFor 0 0, .deliverFor 0 0,
    .deliverFor 0 0, .checkin 0 0 true, .leave 0 0, .pass 0 0, .giveBack 0 0]

def crowdedTrial : List (Moment × Action) :=
  (twoBegun ++ crowded).map fun a => (default, a)

def crowdedEnd : List (Moment × Action) :=
  dispersed.map fun a => (default, a)

theorem crowded_trial_within_limit : ∃ l e s m e' s', (fresh {} 2 1 {}).Run l e ∧
    e.nth 0 = some s ∧ e.Run m e' ∧ e'.nth 0 = some s' ∧
    s.permits.limit = 1 ∧ s.permits.inFlight = 2 ∧ (∃ most ∈ limitsSince 0 l e, 2 ≤ most) ∧
    (l ++ m).countP (Turn.returns 0 0) = 1 ∧ (l ++ m).countP (Turn.returns 0 1) = 1 ∧
    s'.permits.inFlight = 0 ∧ s'.permits.free = s'.permits.limit := by
  have htrial : ((fresh {} 2 1 {}).follow crowdedTrial).any (fun r =>
      (r.2.follow crowdedEnd).any fun q =>
        (r.2.nth 0).any (fun s => decide (s.permits.limit = 1 ∧ s.dispatches.length = 2) &&
          s.dispatches.any fun d => decide (d.number = 0 ∧ d.stage.isBack = true ∧
            d.toGo ≤ q.1.countP (Turn.isOf 0 0))) &&
        (q.2.nth 0).any (fun s => decide (s.dispatches = [] ∧ s.parting = [] ∧
          s.cancelled = false ∧ s.phase.hasAsked = false ∧ 1 < s.started)) &&
        (r.1 ++ q.1).all fun turn => !turn.refuses 0 && !turn.spills 0) = true := by
    decide +kernel
  obtain ⟨⟨l, e⟩, hf, htrial⟩ := (Option.any_eq_true _ _).mp htrial
  obtain ⟨⟨m, e'⟩, hf', htrial⟩ := (Option.any_eq_true _ _).mp htrial
  obtain ⟨hstates, hturns⟩ := Bool.and_eq_true_iff.mp htrial
  obtain ⟨hmid, hend⟩ := Bool.and_eq_true_iff.mp hstates
  obtain ⟨s, hs, hmid⟩ := (Option.any_eq_true _ _).mp hmid
  obtain ⟨s', hs', hend⟩ := (Option.any_eq_true _ _).mp hend
  simp only [Bool.and_eq_true, decide_eq_true_eq, List.any_eq_true] at hmid hend
  simp only [List.all_eq_true, Bool.and_eq_true, Bool.not_eq_true'] at hturns
  obtain ⟨⟨hlimit, htwo⟩, d, hd, hzero, hback, hsteps⟩ := hmid
  obtain ⟨hnone, hway, hopen, hidle, hstarted⟩ := hend
  have hrun := run_of_follow crowdedTrial (l, e) hf
  have hrest := run_of_follow crowdedEnd (m, e') hf'
  obtain ⟨⟨hin, hmost⟩, -, -, -, -, hhome, -⟩ := dispatches_within_limit {} 2 1 {} l e 0 s hrun hs
  obtain ⟨-, -, -, hreturned, -, -, hfree⟩ :=
    dispatches_within_limit {} 2 1 {} (l ++ m) e' 0 s' (hrun.trans hrest) hs'
  obtain ⟨most, hmost, hle⟩ := hmost fun turn hl => (hturns turn (List.mem_append_left _ hl)).1
  have hfirst := (hhome 0 d.toGo (Or.inl ⟨d, hd, hzero, hback, Nat.le_refl _⟩)).2 m e' hrest hsteps
  have hsecond := hreturned 1
  rw [hnone, hway, if_pos hstarted] at hsecond
  obtain ⟨hnobody, hall⟩ := hfree hnone hway hidle
  have hkept := (hall fun turn hl => (hturns turn hl).1).2 hopen fun turn hl => (hturns turn hl).2
  rw [htwo] at hin hle
  exact ⟨l, e, s, m, e', s', hrun, hs, hrest, hs', hlimit, hin,
    ⟨most, hmost, Nat.le_trans (Nat.le_add_right 2 _) hle⟩, hfirst, hsecond, hnobody, hkept⟩

def unstaffed (n : Nat) : List Action :=
  [.checkout 0 n fun _ => true, .connected 0 n (.error .noCommand), .deliverFor 0 n,
    .deliverFor 0 n, .deliverFor 0 n, .deliverFor 0 n, .deliverFor 0 n, .leave 0 n, .pass 0 n]

def bothReturned : List Action :=
  [.giveBack 0 0, .giveBack 0 1]

def outrunTrial : List (Moment × Action) :=
  (twoBegun ++ unstaffed 0 ++ unstaffed 1 ++ (Action.setLimit 1 :: bothReturned)).map
    fun a => (default, a)

/-- With two dispatches under way the limit falls to one, and then more permits are asked for than
there can be. -/
def forgivenTrial : List (Moment × Action) :=
  (twoBegun ++ (Action.setLimit 1 :: Action.setLimit (Nat.pow 2 62) :: unstaffed 0) ++
    unstaffed 1 ++ bothReturned).map fun a => (default, a)

/-- With nobody there, more permits may be free than the limit says: a debt may outlive all who
could settle it, and a limit that is refused may still cancel one. -/
theorem settled_permits_outrun_limit :
    (∃ l e s, (fresh {} 2 1 {}).Run l e ∧ e.nth 0 = some s ∧ s.cancelled = false ∧
      s.dispatches = [] ∧ s.parting = [] ∧ s.phase = .choosing ∧ s.permits.inFlight = 0 ∧
      s.permits.limit = 1 ∧ s.permits.free = 2 ∧ s.permits.debt = 1 ∧
      ∀ turn ∈ l, turn.refuses 0 = false) ∧
    ∃ l e s, (fresh {} 2 1 {}).Run l e ∧ e.nth 0 = some s ∧ s.cancelled = false ∧
      s.dispatches = [] ∧ s.parting = [] ∧ s.phase = .choosing ∧ s.permits.inFlight = 0 ∧
      s.permits.limit = 1 ∧ s.permits.free = 2 ∧ s.permits.debt = 0 ∧
      ∀ turn ∈ l, turn.spills 0 = false := by
  have houtrun : ((fresh {} 2 1 {}).follow outrunTrial).any (fun r =>
      ((r.2.nth 0).any fun s => decide (s.cancelled = false ∧ s.dispatches = [] ∧ s.parting = [] ∧
        s.phase = .choosing ∧ s.permits.inFlight = 0 ∧ s.permits.limit = 1 ∧ s.permits.free = 2 ∧
        s.permits.debt = 1)) && decide (∀ turn ∈ r.1, turn.refuses 0 = false)) = true := by
    decide +kernel
  have hforgiven : ((fresh {} 2 1 {}).follow forgivenTrial).any (fun r =>
      ((r.2.nth 0).any fun s => decide (s.cancelled = false ∧ s.dispatches = [] ∧ s.parting = [] ∧
        s.phase = .choosing ∧ s.permits.inFlight = 0 ∧ s.permits.limit = 1 ∧ s.permits.free = 2 ∧
        s.permits.debt = 0)) && decide (∀ turn ∈ r.1, turn.spills 0 = false)) = true := by
    decide +kernel
  constructor
  · obtain ⟨⟨l, e⟩, hf, htrial⟩ := (Option.any_eq_true _ _).mp houtrun
    obtain ⟨hend, hturns⟩ := Bool.and_eq_true_iff.mp htrial
    obtain ⟨s, hs, hend⟩ := (Option.any_eq_true _ _).mp hend
    obtain ⟨h₁, h₂, h₃, h₄, h₅, h₆, h₇, h₈⟩ := of_decide_eq_true hend
    exact ⟨l, e, s, run_of_follow outrunTrial (l, e) hf, hs, h₁, h₂, h₃, h₄, h₅, h₆, h₇, h₈,
      of_decide_eq_true hturns⟩
  · obtain ⟨⟨l, e⟩, hf, htrial⟩ := (Option.any_eq_true _ _).mp hforgiven
    obtain ⟨hend, hturns⟩ := Bool.and_eq_true_iff.mp htrial
    obtain ⟨s, hs, hend⟩ := (Option.any_eq_true _ _).mp hend
    obtain ⟨h₁, h₂, h₃, h₄, h₅, h₆, h₇, h₈⟩ := of_decide_eq_true hend
    exact ⟨l, e, s, run_of_follow forgivenTrial (l, e) hf, hs, h₁, h₂, h₃, h₄, h₅, h₆, h₇, h₈,
      of_decide_eq_true hturns⟩

end Engine

end Retest
