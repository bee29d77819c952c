import Retest.Proofs.Collection
import Retest.Run.Docket

/-! What the operations of a docket leave open, and the errands they make: each result ends one test
that was open, and makes the same three errands. -/

namespace Retest
open Std

universe u v

def weigh {α : Type u} (f : α → Nat) : List α → Nat
  | [] => 0
  | a :: l => f a + weigh f l

section Weigh

variable {α : Type u} {β : Type v} (f : α → Nat)

@[simp] theorem weigh_nil : weigh f [] = 0 := rfl

@[simp] theorem weigh_cons (a : α) (l : List α) : weigh f (a :: l) = f a + weigh f l := rfl

@[simp] theorem weigh_append (l m : List α) : weigh f (l ++ m) = weigh f l + weigh f m := by
  induction l with
  | nil => simp
  | cons a l ih => simp [ih, Nat.add_assoc]

theorem weigh_map (h : β → α) (l : List β) : weigh f (l.map h) = weigh (fun b => f (h b)) l := by
  induction l with
  | nil => rfl
  | cons b l ih => simp [ih]

theorem weigh_flatMap (h : β → List α) (l : List β) :
    weigh f (l.flatMap h) = weigh (fun b => weigh f (h b)) l := by
  induction l with
  | nil => rfl
  | cons b l ih => simp [ih]

theorem weigh_perm (l m : List α) (h : l.Perm m) : weigh f l = weigh f m := by
  induction h with
  | nil => rfl
  | cons a _ ih => simp [ih]
  | swap a b l => simp [Nat.add_left_comm]
  | trans _ _ ih₁ ih₂ => rw [ih₁, ih₂]

theorem weigh_eq_zero (l : List α) (h : ∀ a ∈ l, f a = 0) : weigh f l = 0 := by
  induction l with
  | nil => rfl
  | cons a l ih =>
    rw [weigh_cons, h a List.mem_cons_self, ih fun b hb => h b (List.mem_cons_of_mem a hb)]

theorem weigh_congr (g : α → Nat) (l : List α) (h : ∀ a ∈ l, f a = g a) :
    weigh f l = weigh g l := by
  induction l with
  | nil => rfl
  | cons a l ih =>
    rw [weigh_cons, weigh_cons, h a List.mem_cons_self,
      ih fun b hb => h b (List.mem_cons_of_mem a hb)]

theorem weigh_const (n : Nat) (l : List α) : weigh (fun _ => n) l = l.length * n := by
  induction l with
  | nil => simp
  | cons a l ih => rw [weigh_cons, ih, List.length_cons, Nat.succ_mul, Nat.add_comm]

theorem weigh_eq_count [DecidableEq α] (a : α) (l : List α) :
    weigh (fun b => if b = a then 1 else 0) l = l.count a := by
  induction l with
  | nil => rfl
  | cons b l ih =>
    rw [weigh_cons, List.count_cons, ih]
    by_cases h : b = a
    · simp [h, Nat.add_comm]
    · simp [h]

theorem weigh_eq_countP (p : α → Bool) (l : List α) :
    weigh (fun a => (p a).toNat) l = l.countP p := by
  induction l with
  | nil => rfl
  | cons a l ih =>
    rw [weigh_cons, List.countP_cons, ih]
    cases p a <;> simp [Nat.add_comm]

theorem countP_concat (p : α → Bool) (l : List α) (a : α) :
    (l ++ [a]).countP p = l.countP p + (p a).toNat := by
  rw [List.countP_append]
  cases h : p a <;> simp [h]

/-- A member weighs no more than the list. -/
theorem le_weigh (l : List α) (a : α) (h : a ∈ l) : f a ≤ weigh f l := by
  induction l with
  | nil => simp at h
  | cons b l ih =>
    rw [weigh_cons]
    rcases List.mem_cons.mp h with rfl | h
    · omega
    · have hle := ih h
      omega

/-- What changes when a member becomes another one under its key. -/
theorem weigh_modify (key : α → Nat) (l : List α) (h : (l.map key).Nodup) (a : α) (ha : a ∈ l)
    (g : α → α) :
    weigh f (l.map fun b => if key b = key a then g b else b) + f a = weigh f l + f (g a) := by
  induction l with
  | nil => simp at ha
  | cons c l ih =>
    obtain ⟨hc, hl⟩ := List.nodup_cons.mp h
    rw [List.map_cons, weigh_cons, weigh_cons]
    rcases List.mem_cons.mp ha with rfl | ha
    · have hrest : (l.map fun b => if key b = key a then g b else b) = l := by
        refine (List.map_congr_left ?_).trans (List.map_id' l)
        intro b hb
        exact if_neg fun e => hc (List.mem_map.mpr ⟨b, hb, e⟩)
      rw [hrest, if_pos rfl]
      omega
    · have hne : key c ≠ key a := fun e => hc (List.mem_map.mpr ⟨a, ha, e.symm⟩)
      have hrest := ih hl ha
      rw [if_neg hne]
      omega

/-- What is taken out by its key takes its weight along. -/
theorem weigh_takeOut (key : α → Nat) (l : List α) (h : (l.map key).Nodup) (a : α) (ha : a ∈ l) :
    weigh f (l.filter fun b => key b ≠ key a) + f a = weigh f l := by
  induction l with
  | nil => simp at ha
  | cons c l ih =>
    obtain ⟨hc, hl⟩ := List.nodup_cons.mp h
    rcases List.mem_cons.mp ha with rfl | ha
    · have hrest : (l.filter fun b => key b ≠ key a) = l := by
        rw [List.filter_eq_self]
        intro b hb
        have hne : key b ≠ key a := fun e => hc (List.mem_map.mpr ⟨b, hb, e⟩)
        simpa using hne
      rw [List.filter_cons_of_neg (by simp), hrest, weigh_cons, Nat.add_comm]
    · have hne : key c ≠ key a := fun e => hc (List.mem_map.mpr ⟨a, ha, e.symm⟩)
      have hrest := ih hl ha
      rw [List.filter_cons_of_pos (by simpa using hne), weigh_cons, weigh_cons]
      omega

theorem length_takeOut (key : α → Nat) (l : List α) (h : (l.map key).Nodup) (a : α) (ha : a ∈ l) :
    (l.filter fun b => key b ≠ key a).length + 1 = l.length := by
  have hone := weigh_takeOut (fun _ => 1) key l h a ha
  simpa only [weigh_const, Nat.mul_one] using hone

end Weigh

def resultWeight (g : Errand → Nat) (r : TestResult) : Nat :=
  g (.note r) + g (.publish (.finished r)) + g (.count r.session r.outcome)

structure Silent (g : Errand → Nat) : Prop where
  started : ∀ s t, g (.publish (.started s t)) = 0
  diagnostic : ∀ s m, g (.publish (.diagnostic s m)) = 0

namespace Docket

structure Ends (d d' : Docket) (errands : List Errand) (ended : List TestResult) : Prop where
  session : d'.session = d.session
  tests : d'.tests = d.tests
  nodup : d'.unfinished.Nodup
  left : ∀ f : String → Nat,
    weigh f d.unfinished = weigh f d'.unfinished + weigh (fun r => f r.test) ended
  errands : ∀ g, Silent g → weigh g errands = weigh (resultWeight g) ended
  mine : ∀ r ∈ ended, r.session = d.session ∧ r.test ∈ d.tests

theorem ends_refl (d : Docket) (h : d.unfinished.Nodup) (errands : List Errand)
    (he : ∀ g, Silent g → weigh g errands = 0) : d.Ends d errands [] where
  session := rfl
  tests := rfl
  nodup := h
  left f := rfl
  errands g hg := he g hg
  mine := by simp

theorem ends_trans (d d' d'' : Docket) (l m : List Errand) (a b : List TestResult)
    (h : d.Ends d' l a) (h' : d'.Ends d'' m b) : d.Ends d'' (l ++ m) (a ++ b) where
  session := h'.session.trans h.session
  tests := h'.tests.trans h.tests
  nodup := h'.nodup
  left f := by
    rw [h.left, h'.left, weigh_append]
    omega
  errands g hg := by rw [weigh_append, h.errands g hg, h'.errands g hg, weigh_append]
  mine r hr := by
    rcases List.mem_append.mp hr with hr | hr
    · exact h.mine r hr
    · rw [← h.session, ← h.tests]
      exact h'.mine r hr

theorem expects_iff (d : Docket) (t : String) : d.expects t = true ↔ t ∈ d.unfinished := by
  simp [expects, unfinished]

/-- Taking one member out of a list without repetition takes its weight out. -/
theorem weigh_filter_ne (l : List String) (h : l.Nodup) (t : String) (ht : t ∈ l)
    (f : String → Nat) : weigh f l = weigh f (l.filter (· ≠ t)) + f t := by
  induction l with
  | nil => simp at ht
  | cons a l ih =>
    obtain ⟨ha, hl⟩ := List.nodup_cons.mp h
    by_cases hat : a = t
    · have hrest : l.filter (· ≠ t) = l := by
        rw [List.filter_eq_self]
        intro b hb
        have hbt : b ≠ t := fun e => ha (by rw [hat, ← e]; exact hb)
        simpa using hbt
      rw [List.filter_cons_of_neg (by simpa using hat), hrest, hat, weigh_cons]
      omega
    · have htl : t ∈ l := (List.mem_cons.mp ht).resolve_left fun e => hat e.symm
      have hrest := ih hl htl
      rw [List.filter_cons_of_pos (by simpa using hat), weigh_cons, weigh_cons]
      omega

section Finish

variable (d : Docket) (now : Moment) (t : String) (o : Outcome) (diagnostic : Option Diagnostic)

theorem finish_of_not_mem (h : t ∉ d.unfinished) : d.finish now t o diagnostic = (d, []) := by
  have he : ¬d.expects t = true := by rwa [expects_iff]
  simp [finish, he]

/-- An open test gets a result with the given outcome. -/
theorem finish_of_mem (h : t ∈ d.unfinished) :
    ∃ r, d.finish now t o diagnostic =
        ({ d with finished := d.finished.insert t }, .note r :: r.announce) ∧
      r.session = d.session ∧ r.test = t ∧ r.outcome = o := by
  have he : d.expects t = true := (expects_iff d t).mpr h
  refine ⟨⟨d.session, t, o, diagnostic,
    (d.started.find? t).map fun s => (now.millis - s.millis).toNat, now⟩, ?_, rfl, rfl, rfl⟩
  simp [finish, he]

theorem unfinished_insert :
    ({ d with finished := d.finished.insert t } : Docket).unfinished =
      d.unfinished.filter (· ≠ t) := by
  rw [unfinished, unfinished, List.filter_filter]
  congr 1
  funext s
  have hc := SortedSet.contains_insert d.finished t s
  by_cases hs : s = t
  · subst hs
    have hin : (d.finished.insert s).contains s = true := hc.mpr (Or.inl (by simp))
    simp [hin]
  · have hin : (d.finished.insert t).contains s = d.finished.contains s := by
      rw [Bool.eq_iff_iff, hc]
      simp [hs]
    simp [hin, hs]

theorem unfinished_finish :
    (d.finish now t o diagnostic).1.unfinished = d.unfinished.filter (· ≠ t) := by
  by_cases ht : t ∈ d.unfinished
  · obtain ⟨r, hr, -⟩ := finish_of_mem d now t o diagnostic ht
    rw [hr]
    exact unfinished_insert d t
  · rw [finish_of_not_mem d now t o diagnostic ht, eq_comm, List.filter_eq_self]
    intro s hs
    have hst : s ≠ t := fun e => ht (e ▸ hs)
    simpa using hst

/-- A result ends its test if that was open, and nothing else. -/
theorem ends_finish (h : d.unfinished.Nodup) :
    ∃ ended, d.Ends (d.finish now t o diagnostic).1 (d.finish now t o diagnostic).2 ended ∧
      ∀ r ∈ ended, r.outcome = o := by
  have hleft := unfinished_finish d now t o diagnostic
  by_cases ht : t ∈ d.unfinished
  · obtain ⟨r, hr, hsession, htest, houtcome⟩ := finish_of_mem d now t o diagnostic ht
    rw [hr] at hleft ⊢
    refine ⟨[r], ⟨rfl, rfl, ?_, ?_, ?_, ?_⟩, by simpa using houtcome⟩
    · rw [hleft]
      exact h.filter _
    · intro f
      rw [hleft, weigh_filter_ne d.unfinished h t ht f]
      simp [htest]
    · intro g _
      simp [TestResult.announce, resultWeight]
      omega
    · intro x hx
      rw [List.mem_singleton.mp hx, htest]
      exact ⟨hsession, (List.mem_filter.mp ht).1⟩
  · rw [finish_of_not_mem d now t o diagnostic ht]
    exact ⟨[], ends_refl d h [] (fun _ _ => rfl), by simp⟩

end Finish

/-- A docket that has only noted a start has the same tests open. -/
theorem ends_start (d : Docket) (now : Moment) (t : String) (h : d.unfinished.Nodup) :
    d.Ends (d.start now t).1 (d.start now t).2 [] := by
  rw [start]
  split
  · exact ends_refl d h [] fun _ _ => rfl
  · refine ⟨rfl, rfl, h, fun f => rfl, ?_, by simp⟩
    intro g hg
    simp [hg.started]

theorem ends_hear (d : Docket) (now : Moment) (news : WorkerNews) (h : d.unfinished.Nodup) :
    ∃ ended, d.Ends (d.hear now news).1 (d.hear now news).2 ended := by
  cases news with
  | started t => exact ⟨[], ends_start d now t h⟩
  | finished t o diagnostic =>
    obtain ⟨ended, he, -⟩ := ends_finish d now t o diagnostic h
    exact ⟨ended, he⟩

section FinishAll

variable (now : Moment) (outcome : String → Outcome) (reason : String) (d : Docket)

/-- Ending a list of tests leaves the others open. -/
theorem unfinished_finishAll (l : List String) :
    (finishAll now outcome reason d l).1.unfinished = d.unfinished.filter (· ∉ l) := by
  induction l generalizing d with
  | nil => exact (List.filter_eq_self.mpr (by simp)).symm
  | cons t l ih =>
    change (finishAll now outcome reason (d.finish now t (outcome t) _).1 l).1.unfinished = _
    rw [ih, unfinished_finish, List.filter_filter]
    congr 1
    funext s
    simp [not_or, Bool.and_comm]

theorem unfinished_finishAll_self :
    (finishAll now outcome reason d d.unfinished).1.unfinished = [] := by
  rw [unfinished_finishAll, List.filter_eq_nil_iff]
  simp

theorem ends_finishAll (l : List String) (h : d.unfinished.Nodup) :
    ∃ ended,
      d.Ends (finishAll now outcome reason d l).1 (finishAll now outcome reason d l).2 ended ∧
      ∀ r ∈ ended, ∃ t, r.outcome = outcome t := by
  induction l generalizing d with
  | nil => exact ⟨[], ends_refl d h [] (fun _ _ => rfl), by simp⟩
  | cons t l ih =>
    obtain ⟨first, hfirst, hout⟩ := ends_finish d now t (outcome t) (some { message := reason }) h
    obtain ⟨more, hmore, hout'⟩ := ih _ hfirst.nodup
    refine ⟨first ++ more, ends_trans _ _ _ _ _ _ _ hfirst hmore, ?_⟩
    intro r hr
    rcases List.mem_append.mp hr with hr | hr
    · exact ⟨t, hout r hr⟩
    · exact hout' r hr

end FinishAll

/-- A fresh docket has all its tests open. -/
theorem unfinished_fresh (session : SessionId) (tests : List String) :
    ({ session, tests } : Docket).unfinished = tests := by
  simp [unfinished, SortedSet.contains_empty]

end Docket

end Retest
