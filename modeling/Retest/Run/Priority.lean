import Retest.Run.History

/-! The order in which the tests of one push are queued. A policy may go by how tests fared last
time; it has to put all tests in one line. -/

namespace Retest
open Std

structure Priority where
  order : History → String → String → Ordering
  sort : History → List String → List String
  total (h : History) : TransCmp (order h)
  sort_perm (h : History) (tests : List String) : (sort h tests).Perm tests
  pairwise_sort (h : History) (tests : List String) :
    (sort h tests).Pairwise fun a b => (order h a b).isLE = true

theorem Urgency.order_eq_compareLex :
    Urgency.order = compareLex (compareOn Urgency.passed) (compareOn Urgency.duration) := by
  funext a b
  have hduration : compareDuration a.duration b.duration = compare a.duration b.duration := by
    cases a.duration <;> cases b.duration <;> rfl
  change (compare a.passed b.passed).then _ = (compare a.passed b.passed).then _
  rw [hduration]
  rfl

instance : TransCmp Urgency.order := by
  rw [Urgency.order_eq_compareLex]
  infer_instance

namespace Priority

/-- Sorting by a transitive comparison puts a list in order. -/
theorem pairwise_mergeSort {α : Type} (cmp : α → α → Ordering) [TransCmp cmp] (l : List α) :
    (l.mergeSort fun a b => (cmp a b).isLE).Pairwise fun a b => (cmp a b).isLE = true := by
  apply List.pairwise_mergeSort
  · intro a b c
    exact TransCmp.isLE_trans
  · intro a b
    have hswap : cmp b a = (cmp a b).swap := OrientedCmp.eq_swap
    rw [hswap]
    cases cmp a b <;> rfl

/-- A policy that has no way of its own sorts by its comparison and leaves equal tests as they
stand. -/
def ofOrder (order : History → String → String → Ordering) (total : ∀ h, TransCmp (order h)) :
    Priority where
  order
  sort h tests := tests.mergeSort fun a b => (order h a b).isLE
  total
  sort_perm _ tests := List.mergeSort_perm tests _
  pairwise_sort h tests :=
    have := total h
    pairwise_mergeSort (order h) tests

def byName : Priority := .ofOrder (fun _ => compare) fun _ => inferInstance

def keyed (h : History) (tests : List String) : List (Urgency × String) :=
  tests.map fun t => (Urgency.ofHistory h t, t)

def keyedLe (a b : Urgency × String) : Bool :=
  ((a.1.order b.1).then (compare a.2 b.2)).isLE

def compareKeyed : Urgency × String → Urgency × String → Ordering :=
  compareLex (fun a b => a.1.order b.1) (compareOn Prod.snd)

instance : TransCmp fun a b : Urgency × String => a.1.order b.1 where
  eq_swap {a b} := by
    have hswap : Urgency.order a.1 b.1 = (Urgency.order b.1 a.1).swap := OrientedCmp.eq_swap
    exact hswap
  isLE_trans {a b c} hab hbc := by
    have hac : (Urgency.order a.1 c.1).isLE = true := TransCmp.isLE_trans hab hbc
    exact hac

instance : TransCmp compareKeyed := by
  unfold compareKeyed
  infer_instance

def compareUrgency (h : History) (a b : String) : Ordering :=
  ((Urgency.ofHistory h a).order (Urgency.ofHistory h b)).then (compare a b)

/-- Two tests compare as their places do, with the names behind them. -/
theorem compareUrgency_eq_compareKeyed (h : History) (a b : String) : compareUrgency h a b =
    compareKeyed (Urgency.ofHistory h a, a) (Urgency.ofHistory h b, b) := rfl

instance (h : History) : TransCmp (compareUrgency h) where
  eq_swap {a b} := by
    rw [compareUrgency_eq_compareKeyed, compareUrgency_eq_compareKeyed]
    exact OrientedCmp.eq_swap
  isLE_trans {a b c} hab hbc := by
    rw [compareUrgency_eq_compareKeyed] at hab hbc ⊢
    exact TransCmp.isLE_trans hab hbc

/-- However tests are put in the order of their places, the tests themselves are in order. -/
theorem pairwise_of_keyed (h : History) (tests : List String) (l : List (Urgency × String))
    (hp : l.Perm (keyed h tests)) (hl : l.Pairwise fun x y => keyedLe x y = true) :
    (l.map (·.2)).Pairwise fun a b => (compareUrgency h a b).isLE = true := by
  have hmem : ∀ e ∈ l, e.1 = Urgency.ofHistory h e.2 := by
    intro e he
    obtain ⟨t, -, rfl⟩ := List.mem_map.mp (hp.mem_iff.mp he)
    rfl
  apply List.pairwise_map.mpr
  apply List.Pairwise.imp_of_mem _ hl
  intro x y hx hy hle
  rw [compareUrgency, ← hmem x hx, ← hmem y hy]
  exact hle

/-- Tests that failed come first. All places are taken from the history before the tests are sorted
by them. -/
def failFast : Priority where
  order := compareUrgency
  sort h tests := ((keyed h tests).mergeSort keyedLe).map (·.2)
  total _ := inferInstance
  sort_perm h tests := by
    have hkeyed : (keyed h tests).map (·.2) = tests := by
      simp [keyed, Function.comp_def]
    have hperm := (List.mergeSort_perm (keyed h tests) keyedLe).map (·.2)
    rwa [hkeyed] at hperm
  pairwise_sort h tests := by
    have hkeyed : ((keyed h tests).mergeSort keyedLe).Pairwise fun x y => keyedLe x y = true :=
      pairwise_mergeSort compareKeyed (keyed h tests)
    exact pairwise_of_keyed h tests _ (List.mergeSort_perm _ _) hkeyed

instance : Inhabited Priority := ⟨failFast⟩

end Priority

end Retest
