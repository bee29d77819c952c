import Retest.Path

namespace Retest
open Std

namespace Component

def label : Component → String
  | .normal name => name
  | .root | .current | .parent => ""

theorem order_eq_compareLex : order = compareLex (compareOn rank) (compareOn label) := by
  funext c d
  have hrank (m n : Nat) (h : m ≠ n) (o : Ordering) :
      (compare m n).then o = compare m n := by
    cases hc : compare m n with
    | eq => exact absurd (Nat.compare_eq_eq.mp hc) h
    | lt => rfl
    | gt => rfl
  cases c <;> cases d <;> simp [order, compareLex, compareOn, rank, label, hrank]

instance : TransOrd Component := by
  change TransCmp order
  rw [order_eq_compareLex]
  infer_instance

instance : LawfulEqOrd Component where
  eq_of_compare {c d} h := by
    change order c d = .eq at h
    rw [order_eq_compareLex] at h
    simp only [compareLex, compareOn, Ordering.then_eq_eq, LawfulEqOrd.compare_eq_iff_eq] at h
    cases c <;> cases d <;> simp_all [rank, label]

end Component

namespace Path

theorem compareComponents_eq_compareLex (l m : List Component) :
    compareComponents l m = List.compareLex compare l m := by
  induction l generalizing m with
  | nil => cases m <;> rfl
  | cons c l ih =>
    cases m with
    | nil => rfl
    | cons d m => rw [compareComponents, ih, List.compareLex_cons_cons]

theorem compare_eq_compareLex (p q : Path) :
    compare p q = List.compareLex compare p.components q.components :=
  compareComponents_eq_compareLex p.components q.components

instance : TransOrd Path := by
  have h : (compare : Path → Path → Ordering) = compareOn components := by
    funext p q
    exact compare_eq_compareLex p q
  change TransCmp compare
  rw [h]
  infer_instance

theorem compare_eq_iff (p q : Path) : compare p q = .eq ↔ p.components = q.components := by
  rw [compare_eq_compareLex]
  exact LawfulEqCmp.compare_eq_iff_eq

end Path

end Retest
