import Retest.Proofs.DocketRuns

/-! Fail-fast order after any results. It puts all names in one line: tests that failed last time,
then tests without a known duration, then the faster ones, and names break ties. So there is only
one sorted list of some tests, and whatever sorts them by their places finds it. -/

namespace Retest
open Std

namespace History

def ofResults (results : List TestResult) : History :=
  results.foldl (fun h r => h.record r.test r.outcome r.duration) {}

/-- The last result that tells how a test ran. One that was not run does not. -/
def lastResult? (results : List TestResult) (test : String) : Option TestResult :=
  results.reverse.find? fun r => r.test = test ∧ r.outcome ≠ .notRun

/-- What a history knows of a test is told by the last result that is one of a run. -/
theorem find_ofResults (results : List TestResult) (t : String) :
    (ofResults results).runs.find? t =
      (lastResult? results t).map fun r => ⟨r.outcome.isFailure, r.duration⟩ := by
  induction results using List.reverseRecOn with
  | nil => rfl
  | append_singleton results r ih =>
    have hofResults : ofResults (results ++ [r]) =
        (ofResults results).record r.test r.outcome r.duration := by
      simp [ofResults]
    have hlast : lastResult? (results ++ [r]) t =
        if r.test = t ∧ r.outcome ≠ .notRun then some r else lastResult? results t := by
      rw [lastResult?, List.reverse_append, List.reverse_singleton, List.singleton_append,
        List.find?_cons]
      by_cases hr : r.test = t ∧ r.outcome ≠ .notRun <;> simp [hr, lastResult?]
    rw [hofResults, find_record, hlast, TestResult.lastRun?, ih]
    by_cases ht : t = r.test
    · by_cases ho : r.outcome = .notRun <;> simp [ht, ho]
    · have ht' : ¬r.test = t := fun h => ht h.symm
      simp [ht, ht']

theorem lastFailed_ofResults (results : List TestResult) (t : String) :
    (ofResults results).lastFailed t = (lastResult? results t).any (·.outcome.isFailure) := by
  rw [lastFailed, find_ofResults]
  cases lastResult? results t <;> rfl

theorem lastDuration_ofResults (results : List TestResult) (t : String) :
    (ofResults results).lastDuration t = (lastResult? results t).bind (·.duration) := by
  rw [lastDuration, find_ofResults]
  cases lastResult? results t <;> rfl

end History

namespace Urgency

theorem ofHistory_eq (h : History) (t : String) :
    ofHistory h t = ⟨!h.lastFailed t, h.lastDuration t⟩ := by
  rw [ofHistory, History.lastFailed, History.lastDuration]
  cases h.runs.find? t <;> rfl

theorem compareDuration_eq_eq (d e : Option Nat) : compareDuration d e = .eq ↔ d = e := by
  cases d <;> cases e <;> simp [compareDuration]

theorem compareDuration_eq_lt (d e : Option Nat) : compareDuration d e = .lt ↔
    (d = none ∧ ∃ n, e = some n) ∨ ∃ m n, d = some m ∧ e = some n ∧ m < n := by
  cases d <;> cases e <;> simp [compareDuration, Nat.compare_eq_lt]

end Urgency

namespace Priority

inductive Leads (h : History) (a b : String) : Prop
  | failed (ha : h.lastFailed a = true) (hb : h.lastFailed b = false)
  | untimed {n : Nat} (hf : h.lastFailed a = h.lastFailed b) (ha : h.lastDuration a = none)
      (hb : h.lastDuration b = some n)
  | faster {m n : Nat} (hf : h.lastFailed a = h.lastFailed b) (ha : h.lastDuration a = some m)
      (hb : h.lastDuration b = some n) (hlt : m < n)
  | named (hf : h.lastFailed a = h.lastFailed b) (hd : h.lastDuration a = h.lastDuration b)
      (hlt : a < b)

/-- The sort that compares the tests themselves and leaves equal ones as they stand. -/
def plainSort (p : Priority) (h : History) (tests : List String) : List String :=
  tests.mergeSort fun a b => (p.order h a b).isLE

variable (h : History)

instance : TransCmp (order .failFast h) := failFast.total h

instance : LawfulEqCmp (order .failFast h) where
  eq_of_compare {a b} hab := by
    have hname : compare a b = .eq := (Ordering.then_eq_eq.mp hab).2
    exact LawfulEqOrd.eq_of_compare hname

theorem order_eq_lt_iff (a b : String) : order .failFast h a b = .lt ↔ Leads h a b := by
  -- The failed tests come first, so the flags are compared the other way round.
  have horder : order .failFast h a b =
      (compare (!h.lastFailed a) (!h.lastFailed b)).then
        ((Urgency.compareDuration (h.lastDuration a) (h.lastDuration b)).then (compare a b)) := by
    change compareUrgency h a b = _
    rw [compareUrgency, Urgency.ofHistory_eq, Urgency.ofHistory_eq, Urgency.order,
      Ordering.then_assoc]
  have hfailed (x y : Bool) : compare (!x) (!y) = .lt ↔ x = true ∧ y = false := by
    cases x <;> cases y <;> decide
  have hsame (x y : Bool) : compare (!x) (!y) = .eq ↔ x = y := by
    cases x <;> cases y <;> decide
  have hname : compare a b = .lt ↔ a < b := compareOfLessAndEq_eq_lt
  rw [horder, Ordering.then_eq_lt, Ordering.then_eq_lt, hfailed, hsame,
    Urgency.compareDuration_eq_lt, Urgency.compareDuration_eq_eq, hname]
  constructor
  · rintro (⟨ha, hb⟩ | ⟨hf, (⟨ha, n, hb⟩ | ⟨m, n, ha, hb, hlt⟩) | ⟨hd, hlt⟩⟩)
    · exact .failed ha hb
    · exact .untimed hf ha hb
    · exact .faster hf ha hb hlt
    · exact .named hf hd hlt
  · intro hl
    cases hl with
    | failed ha hb => exact Or.inl ⟨ha, hb⟩
    | untimed hf ha hb => exact Or.inr ⟨hf, Or.inl (Or.inl ⟨ha, _, hb⟩)⟩
    | faster hf ha hb hlt => exact Or.inr ⟨hf, Or.inl (Or.inr ⟨_, _, ha, hb, hlt⟩)⟩
    | named hf hd hlt => exact Or.inr ⟨hf, Or.inr ⟨hd, hlt⟩⟩

theorem isLE_order_iff (a b : String) :
    (order .failFast h a b).isLE = true ↔ a = b ∨ Leads h a b := by
  rw [Ordering.isLE_iff_eq_lt_or_eq_eq, LawfulEqCmp.compare_eq_iff_eq, order_eq_lt_iff, or_comm]

/-- In an order that tells all names apart, sorted lists of the same tests are one list. -/
theorem eq_of_sorted {l m : List String} (hp : l.Perm m)
    (hl : l.Pairwise fun a b => (order .failFast h a b).isLE = true)
    (hm : m.Pairwise fun a b => (order .failFast h a b).isLE = true) : l = m := by
  apply List.Perm.eq_of_pairwise _ hl hm hp
  intro a b _ _ hab hba
  exact LawfulEqCmp.eq_of_compare (OrientedCmp.isLE_antisymm hab hba)

/-- Whatever results a history has seen, its fail-fast order is a total one that goes by the last
result of each test, and sorting the tests with their places, in whatever way, gives the list that
sorting by comparison gives. -/
theorem failFast_sorts_agree (results : List TestResult) :
    let h := History.ofResults results
    (∀ t, h.lastFailed t = (History.lastResult? results t).any (·.outcome.isFailure) ∧
        h.lastDuration t = (History.lastResult? results t).bind (·.duration)) ∧
      (∀ a b, (order .failFast h a b = .lt ↔ Leads h a b) ∧
        (order .failFast h a b = .eq ↔ a = b) ∧ (order .failFast h a b = .gt ↔ Leads h b a)) ∧
      (∀ a b c, Leads h a b → Leads h b c → Leads h a c) ∧
      ∀ tests, (sort .failFast h tests).Perm tests ∧
        (sort .failFast h tests).Pairwise (fun a b => a = b ∨ Leads h a b) ∧
        sort .failFast h tests = plainSort .failFast h tests ∧
        ∀ places : List (Urgency × String), places.Perm (keyed h tests) →
          (places.Pairwise fun x y => keyedLe x y = true) →
            places.map (·.2) = plainSort .failFast h tests := by
  intro h
  have hlt := order_eq_lt_iff h
  refine ⟨?_, ?_, ?_, ?_⟩
  · intro t
    exact ⟨History.lastFailed_ofResults results t, History.lastDuration_ofResults results t⟩
  · intro a b
    refine ⟨hlt a b, LawfulEqCmp.compare_eq_iff_eq, ?_⟩
    rw [OrientedCmp.gt_iff_lt, hlt]
  · intro a b c hab hbc
    rw [← hlt] at hab hbc ⊢
    exact TransCmp.lt_trans hab hbc
  · intro tests
    have hplain : (plainSort .failFast h tests).Perm tests := List.mergeSort_perm tests _
    have hordered : (plainSort .failFast h tests).Pairwise fun a b =>
        (order .failFast h a b).isLE = true := pairwise_mergeSort (order .failFast h) tests
    have hperm := failFast.sort_perm h tests
    have hsort := failFast.pairwise_sort h tests
    refine ⟨hperm, ?_, ?_, ?_⟩
    · apply hsort.imp
      intro a b hle
      exact (isLE_order_iff h a b).mp hle
    · exact eq_of_sorted h (hperm.trans hplain.symm) hsort hordered
    · intro places hplaces hsorted
      have hnames : (keyed h tests).map (·.2) = tests := by simp [keyed, Function.comp_def]
      have hperm : (places.map (·.2)).Perm tests := by
        have hmap := hplaces.map (·.2)
        rwa [hnames] at hmap
      exact eq_of_sorted h (hperm.trans hplain.symm)
        (pairwise_of_keyed h tests places hplaces hsorted) hordered

def mixedResults : List TestResult :=
  [{ session := 1, test := "Slow", outcome := .pass, duration := some 900 },
    { session := 1, test := "Fast", outcome := .fail, duration := some 20 },
    { session := 1, test := "Broken", outcome := .crashed, duration := some 500 },
    { session := 2, test := "Fast", outcome := .pass, duration := some 10 },
    { session := 2, test := "Broken", outcome := .notRun, duration := some 1 },
    { session := 2, test := "New", outcome := .notRun }]

def mixedPlaces : List (Urgency × String) :=
  [(⟨false, some 500⟩, "Broken"), (⟨true, none⟩, "New"), (⟨true, some 10⟩, "Fast"),
    (⟨true, some 10⟩, "Fast"), (⟨true, some 900⟩, "Slow")]

/-- The test that failed comes first and the one that was never timed second. Places that are sorted
give the order of the comparisons. -/
theorem mixed_results_sort_alike :
    mixedPlaces.Perm (keyed (.ofResults mixedResults) ["Slow", "Fast", "New", "Broken", "Fast"]) ∧
      (mixedPlaces.Pairwise fun x y => keyedLe x y = true) ∧
      plainSort .failFast (.ofResults mixedResults) ["Slow", "Fast", "New", "Broken", "Fast"] =
        ["Broken", "New", "Fast", "Fast", "Slow"] ∧
      sort .failFast (.ofResults mixedResults) ["Slow", "Fast", "New", "Broken", "Fast"] =
        ["Broken", "New", "Fast", "Fast", "Slow"] ∧
      order .failFast (.ofResults mixedResults) "New" "Fast" = .lt := by
  obtain ⟨-, horder, -, hsorts⟩ := failFast_sorts_agree mixedResults
  obtain ⟨-, -, hsort, hplaces⟩ := hsorts ["Slow", "Fast", "New", "Broken", "Fast"]
  have hperm : mixedPlaces.Perm
      (keyed (.ofResults mixedResults) ["Slow", "Fast", "New", "Broken", "Fast"]) := by
    decide +kernel
  have hpairs : mixedPlaces.Pairwise fun x y => keyedLe x y = true := by decide +kernel
  have hplain := hplaces mixedPlaces hperm hpairs
  have htimed : (History.ofResults mixedResults).lastDuration "Fast" = some 10 := by
    decide +kernel
  have hahead : Leads (.ofResults mixedResults) "New" "Fast" :=
    .untimed (by decide +kernel) (by decide +kernel) htimed
  exact ⟨hperm, hpairs, hplain.symm, hsort.trans hplain.symm, (horder _ _).1.mpr hahead⟩

end Priority

end Retest
