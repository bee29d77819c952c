import Retest.Proofs.Scan
import Retest.Session

/-! What becomes of changes when the rules fail: the scan has noted them, but neither the catalogue
nor the queue gets them, and the next pass does not find them any more. -/

namespace Retest.Session

section Update

variable (s : Session) (tree : FileTree) (source : ClassSource) (now : Moment)

theorem watch_testsFor (files : List Path) : (s.testsFor tree source files).1.watch = s.watch := by
  rw [testsFor]
  split <;> rfl

/-- However a pass ends, what its scan saw is noted. -/
theorem watch_update : (s.update tree source now).1.watch = (s.watch.scan tree).1 := by
  cases hscan : s.watch.scan tree with
  | mk watch changes =>
    simp only [update, hscan]
    split
    · rfl
    · have htests := watch_testsFor { s with watch } tree source changes.all
      split
      · next s' e h =>
        rw [h] at htests
        exact htests
      · next s' tests h =>
        rw [h] at htests
        exact htests

theorem update_of_isEmpty (h : (s.watch.scan tree).2.isEmpty = true) :
    (s.update tree source now).2 = .ok {} := by
  cases hscan : s.watch.scan tree with
  | mk watch changes =>
    rw [hscan] at h
    have hempty : changes.isEmpty = true := h
    simp [update, hscan, hempty]

/-- A selection that fails or is cut short by the rules leaves the catalogue as it was. -/
theorem catalog_testsFor (s : Selection) (files : List Path)
    (h : (∃ e, (s.testsFor tree source files).2 = .error e) ∨
      (s.testsFor tree source files).1.rules.acceptsNone = true) :
    (s.testsFor tree source files).1.catalog = s.catalog := by
  have hrules : (s.reloadRules tree).1.catalog = s.catalog := rfl
  rw [Selection.testsFor] at h ⊢
  cases hr : s.reloadRules tree with
  | mk s' result =>
    rw [hr] at hrules
    simp only [hr] at h ⊢
    cases result with
    | error e => exact hrules
    | ok =>
      by_cases hnone : s'.rules.acceptsNone = true
      · simp only [hnone, if_true]
        exact hrules
      · simp [hnone] at h

theorem selection_queue (changes : Changes) (tests : SortedSet String) :
    (s.queue now changes tests).1.selection = s.selection := rfl

/-- A pass that fails or is cut short by the rules leaves the catalogue as it was. -/
theorem catalog_update (h : (∃ e, (s.update tree source now).2 = .error e) ∨
      (s.update tree source now).1.selection.rules.acceptsNone = true) :
    (s.update tree source now).1.selection.catalog = s.selection.catalog := by
  cases hscan : s.watch.scan tree with
  | mk watch changes =>
    by_cases hempty : changes.isEmpty = true
    · simp [update, hscan, hempty]
    · have hcatalog := catalog_testsFor tree source s.selection changes.all
      cases ht : s.selection.testsFor tree source changes.all with
      | mk selection result =>
        rw [ht] at hcatalog
        cases result with
        | error e =>
          simp only [update, hscan, hempty, testsFor, ht]
          exact hcatalog (Or.inl ⟨e, rfl⟩)
        | ok tests =>
          simp only [update, hscan, hempty, testsFor, ht] at h ⊢
          refine hcatalog (Or.inr ?_)
          simpa [selection_queue] using h

/-- Rules that accept nothing select nothing. -/
theorem tests_of_acceptsNone (s : Selection) (files : List Path) (tests : SortedSet String)
    (h : (s.testsFor tree source files).2 = .ok tests)
    (hnone : (s.testsFor tree source files).1.rules.acceptsNone = true) : tests = .empty := by
  rw [Selection.testsFor] at h hnone
  cases hr : s.reloadRules tree with
  | mk s' result =>
    simp only [hr] at h hnone
    cases result with
    | error e => cases h
    | ok =>
      by_cases hno : s'.rules.acceptsNone = true
      · simp only [hno, if_true] at h
        exact (Except.ok.inj h).symm
      · simp [hno] at hnone

/-- Nor does such a pass queue anything. -/
theorem shifts_update (h : (∃ e, (s.update tree source now).2 = .error e) ∨
      (s.update tree source now).1.selection.rules.acceptsNone = true) :
    (s.update tree source now).1.engine.shifts = s.engine.shifts := by
  cases hscan : s.watch.scan tree with
  | mk watch changes =>
    by_cases hempty : changes.isEmpty = true
    · simp [update, hscan, hempty]
    · have htests := tests_of_acceptsNone tree source s.selection changes.all
      cases ht : s.selection.testsFor tree source changes.all with
      | mk selection result =>
        rw [ht] at htests
        cases result with
        | error e =>
          -- Only the desk gets to know of the failure.
          simp only [update, hscan, hempty, testsFor, ht]
          rfl
        | ok tests =>
          simp only [update, hscan, hempty, testsFor, ht] at h ⊢
          have hnone : selection.rules.acceptsNone = true := by simpa [selection_queue] using h
          rw [htests tests rfl hnone]
          rfl

/-- Once the rules have failed or have accepted nothing, a pass by repaired rules over the same
files finds nothing: it agrees with what the first pass would have selected by these rules just when
that is nothing. The changes have reached neither the catalogue nor the queue. -/
theorem repaired_update_agrees_iff (tree' : FileTree) (now' : Moment) (ht : tree.root.Tidy)
    (hsame : s.watch.Untouched tree tree')
    (hfail : (∃ e, (s.update tree source now).2 = .error e) ∨
      (s.update tree source now).1.selection.rules.acceptsNone = true) :
    (s.update tree source now).1.selection.catalog = s.selection.catalog ∧
      (s.update tree source now).1.engine.shifts = s.engine.shifts ∧
      ((s.update tree source now).1.update tree' source now').2 = .ok {} ∧
      (((s.update tree source now).1.update tree' source now').2.map (·.tests) =
          (s.update tree' source now).2.map (·.tests) ↔
        (s.update tree' source now).2.map (·.tests) = .ok .empty) := by
  -- The first pass has noted the files before it failed, and nobody has touched them since.
  have hempty : ((s.update tree source now).1.watch.scan tree').2.isEmpty = true := by
    rw [watch_update]
    exact s.watch.isEmpty_scan_again tree FileTree.fits tree' ht hsame
  have hnothing := update_of_isEmpty (s.update tree source now).1 tree' source now' hempty
  refine ⟨catalog_update s tree source now hfail, shifts_update s tree source now hfail, hnothing,
    ?_⟩
  rw [hnothing]
  exact eq_comm

end Update

namespace Trial

def tree (rules : List UInt8) : FileTree :=
  ⟨.directory [("c", .directory [("A.class", .file [] default)]), ("f", .file rules default)], []⟩

def broken : List UInt8 := [40, 98, 97, 100, 10]

def repaired : List UInt8 := [35, 32, 102, 105, 110, 101, 10]

def source (isTest : Bool) : ClassSource where
  parse file := .ofImports "A" [] isTest (some file)
  resolve := .placeholder

def session : Session := .ofDirs [⟨"c"⟩] { file := some ⟨"f"⟩ } (.ofSettings {} 1 1)

theorem tidy_tree (rules : List UInt8) : (tree rules).root.Tidy := by
  have hroot : ["c", "f"].Nodup := by decide
  have hdir : ["A.class"].Nodup := by decide
  have hc : Path.IsName "c" := by decide
  have ha : Path.IsName "A.class" := by decide
  have hf : Path.IsName "f" := by decide
  exact ⟨hroot, hc, ⟨hdir, ha, trivial, trivial⟩, hf, trivial, trivial⟩

theorem untouched : session.watch.Untouched (tree broken) (tree repaired) where
  visible e := by
    have hsame : session.watch.visible (tree repaired) = session.watch.visible (tree broken) := by
      decide
    rw [hsame]
  present p hp := absurd hp List.not_mem_nil

def tests (r : Session × Except RuleFileError Update) : Option (List String) :=
  match r.2 with
  | .error _ => none
  | .ok u => some u.tests.toList

theorem update_broken (isTest : Bool) :
    ∃ e, (session.update (tree broken) (source isTest) default).2 = .error e := by
  have hnone : ∀ b, tests (session.update (tree broken) (source b) default) = none := by
    decide
  have hfail := hnone isTest
  rw [tests] at hfail
  split at hfail
  · next e he => exact ⟨e, he⟩
  · cases hfail

theorem map_tests (r : Session × Except RuleFileError Update) (l : List String)
    (h : tests r = some l) : r.2.map (·.tests) = .ok ⟨l⟩ := by
  rw [tests] at h
  split at h
  · cases h
  · next u hu =>
    rw [hu, ← Option.some.inj h]
    rfl

end Trial

/-- With a class that is no test nothing was to be selected, so nothing is missed. -/
theorem repaired_update_agrees_without_tests :
    ((Trial.session.update (Trial.tree Trial.broken) (Trial.source false) default).1.update
        (Trial.tree Trial.repaired) (Trial.source false) default).2.map (·.tests) =
      (Trial.session.update (Trial.tree Trial.repaired) (Trial.source false) default).2.map
        (·.tests) := by
  obtain ⟨-, -, -, hiff⟩ := repaired_update_agrees_iff Trial.session (Trial.tree Trial.broken)
    (Trial.source false) default (Trial.tree Trial.repaired) default (Trial.tidy_tree _)
    Trial.untouched (Or.inl (Trial.update_broken false))
  exact hiff.mpr (Trial.map_tests _ [] (by decide +kernel))

/-- With a test it is missed. -/
theorem repaired_update_misses_test :
    ¬∀ (s : Session) (tree tree' : FileTree) (source : ClassSource) (now now' : Moment),
      tree.root.Tidy → tree'.root.Tidy → s.watch.Untouched tree tree' →
      ((∃ e, (s.update tree source now).2 = .error e) ∨
        (s.update tree source now).1.selection.rules.acceptsNone = true) →
      ((s.update tree source now).1.update tree' source now').2.map (·.tests) =
        (s.update tree' source now).2.map (·.tests) := by
  intro h
  have hsame := h Trial.session (Trial.tree Trial.broken) (Trial.tree Trial.repaired)
    (Trial.source true) default default (Trial.tidy_tree _) (Trial.tidy_tree _) Trial.untouched
    (Or.inl (Trial.update_broken true))
  have hmissed : Trial.tests ((Trial.session.update (Trial.tree Trial.broken) (Trial.source true)
      default).1.update (Trial.tree Trial.repaired) (Trial.source true) default) = some [] := by
    decide +kernel
  have hwanted : Trial.tests (Trial.session.update (Trial.tree Trial.repaired) (Trial.source true)
      default) = some ["A"] := by
    decide +kernel
  rw [Trial.map_tests _ [] hmissed, Trial.map_tests _ ["A"] hwanted] at hsame
  cases hsame

end Retest.Session
