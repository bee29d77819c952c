import Retest.Proofs.CatalogRuns
import Retest.Proofs.ImpactedTests
import Retest.Proofs.PackageNames
import Retest.Session

/-! A pass over the changes and a pass over everything bring the catalogue to the same state and
select from it by the same rules. The second one takes more: the tests from which no scanned class
is reached. On a fresh session these are the ones that were only found by their name. -/

namespace Retest
open Std

/-- No class imports itself, and a name is resolved to a class of that name. -/
structure ClassSource.Sound (source : ClassSource) : Prop where
  parse_noLoop : ∀ p, (source.parse p).name ∉ (source.parse p).imports.toList
  resolve_name : ∀ n, (source.resolve n).name = n

theorem ClassFile.sound_source (tree : FileTree) (roots : List Path) :
    (ClassFile.source tree roots).Sound where
  parse_noLoop := noLoop_parseFile tree
  resolve_name := name_resolve tree roots

theorem Catalog.index_of_nil (c : Catalog) (k : IndexCall) (h : k.files = []) : c.index k = c := by
  rw [index, h]
  rfl

/-- A name is resolved just when some found class wants it, and neither the listed files nor the
catalogue have it. -/
theorem Catalog.standIn_of_missing (c : Catalog) (k : IndexCall) {n : String} (hw : k.Wants n)
    (hother : ∀ f ∈ k.files, k.present f = true → (k.source.parse f).name ≠ n)
    (hc : c.graph.contains n = false) : standIn (k.resolved c) n = k.source.resolve n := by
  rw [IndexCall.resolved, standIn_ofNames, if_pos]
  refine (mem_missingImports _ _ n).mpr ⟨?_, ?_, hc⟩
  · obtain ⟨a, cls, ha, hcls⟩ := hw
    obtain ⟨-, f, hf, hfcls⟩ := k.find_found a cls ha
    obtain ⟨hpresent, hreadable, rfl⟩ := k.parse_of_holds f cls hfcls
    exact ⟨_, List.mem_map_of_mem (List.mem_filter.mpr ⟨hf, hpresent⟩), hreadable, hcls⟩
  · intro e he
    obtain ⟨f, hf, rfl⟩ := List.mem_map.mp he
    obtain ⟨hlisted, hpresent⟩ := List.mem_filter.mp hf
    exact hother f hlisted hpresent

theorem Catalog.missing_of_standIn (c : Catalog) (k : IndexCall) {n : String}
    (h : standIn (k.resolved c) n ≠ .placeholder n) :
    standIn (k.resolved c) n = k.source.resolve n ∧
      ∀ f ∈ k.files, k.present f = true → (k.source.parse f).name ≠ n := by
  rw [IndexCall.resolved, standIn_ofNames] at h ⊢
  split at h
  · next hn =>
    obtain ⟨-, hother, -⟩ := (mem_missingImports _ _ n).mp hn
    refine ⟨if_pos hn, ?_⟩
    intro f hf hpresent
    exact hother (f, k.source.parse f) (List.mem_map_of_mem (List.mem_filter.mpr ⟨hf, hpresent⟩))
  · exact absurd rfl h

namespace Session

section Pass

variable (s : Session) (tree : FileTree) {source : ClassSource} (hsource : source.Sound)

def call : IndexCall where
  source
  present := tree.pathExists
  files := (s.watch.scan tree).2.all
  parse_noLoop := hsource.parse_noLoop
  resolve_name := hsource.resolve_name

def caughtUp : Catalog := s.selection.catalog.index (s.call tree hsource)

def ruled : Selection := (s.selection.reloadRules tree).1

def Offers (n : String) : Prop :=
  (s.ruled tree).rules.acceptsNone = false ∧
    ∃ c, (s.caughtUp tree hsource).graph.classOf? n = some c ∧ (s.ruled tree).isEligible c = true

/-- A class reaches one that the scan has found: it is that class, or imports it directly or through
others. -/
def Touched (n : String) : Prop :=
  ∃ a, (s.call tree hsource).found.contains a = true ∧
    (s.caughtUp tree hsource).graph.Affects a n

/-- A test was found by its name: a scanned class imports it, no scanned file has its name, and what
the name is resolved to is a test which the rules leave. -/
def OnDemand (n : String) : Prop :=
  (s.ruled tree).rules.acceptsNone = false ∧ (s.call tree hsource).Wants n ∧
    (∀ f ∈ (s.call tree hsource).files, tree.pathExists f = true → (source.parse f).name ≠ n) ∧
      (s.ruled tree).isEligible (source.resolve n) = true

theorem call_files_of_isEmpty (h : (s.watch.scan tree).2.isEmpty = true) :
    (s.call tree hsource).files = [] := by
  rw [Changes.isEmpty, Bool.and_eq_true] at h
  have hchanged := List.isEmpty_iff.mp h.1
  have hremoved := List.isEmpty_iff.mp h.2
  change _ ++ _ = []
  rw [hchanged, hremoved]
  rfl

theorem selection_indexAll : (s.indexAll tree source).1.selection =
    { s.selection with catalog := s.caughtUp tree hsource } := by
  rw [indexAll]
  cases hscan : s.watch.scan tree with
  | mk watch changes =>
    by_cases hempty : changes.isEmpty = true
    · have hfiles := s.call_files_of_isEmpty tree hsource (by rwa [hscan])
      rw [caughtUp, Catalog.index_of_nil _ _ hfiles]
      simp [hempty]
    · rw [caughtUp, Catalog.index, call, hscan]
      simp [hempty]

theorem map_tests_runAll (source : ClassSource) (now : Moment) :
    (s.runAll tree source now).2.map (·.tests) =
      ((s.indexAll tree source).1.selection.testsNow tree).2 := by
  rw [runAll]
  cases s.indexAll tree source with
  | mk s' changes =>
    simp only [currentTests]
    cases s'.selection.testsNow tree with
    | mk selection result => cases result <;> rfl

theorem map_tests_update (source : ClassSource) (now : Moment) :
    (s.update tree source now).2.map (·.tests) =
      if (s.watch.scan tree).2.isEmpty then .ok .empty
      else (s.selection.testsFor tree source (s.watch.scan tree).2.all).2 := by
  cases hscan : s.watch.scan tree with
  | mk watch changes =>
    by_cases hempty : changes.isEmpty = true
    · simp [update, hscan, hempty, Except.map]
    · cases htests : s.selection.testsFor tree source changes.all with
      | mk selection result =>
        cases result <;> simp [update, testsFor, hscan, hempty, htests, Except.map, queue]

/-- A pass over everything selects from the whole catalogue. -/
theorem tests_runAll {now : Moment} {v : Update} (hv : (s.runAll tree source now).2 = .ok v) :
    v.tests = if (s.ruled tree).rules.acceptsNone then .empty
      else (s.ruled tree).eligible (s.caughtUp tree hsource).classes := by
  have htests := s.map_tests_runAll tree source now
  rw [hv, s.selection_indexAll tree hsource, Selection.testsNow, Selection.reloadRules] at htests
  rw [ruled, Selection.reloadRules]
  cases hr : s.selection.rules.reload tree with
  | mk rules result =>
    simp only [hr] at htests
    cases result with
    | error e => cases htests
    | ok => exact Except.ok.inj htests

/-- A pass over changes selects from what they reach. -/
theorem tests_update {now : Moment} {u : Update} (hu : (s.update tree source now).2 = .ok u) :
    u.tests = if (s.watch.scan tree).2.isEmpty || (s.ruled tree).rules.acceptsNone then .empty
      else (s.ruled tree).eligible ((s.call tree hsource).found.union
        ((s.caughtUp tree hsource).dependents (s.call tree hsource).found.keys)) := by
  have htests := s.map_tests_update tree source now
  rw [hu] at htests
  -- Without changes a pass over the changes ends before it looks at the rules.
  by_cases hempty : (s.watch.scan tree).2.isEmpty = true
  · rw [if_pos hempty] at htests
    rw [hempty, Bool.true_or, if_pos rfl]
    exact Except.ok.inj htests
  · have hfound : (s.selection.catalog.update source tree.pathExists (s.watch.scan tree).2.all).2 =
        (s.call tree hsource).found := by
      have heq := congrArg Prod.snd (Catalog.update_eq s.selection.catalog (s.call tree hsource))
      exact heq
    rw [if_neg hempty, Selection.testsFor, Selection.reloadRules] at htests
    rw [Bool.not_eq_true _ |>.mp hempty, Bool.false_or, ruled, Selection.reloadRules, caughtUp,
      Catalog.index, ← hfound]
    cases hr : s.selection.rules.reload tree with
    | mk rules result =>
      rw [hr] at htests
      cases result with
      | error e => cases htests
      | ok =>
        by_cases hnone : rules.acceptsNone = true
        · simp only [hnone, if_true] at htests ⊢
          exact Except.ok.inj htests
        · simp only [hnone] at htests ⊢
          exact Except.ok.inj htests

section Selected

variable (hwf : s.selection.catalog.graph.WellFormed)
  (hsorted : s.selection.catalog.graph.vertices.Sorted) {now : Moment} {u v : Update}

include hwf in
theorem wellFormed_caughtUp : (s.caughtUp tree hsource).graph.WellFormed :=
  Catalog.wellFormed_index s.selection.catalog (s.call tree hsource) hwf

include hwf hsorted in
theorem mem_tests_runAll (hv : (s.runAll tree source now).2 = .ok v) (n : String) :
    n ∈ v.tests.toList ↔ s.Offers tree hsource n := by
  have hwf' := s.wellFormed_caughtUp tree hsource hwf
  have hclasses : (s.caughtUp tree hsource).classes.Sorted :=
    SortedMap.sorted_mapEntries _ _ (fun _ => rfl)
      (Catalog.sorted_index s.selection.catalog (s.call tree hsource) hsorted)
  have hfind (a : String) : (s.caughtUp tree hsource).classes.find? a =
      (s.caughtUp tree hsource).graph.classOf? a := SortedMap.find_mapValues _ _ a
  have hname (a : String) (c : JvmClass)
      (hc : (s.caughtUp tree hsource).classes.find? a = some c) : c.name = a := by
    rw [hfind] at hc
    exact hwf'.named a c hc
  rw [s.tests_runAll tree hsource hv, Offers]
  by_cases hnone : (s.ruled tree).rules.acceptsNone = true
  · simp [hnone, SortedSet.empty]
  · simp only [hnone, Bool.false_eq_true, if_false, true_and,
      Selection.mem_eligible _ _ hclasses hname, hfind]

include hwf in
/-- What the found classes reach is found with the class that the catalogue has. -/
theorem find_reached (n : String) (c : JvmClass) :
    ((s.call tree hsource).found.union ((s.caughtUp tree hsource).dependents
        (s.call tree hsource).found.keys)).find? n = some c ↔
      (s.caughtUp tree hsource).graph.classOf? n = some c ∧ s.Touched tree hsource n :=
  s.selection.catalog.find_impact (s.call tree hsource) hwf n c

include hwf in
theorem mem_tests_update (hu : (s.update tree source now).2 = .ok u) (n : String) :
    n ∈ u.tests.toList ↔ s.Offers tree hsource n ∧ s.Touched tree hsource n := by
  have hreached := s.find_reached tree hsource hwf
  have hwf' := s.wellFormed_caughtUp tree hsource hwf
  rw [s.tests_update tree hsource hu, Offers]
  by_cases hempty : (s.watch.scan tree).2.isEmpty = true
  · -- Nothing is found, so nothing is touched.
    have huntouched : ¬s.Touched tree hsource n := by
      rintro ⟨a, ha, -⟩
      obtain ⟨f, hf, -⟩ := ((s.call tree hsource).contains_found a).mp ha
      rw [s.call_files_of_isEmpty tree hsource hempty] at hf
      cases hf
    simp [hempty, SortedSet.empty, huntouched]
  · by_cases hnone : (s.ruled tree).rules.acceptsNone = true
    · simp [hnone, SortedSet.empty]
    · have hunion := SortedMap.sorted_union (s.call tree hsource).found
        ((s.caughtUp tree hsource).dependents (s.call tree hsource).found.keys)
        (s.call tree hsource).sorted_found
      rw [Bool.not_eq_true _ |>.mp hempty, Bool.false_or, if_neg hnone,
        Selection.mem_eligible _ _ hunion fun a c hc => hwf'.named a c ((hreached a c).mp hc).1]
      simp only [hreached, Bool.not_eq_true _ |>.mp hnone, true_and]
      constructor
      · rintro ⟨c, ⟨hc, ht⟩, hel⟩
        exact ⟨⟨c, hc, hel⟩, ht⟩
      · rintro ⟨⟨c, hc, hel⟩, ht⟩
        exact ⟨c, ⟨hc, ht⟩, hel⟩

end Selected

/-- On a fresh session the tests that no found class reaches are those found by their name. -/
theorem offers_untouched_iff (hfresh : s.selection.catalog = .empty) (n : String) :
    s.Offers tree hsource n ∧ ¬s.Touched tree hsource n ↔ s.OnDemand tree hsource n := by
  have hwf : s.selection.catalog.graph.WellFormed := by
    rw [hfresh]
    exact ImportGraph.wellFormed_empty
  have hnoted (a : String) :
      (s.selection.catalog.noted (s.call tree hsource)).graph.contains a = false := by
    rw [← Bool.not_eq_true]
    intro ha
    have hold := ImportGraph.contains_of_restricts _ _ (Catalog.restricts_noted _ _ hwf) a ha
    rw [hfresh] at hold
    cases hold
  constructor
  · rintro ⟨⟨hrules, c, hc, hel⟩, huntouched⟩
    -- The catalogue was empty, so a class in it is found by the scan or wanted by one that is.
    rcases Catalog.classOf_index_cases _ _ hc with hfound | ⟨-, hkept⟩ | ⟨-, -, hwants, rfl⟩
    · refine absurd ⟨n, ?_, Relation.ReflTransGen.refl⟩ huntouched
      rw [SortedMap.contains, hfound]
      rfl
    · have hcontains := hnoted n
      rw [ImportGraph.contains_eq_isSome, hkept] at hcontains
      cases hcontains
    · -- A class that is known by its name only is no test.
      have hresolved : Catalog.standIn ((s.call tree hsource).resolved s.selection.catalog) n ≠
          .placeholder n := by
        intro hplaceholder
        rw [hplaceholder] at hel
        cases hel
      obtain ⟨hstand, hother⟩ := Catalog.missing_of_standIn _ _ hresolved
      rw [hstand] at hel
      exact ⟨hrules, hwants, hother, hel⟩
  · rintro ⟨hrules, hwants, hother, hel⟩
    have hnone : (s.call tree hsource).found.find? n = none := by
      rw [Option.eq_none_iff_forall_ne_some]
      intro y hy
      obtain ⟨hname, f, hf, hfy⟩ := (s.call tree hsource).find_found n y hy
      obtain ⟨hpresent, -, rfl⟩ := (s.call tree hsource).parse_of_holds f y hfy
      exact hother f hf hpresent hname
    have hclass := Catalog.classOf_index_of_wanted s.selection.catalog (s.call tree hsource) hnone
      (hnoted n) hwants
    rw [Catalog.standIn_of_missing _ _ hwants hother (by rw [hfresh]; rfl)] at hclass
    refine ⟨⟨hrules, source.resolve n, hclass, hel⟩, ?_⟩
    -- Such a class imports nothing in the graph, so it reaches no other.
    rintro ⟨a, ha, haffects⟩
    rcases Relation.ReflTransGen.cases_tail haffects with rfl | ⟨b, -, hb⟩
    · rw [SortedMap.contains, hnone] at ha
      cases ha
    · have hwf' := s.wellFormed_caughtUp tree hsource hwf
      rcases (Catalog.mem_importsOf_index _ _ n b).mp ((hwf'.mirrored n b).mpr hb) with
        ⟨cls, hcls, -⟩ | ⟨-, hkept⟩
      · rw [hnone] at hcls
        cases hcls
      · have hcontains := ImportGraph.contains_of_mem_importsOf _ n b hkept
        rw [hnoted n] at hcontains
        cases hcontains

/-- Whenever both succeed, a pass over everything selects what a pass over the changes selects, and
besides the tests of the catalogue from which no scanned class is reached; on a fresh session these
are the tests that were found by their name. -/
theorem runAll_selects_iff (calls : List IndexCall)
    (hcalls : s.selection.catalog = Catalog.ofCalls calls) {now now' : Moment} {u v : Update}
    (hu : (s.update tree source now).2 = .ok u) (hv : (s.runAll tree source now').2 = .ok v) :
    (∀ n, n ∈ v.tests.toList ↔ n ∈ u.tests.toList ∨
        s.Offers tree hsource n ∧ ¬s.Touched tree hsource n) ∧
      (∀ n ∈ u.tests.toList, s.Touched tree hsource n) ∧
      (calls = [] → ∀ n, s.Offers tree hsource n ∧ ¬s.Touched tree hsource n ↔
        s.OnDemand tree hsource n) := by
  have hwf : s.selection.catalog.graph.WellFormed := by
    rw [hcalls]
    exact Catalog.wellFormed_ofCalls calls
  have hsorted : s.selection.catalog.graph.vertices.Sorted := by
    rw [hcalls]
    exact Catalog.sorted_ofCalls calls
  have hupdate := s.mem_tests_update tree hsource hwf hu
  refine ⟨?_, fun n hn => ((hupdate n).mp hn).2, ?_⟩
  · intro n
    rw [s.mem_tests_runAll tree hsource hwf hsorted hv, hupdate, ← and_or_left,
      and_iff_left (Classical.em _)]
  · rintro rfl n
    exact s.offers_untouched_iff tree hsource hcalls n

end Pass

/-! A class `A` refers to a test in a directory that no scan enters, because its name is not that of
a package. -/

namespace Unscanned

def testCase (name other : List UInt8) : List UInt8 :=
  [0xCA, 0xFE, 0xBA, 0xBE, 0, 0, 0, 52, 0, 7] ++ (1 :: 0 :: name.length.toUInt8 :: name) ++
    [7, 0, 1, 1, 0, 24, 106, 117, 110, 105, 116, 47, 102, 114, 97, 109, 101, 119, 111, 114, 107, 47,
      84, 101, 115, 116, 67, 97, 115, 101, 7, 0, 3] ++
        (1 :: 0 :: other.length.toUInt8 :: other) ++ [7, 0, 5, 0, 0x21, 0, 2, 0, 4]

def nested : List UInt8 := [49, 112, 47, 66]

def tree : FileTree :=
  ⟨.directory [("c", .directory [("A.class", .file (testCase [65] nested) default),
    ("1p", .directory [("B.class", .file (testCase nested nested) default)])])], []⟩

def source : ClassSource := ClassFile.source tree [⟨"c"⟩]

def session : Session := .ofDirs [⟨"c"⟩] {} (.ofSettings {} 1 1)

def tests (r : Session × Except RuleFileError Update) : Option (List String) :=
  match r.2 with
  | .error _ => none
  | .ok u => some u.tests.toList

theorem exists_tests {r : Session × Except RuleFileError Update} {l : List String}
    (h : tests r = some l) : ∃ u, r.2 = .ok u ∧ u.tests.toList = l := by
  rw [tests] at h
  split at h
  · cases h
  · next u hu => exact ⟨u, hu, Option.some.inj h⟩

/-- Only the class at the top is seen. -/
theorem visible_tree : session.watch.visible tree = [(⟨"c/A.class"⟩, default)] := by
  have hroot : tree.node? ⟨"c"⟩ = some (.directory
      [("A.class", .file (testCase [65] nested) default),
        ("1p", .directory [("B.class", .file (testCase nested nested) default)])]) := rfl
  have hclass : classFilesAt FileTree.fits ⟨"c"⟩ "A.class" (.file (testCase [65] nested) default) =
      [(⟨"c/A.class"⟩, default)] := by
    decide
  have hopens : FileTree.fits ⟨"c"⟩ = true := by decide
  have hnested : isPackageName "1p" = false :=
    not_isPackageName_of_digit "1p" rfl (by decide)
  rw [Watchlist.visible, show session.watch.roots = [⟨"c"⟩] from rfl, List.flatMap_singleton, hroot]
  simp only [FileNode.classFiles, hopens, if_true, classFilesIn, hclass, List.append_nil]
  simp [classFilesAt, hnested]

theorem tests_update : tests (session.update tree source default) = some ["A"] := by
  rw [update, Watchlist.scan, visible_tree]
  decide +kernel

theorem tests_runAll : tests (session.runAll tree source default) = some ["1p.B", "A"] := by
  rw [runAll, indexAll, Watchlist.scan, visible_tree]
  decide +kernel

end Unscanned

/-- The two passes do not always agree. -/
theorem passes_differ :
    ¬∀ (s : Session) (tree : FileTree) (source : ClassSource) (now now' : Moment) (u v : Update),
      s.watch.tracked = .empty → s.selection.catalog = .empty → source.Sound →
      (s.update tree source now).2 = .ok u → (s.runAll tree source now').2 = .ok v →
      u.tests = v.tests := by
  intro h
  obtain ⟨u, hu, htests⟩ := Unscanned.exists_tests Unscanned.tests_update
  obtain ⟨v, hv, hall⟩ := Unscanned.exists_tests Unscanned.tests_runAll
  have hsame := h Unscanned.session Unscanned.tree Unscanned.source default default u v rfl rfl
    (ClassFile.sound_source _ _) hu hv
  rw [hsame, hall] at htests
  exact absurd htests (by decide)

/-- What they differ by there was found by its name. -/
theorem unscanned_test_is_on_demand : Unscanned.session.OnDemand Unscanned.tree
    (ClassFile.sound_source Unscanned.tree [⟨"c"⟩]) "1p.B" := by
  obtain ⟨u, hu, htests⟩ := Unscanned.exists_tests Unscanned.tests_update
  obtain ⟨v, hv, hall⟩ := Unscanned.exists_tests Unscanned.tests_runAll
  obtain ⟨hselects, -, hdemand⟩ := runAll_selects_iff Unscanned.session Unscanned.tree
    (ClassFile.sound_source Unscanned.tree [⟨"c"⟩]) [] rfl hu hv
  have hmore : "1p.B" ∈ v.tests.toList := by
    rw [hall]
    exact List.mem_cons_self
  refine (hdemand rfl "1p.B").mp (((hselects "1p.B").mp hmore).resolve_left ?_)
  rw [htests]
  decide

end Session

end Retest
