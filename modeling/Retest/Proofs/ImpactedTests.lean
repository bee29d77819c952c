import Retest.Proofs.CatalogUpdate
import Retest.Proofs.SearchOrder
import Retest.Select.Selection

/-! The tests that changed files call for. They are the eligible ones among the classes from which a
class of these files is reached, in the catalogue as it is once the files have been read. -/

namespace Retest
open Std

namespace ImportGraph

variable (g : ImportGraph)

theorem contains_add (c : JvmClass) (a : String) :
    (g.add c none).1.contains a = true ↔ a = c.name ∨ g.contains a = true := by
  rw [contains_eq_isSome, classOf_add g c (not_has_none g c), contains_eq_isSome]
  by_cases ha : a = c.name <;> simp [ha]

theorem contains_addAll (l : List JvmClass) (a : String) :
    (g.addAll l).contains a = true ↔ (∃ c ∈ l, c.name = a) ∨ g.contains a = true := by
  induction l generalizing g with
  | nil => simp [addAll]
  | cons c l ih =>
    change ((g.add c none).1.addAll l).contains a = true ↔ _
    simp only [ih, contains_add, List.mem_cons, exists_eq_or_imp, ← or_assoc]
    rw [or_comm (a := ∃ d ∈ l, d.name = a), eq_comm (a := a)]

/-- Some vertices together with all that depends on them are found with the classes of the graph,
whatever class the map has under a name. -/
theorem find_union_dependents {g : ImportGraph} (hg : g.WellFormed) (m : SortedMap String JvmClass)
    (hm : ∀ a, m.contains a = true → g.contains a = true) (n : String) (c : JvmClass) :
    (m.union (g.dependents m.keys)).find? n = some c ↔
      g.classOf? n = some c ∧ ∃ a, m.contains a = true ∧ g.Affects a n := by
  have hdependents (d : JvmClass) : (g.dependents m.keys).find? n = some d ↔
      g.classOf? n = some d ∧ ∃ a, m.contains a = true ∧ g.Affects a n := by
    rw [find_dependents_iff hg]
    refine and_congr_right fun _ => exists_congr fun a => ?_
    rw [SortedMap.mem_keys_iff]
    exact and_congr_right fun ha => and_iff_right (hm a ha)
  rw [SortedMap.find_union _ _ (sorted_dependents _ _), Option.or_eq_some_iff, hdependents]
  refine or_iff_left ?_
  -- What the map has depends on itself, so the search has found it too.
  rintro ⟨hmissed, hc⟩
  have hn : m.contains n = true := by
    rw [SortedMap.contains, hc]
    rfl
  obtain ⟨d, hd⟩ := (contains_iff g n).mp (hm n hn)
  have hfound := (hdependents d).mpr ⟨hd, n, hn, Relation.ReflTransGen.refl⟩
  rw [hmissed] at hfound
  cases hfound

end ImportGraph

namespace Catalog

section Impact

variable (c : Catalog) (k : IndexCall)

def impact : SortedMap String JvmClass := k.found.union ((c.index k).dependents k.found.keys)

theorem sorted_impact : (c.impact k).Sorted := SortedMap.sorted_union _ _ k.sorted_found

/-- What the found classes reach is found with the class that the catalogue has. -/
theorem find_impact (h : c.graph.WellFormed) (n : String) (x : JvmClass) :
    (c.impact k).find? n = some x ↔ (c.index k).graph.classOf? n = some x ∧
      ∃ a, k.found.contains a = true ∧ (c.index k).graph.Affects a n := by
  refine ImportGraph.find_union_dependents (wellFormed_index c k h) k.found ?_ n x
  intro a ha
  obtain ⟨y, hy⟩ := Option.isSome_iff_exists.mp ha
  exact (ImportGraph.contains_iff _ a).mpr ⟨y, classOf_index_of_found c k hy⟩

end Impact

section Update

variable (c : Catalog) (source : ClassSource) (present : Path → Bool) (files : List Path)

/-- What every note keeps holds once all the files have been noted. -/
theorem noteAll_induction (P : Catalog → Prop) (h : P c)
    (hnote : ∀ c f now, P c → P (c.note f now)) : P (c.noteAll source present files) := by
  have hgone : P ((files.filter fun f => !present f).foldl evict c) :=
    List.foldlRecOn (motive := P) _ _ h fun c hc f _ => hnote c f none hc
  exact List.foldlRecOn (motive := P) _ _ hgone fun c hc f _ => hnote c f (source.read f) hc

theorem update_snd : (c.update source present files).2 = readClasses source present files := by
  rw [update_eq_linkAll]

theorem wellFormed_update (h : c.graph.WellFormed) :
    (c.update source present files).1.graph.WellFormed := by
  have hnoted := c.noteAll_induction source present files (fun c => c.graph.WellFormed) h
    fun c f now hc => (restricts_note c f now hc).wellFormed
  rw [update_eq_linkAll]
  exact linkImport_induction (fun c => c.graph.WellFormed) _ _
    (ImportGraph.wellFormed_addAll _ _ hnoted) wellFormed_linkOne

theorem contains_readClasses (a : String) : (readClasses source present files).contains a = true ↔
    ∃ f ∈ files, present f = true ∧ (source.parse f).isUnparsable = false ∧
      (source.parse f).name = a := by
  rw [readClasses, SortedMap.contains_ofList]
  simp [and_assoc, eq_comm (a := a)]

/-- A link leaves all vertices. -/
theorem contains_linkOne_of_contains (resolved : SortedMap String JvmClass) (e : String × String)
    (a : String) (h : c.graph.contains a = true) :
    (c.linkOne resolved e).graph.contains a = true := by
  rw [linkOne, linkImport, ImportGraph.contains_eq_isSome, ImportGraph.classOf_link,
    ← ImportGraph.contains_eq_isSome, ensure]
  split
  · exact h
  · exact (ImportGraph.contains_add _ _ a).mpr (Or.inr h)

/-- Every class that was read has a vertex in the end. -/
theorem contains_update_of_read (a : String)
    (ha : (readClasses source present files).contains a = true) :
    (c.update source present files).1.graph.contains a = true := by
  rw [update_eq_linkAll]
  obtain ⟨x, hx⟩ := Option.isSome_iff_exists.mp ha
  have hmem : x ∈ (readClasses source present files).values :=
    (SortedMap.mem_values_iff _ x (SortedMap.sorted_ofList _)).mpr ⟨a, hx⟩
  have hname : x.name = a := by
    obtain ⟨e, he, hae, rfl⟩ := SortedMap.mem_of_find_ofList _ a x hx
    obtain ⟨y, -, rfl⟩ := List.mem_map.mp he
    exact (LawfulEqOrd.eq_of_compare hae).symm
  exact linkImport_induction (fun c => c.graph.contains a = true) _ _
    ((ImportGraph.contains_addAll _ _ a).mpr (Or.inl ⟨x, hmem, hname⟩))
    fun resolved c e => contains_linkOne_of_contains c resolved e a

end Update

end Catalog

namespace Selection

variable (s : Selection)

theorem isEligible_iff (c : JvmClass) : s.isEligible c = true ↔
    c.isTest = true ∧ c.isUnparsable = false ∧ (∀ r ∈ s.rules.rules, r.reports c.name = false) ∧
      ∃ p, c.file = some p ∧ ∃ dir ∈ s.classDirs, dir.components <+: p.components := by
  simp [isEligible, isOwn, RuleBook.reports, Path.isUnder, Option.any_eq_true, and_assoc]

/-- An eligible class that is found under its name is among the eligible ones. -/
theorem mem_eligible_of_find (classes : SortedMap String JvmClass) {n : String} {c : JvmClass}
    (hc : classes.find? n = some c) (hname : c.name = n) (hel : s.isEligible c = true) :
    n ∈ (s.eligible classes).toList := by
  rw [← SortedSet.contains_iff_mem, eligible, SortedSet.contains_ofList]
  have hmem : c ∈ classes.values := by
    obtain ⟨j, -, hj⟩ := classes.mem_of_find n c hc
    exact List.mem_map_of_mem hj
  exact ⟨c.name, List.mem_map_of_mem (List.mem_filter.mpr ⟨hmem, hel⟩), by simp [hname]⟩

theorem mem_eligible (classes : SortedMap String JvmClass)
    (hs : classes.Sorted) (hname : ∀ a c, classes.find? a = some c → c.name = a) (n : String) :
    n ∈ (s.eligible classes).toList ↔
      ∃ c, classes.find? n = some c ∧ s.isEligible c = true := by
  refine ⟨fun hn => ?_, fun ⟨c, hc, hel⟩ => s.mem_eligible_of_find classes hc (hname n c hc) hel⟩
  rw [← SortedSet.contains_iff_mem, eligible, SortedSet.contains_ofList] at hn
  obtain ⟨m, hm, hnm⟩ := hn
  obtain ⟨c, hc, rfl⟩ := List.mem_map.mp hm
  obtain ⟨hvalue, hel⟩ := List.mem_filter.mp hc
  obtain ⟨a, ha⟩ := (SortedMap.mem_values_iff classes c hs).mp hvalue
  obtain rfl : n = a := (LawfulEqOrd.eq_of_compare hnm).trans (hname a c ha)
  exact ⟨c, ha, hel⟩

/-- What a class must be for some listed files to call for it as a test: a class of a file that can
be read is reached from it over imports, it is a readable test, no rule reports it, and its file
lies under one of the class directories. -/
structure CallsFor (tree : FileTree) (source : ClassSource) (files : List Path) (c : JvmClass) :
    Prop where
  vertex : s.catalog.graph.classOf? c.name = some c
  reaches : ∃ f ∈ files, tree.pathExists f = true ∧ (source.parse f).isUnparsable = false ∧
    Relation.ReflTransGen (fun x y => y ∈ s.catalog.graph.importsOf x) c.name (source.parse f).name
  isTest : c.isTest = true
  readable : c.isUnparsable = false
  unreported : ∀ r ∈ s.rules.rules, r.reports c.name = false
  located : ∃ p, c.file = some p ∧ ∃ dir ∈ s.classDirs, dir.components <+: p.components

variable (tree : FileTree) (source : ClassSource) (files : List Path)

/-- Once the rules are loaded and leave something to run, the listed files are read and exactly the
tests that they call for are selected, all of them among the tests that are then known. -/
theorem testsFor_exact (hwf : s.catalog.graph.WellFormed)
    (hload : (s.rules.reload tree).2 = .ok ())
    (hsome : (s.rules.reload tree).1.acceptsNone = false) :
    ∃ s' tests, s.testsFor tree source files = (s', .ok tests) ∧
      s'.catalog = (s.catalog.update source tree.pathExists files).1 ∧
      s'.rules = (s.rules.reload tree).1 ∧ s'.classDirs = s.classDirs ∧
      (∀ n, n ∈ tests.toList ↔ ∃ c, c.name = n ∧ s'.CallsFor tree source files c) ∧
      ∀ n ∈ tests.toList, n ∈ s'.currentTests.toList := by
  let s' : Selection :=
    ⟨(s.catalog.update source tree.pathExists files).1, (s.rules.reload tree).1, s.classDirs⟩
  let changed := Catalog.readClasses source tree.pathExists files
  let reached := changed.union (s'.catalog.dependents changed.keys)
  have hrun : s.testsFor tree source files = (s', .ok (s'.eligible reached)) := by
    rw [testsFor, reloadRules]
    simp only [hload, hsome, Bool.false_eq_true, if_false, Catalog.update_snd]
    rfl
  have hwf' : s'.catalog.graph.WellFormed := s.catalog.wellFormed_update _ _ _ hwf
  have hfind (n : String) (c : JvmClass) : reached.find? n = some c ↔
      s'.catalog.graph.classOf? n = some c ∧
        ∃ a, changed.contains a = true ∧ s'.catalog.graph.Affects a n :=
    ImportGraph.find_union_dependents hwf' changed
      (s.catalog.contains_update_of_read source tree.pathExists files) n c
  have hname (a : String) (c : JvmClass) (hc : reached.find? a = some c) : c.name = a :=
    hwf'.named a c ((hfind a c).mp hc).1
  have hsorted : reached.Sorted :=
    SortedMap.sorted_union _ _ (SortedMap.sorted_ofList _)
  refine ⟨s', s'.eligible reached, hrun, rfl, rfl, rfl, fun n => ?_, fun n hn => ?_⟩
  · rw [mem_eligible s' reached hsorted hname]
    simp only [hfind, isEligible_iff, ImportGraph.affects_iff hwf',
      changed, Catalog.contains_readClasses]
    constructor
    · rintro ⟨c, ⟨hc, -, ⟨f, hf, hpresent, hread, rfl⟩, hpath⟩, htest, hreadable, hrules, hfile⟩
      obtain rfl := hwf'.named n c hc
      exact ⟨c, rfl, hc, ⟨f, hf, hpresent, hread, hpath⟩, htest, hreadable, hrules, hfile⟩
    · rintro ⟨c, rfl, h⟩
      obtain ⟨f, hf, hpresent, hread, hpath⟩ := h.reaches
      exact ⟨c, ⟨h.vertex, _, ⟨f, hf, hpresent, hread, rfl⟩, hpath⟩, h.isTest, h.readable,
        h.unreported, h.located⟩
  · obtain ⟨c, hc, hel⟩ := (mem_eligible s' reached hsorted hname n).mp hn
    have hclass := ((hfind n c).mp hc).1
    refine s'.mem_eligible_of_find _ ?_ (hwf'.named n c hclass) hel
    exact (SortedMap.find_mapValues _ _ n).trans hclass

end Selection

namespace Affected

def tree : FileTree :=
  ⟨.directory
    [("c", .directory [("A.class", .file [] default), ("B.class", .file [] default),
        ("SlowA.class", .file [] default)]),
      ("e", .directory [("F.class", .file [] default)]),
      ("rules", .file "Slow".toUTF8.toList default)], []⟩

def source : ClassSource where
  parse p := match p.text with
    | "c/A.class" => .ofImports "A" ["B"] true (some p)
    | "c/SlowA.class" => .ofImports "SlowA" ["A"] true (some p)
    | "e/F.class" => .ofImports "F" ["B"] true (some p)
    | _ => .ofImports "B" [] false (some p)
  resolve := .placeholder

def selection : Selection where
  catalog := (Catalog.empty.update source tree.pathExists
    [⟨"c/A.class"⟩, ⟨"c/SlowA.class"⟩, ⟨"e/F.class"⟩]).1
  rules := { file := some ⟨"rules"⟩ }
  classDirs := [⟨"c"⟩]

end Affected

namespace Selection

/-- A new file calls for the test that imports its class, and not for one that the rules report or
one that lies elsewhere. -/
theorem new_class_calls_for_importer :
    Affected.selection.catalog.graph.WellFormed ∧
      (Affected.selection.rules.reload Affected.tree).2 = .ok () ∧
      (Affected.selection.rules.reload Affected.tree).1.acceptsNone = false ∧
      ∃ s' tests, Affected.selection.testsFor Affected.tree Affected.source [⟨"c/B.class"⟩] =
        (s', .ok tests) ∧ "A" ∈ tests.toList ∧ "SlowA" ∉ tests.toList ∧ "F" ∉ tests.toList := by
  have hwf : Affected.selection.catalog.graph.WellFormed := by
    dsimp only [Affected.selection]
    exact Catalog.wellFormed_update _ _ _ _ ImportGraph.wellFormed_empty
  have hload : (Affected.selection.rules.reload Affected.tree).2 = .ok () := by decide +kernel
  have hsome : (Affected.selection.rules.reload Affected.tree).1.acceptsNone = false := by
    decide +kernel
  obtain ⟨s', tests, hrun, hcatalog, hrules, hdirs, hmem, -⟩ :=
    testsFor_exact Affected.selection Affected.tree Affected.source [⟨"c/B.class"⟩] hwf hload hsome
  refine ⟨hwf, hload, hsome, s', tests, hrun, (hmem "A").mpr ?_, ?_, ?_⟩
  · refine ⟨.ofImports "A" ["B"] true (some ⟨"c/A.class"⟩), rfl, ?_, ?_, rfl, rfl, ?_, ?_⟩
    · rw [hcatalog]
      decide +kernel
    · refine ⟨_, List.mem_cons_self, by decide +kernel, by decide +kernel,
        Relation.ReflTransGen.single ?_⟩
      rw [hcatalog]
      decide +kernel
    · rw [hrules]
      decide +kernel
    · refine ⟨_, rfl, ⟨"c"⟩, ?_, by decide +kernel⟩
      rw [hdirs]
      exact List.mem_cons_self
  · intro hslow
    obtain ⟨c, hname, hc⟩ := (hmem "SlowA").mp hslow
    have hunreported := hc.unreported
    rw [hrules, hname] at hunreported
    revert hunreported
    decide +kernel
  · intro hforeign
    obtain ⟨c, hname, hc⟩ := (hmem "F").mp hforeign
    have hclass : s'.catalog.graph.classOf? "F" =
        some (.ofImports "F" ["B"] true (some ⟨"e/F.class"⟩)) := by
      rw [hcatalog]
      decide +kernel
    have hvertex := hc.vertex
    rw [hname, hclass] at hvertex
    obtain rfl := Option.some.inj hvertex
    obtain ⟨p, hp, dir, hdir, hunder⟩ := hc.located
    rw [hdirs] at hdir
    obtain rfl := List.mem_singleton.mp hdir
    obtain rfl := Option.some.inj hp
    revert hunder
    decide +kernel

end Selection

end Retest
