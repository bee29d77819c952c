import Mathlib.Data.List.Basic
import Retest.Graph.Catalog
import Retest.Proofs.Dependents
import Retest.Proofs.PathOrder

/-! What one update does to the catalogue: the listed files are noted, which can only take classes
out of the graph; then the readable classes get their vertices; then these are linked. -/

namespace Retest
open Std

namespace ImportGraph

structure Restricts (g g' : ImportGraph) : Prop where
  classes : ∀ a c, g'.classOf? a = some c → g.classOf? a = some c
  links : ∀ a b, b ∈ g'.importsOf a ↔
    b ∈ g.importsOf a ∧ g'.contains a = true ∧ g'.contains b = true
  wellFormed : g'.WellFormed

theorem restricts_refl (g : ImportGraph) (h : g.WellFormed) : g.Restricts g where
  classes a c hc := hc
  links a b := by
    refine ⟨?_, And.left⟩
    intro hb
    exact ⟨hb, contains_of_mem_importsOf g a b hb,
      contains_of_mem_importersOf g b a ((h.mirrored a b).mp hb)⟩
  wellFormed := h

theorem contains_of_restricts (g g' : ImportGraph) (h : g.Restricts g') (a : String)
    (ha : g'.contains a = true) : g.contains a = true := by
  obtain ⟨c, hc⟩ := (contains_iff g' a).mp ha
  exact (contains_iff g a).mpr ⟨c, h.classes a c hc⟩

theorem restricts_trans (g g' g'' : ImportGraph) (h : g.Restricts g') (h' : g'.Restricts g'') :
    g.Restricts g'' where
  classes a c hc := h.classes a c (h'.classes a c hc)
  links a b := by
    rw [h'.links, h.links]
    constructor
    · rintro ⟨⟨hb, -, -⟩, ha⟩
      exact ⟨hb, ha⟩
    · rintro ⟨hb, ha⟩
      have hkept := contains_of_restricts g' g'' h'
      exact ⟨⟨hb, hkept a ha.1, hkept b ha.2⟩, ha⟩
  wellFormed := h'.wellFormed

theorem contains_remove (g : ImportGraph) (name a : String) :
    (g.remove name).1.contains a = true ↔ a ≠ name ∧ g.contains a = true := by
  rw [contains_eq_isSome, classOf_remove, contains_eq_isSome]
  by_cases ha : a = name <;> simp [ha]

theorem restricts_remove (g : ImportGraph) (name : String) (h : g.WellFormed) :
    g.Restricts (g.remove name).1 where
  classes a c hc := by
    rw [classOf_remove] at hc
    split at hc
    · cases hc
    · exact hc
  links a b := by
    rw [mem_importsOf_remove g name h, contains_remove, contains_remove]
    constructor
    · rintro ⟨hb, ha, hn⟩
      exact ⟨hb, ⟨ha, contains_of_mem_importsOf g a b hb⟩, hn,
        contains_of_mem_importersOf g b a ((h.mirrored a b).mp hb)⟩
    · rintro ⟨hb, ⟨ha, -⟩, hn, -⟩
      exact ⟨hb, ha, hn⟩
  wellFormed := wellFormed_remove g name h

def addAll (g : ImportGraph) (l : List JvmClass) : ImportGraph :=
  l.foldl (fun g c => (g.add c none).1) g

theorem wellFormed_addAll (g : ImportGraph) (l : List JvmClass) (h : g.WellFormed) :
    (g.addAll l).WellFormed := by
  induction l generalizing g with
  | nil => exact h
  | cons c l ih => exact ih _ (wellFormed_add g c (not_has_none g c) h)

theorem sorted_addAll (g : ImportGraph) (l : List JvmClass) (h : g.vertices.Sorted) :
    (g.addAll l).vertices.Sorted :=
  List.foldlRecOn (motive := fun g : ImportGraph => g.vertices.Sorted) _ _ h
    fun g hg c _ => sorted_add g hg c none

/-- A name gets the class of the list that has it, if there is one. -/
theorem classOf_addAll (g : ImportGraph) (l : List JvmClass)
    (hl : ∀ c ∈ l, ∀ d ∈ l, c.name = d.name → c = d) (a : String) :
    (g.addAll l).classOf? a = (l.find? fun c => c.name = a).or (g.classOf? a) := by
  induction l generalizing g with
  | nil => rfl
  | cons c l ih =>
    have htail := ih (g.add c none).1 fun d hd e he =>
      hl d (List.mem_cons_of_mem c hd) e (List.mem_cons_of_mem c he)
    change ((g.add c none).1.addAll l).classOf? a = _
    rw [htail, classOf_add g c (not_has_none g c)]
    by_cases ha : c.name = a
    · rw [List.find?_cons_of_pos (by simpa using ha)]
      cases hd : l.find? fun c => c.name = a with
      | none => simp [ha]
      | some d =>
        have hdn : d.name = a := by simpa using List.find?_some hd
        have hdc : d = c := hl d (List.mem_cons_of_mem c (List.mem_of_find?_eq_some hd)) c
          List.mem_cons_self (hdn.trans ha.symm)
        simp [hdc]
    · have hac : a ≠ c.name := fun h => ha h.symm
      rw [List.find?_cons_of_neg (by simpa using ha), if_neg hac]

/-- The classes of the list start without imports; the others keep theirs. -/
theorem mem_importsOf_addAll (g : ImportGraph) (l : List JvmClass) (a b : String) :
    b ∈ (g.addAll l).importsOf a ↔ b ∈ g.importsOf a ∧ ∀ c ∈ l, c.name ≠ a := by
  induction l generalizing g with
  | nil => simp [addAll]
  | cons c l ih =>
    change b ∈ ((g.add c none).1.addAll l).importsOf a ↔ _
    rw [ih, mem_importsOf_add g c (not_has_none g c)]
    simp only [List.mem_cons, forall_eq_or_imp]
    constructor
    · rintro ⟨⟨ha, hb⟩, hl⟩
      exact ⟨hb, fun h => ha h.symm, hl⟩
    · rintro ⟨hb, ha, hl⟩
      exact ⟨⟨fun h => ha h.symm, hb⟩, hl⟩

end ImportGraph

def ClassSource.read (source : ClassSource) (file : Path) : Option JvmClass :=
  if (source.parse file).isUnparsable then none else some (source.parse file)

namespace Catalog

section Link

variable (resolved : SortedMap String JvmClass)

def standIn (name : String) : JvmClass := (resolved.find? name).getD (.placeholder name)

def linkOne (c : Catalog) (e : String × String) : Catalog := (linkImport (c, resolved) e).1

def importPairs (l : List JvmClass) : List (String × String) :=
  l.flatMap fun cls => cls.imports.toList.map fun n => (cls.name, n)

theorem foldl_linkImports (s : Catalog × SortedMap String JvmClass) (l : List JvmClass) :
    l.foldl linkImports s = (importPairs l).foldl linkImport s := by
  rw [importPairs, List.foldl_flatMap]
  congr 1
  funext s cls
  rw [List.foldl_map]
  rfl

theorem linkImport_fst (s : Catalog × SortedMap String JvmClass) (e : String × String) :
    (linkImport s e).1 =
      { (s.1.ensure s.2 e.2).1 with graph := ((s.1.ensure s.2 e.2).1.graph.link e.1 e.2).1 } := rfl

/-- What every link keeps, whatever is resolved, is kept by all of them. -/
theorem linkImport_induction (P : Catalog → Prop) (s : Catalog × SortedMap String JvmClass)
    (l : List (String × String)) (h : P s.1)
    (hone : ∀ resolved c e, P c → P (c.linkOne resolved e)) : P (l.foldl linkImport s).1 :=
  List.foldlRecOn (motive := fun s : Catalog × SortedMap String JvmClass => P s.1) _ _ h
    fun s hs e _ => hone s.2 s.1 e hs

theorem classOf_ensure (hr : ∀ n, (standIn resolved n).name = n) (c : Catalog) (name a : String) :
    (c.ensure resolved name).1.graph.classOf? a =
      (c.graph.classOf? a).or (if a = name then some (standIn resolved name) else none) := by
  by_cases hc : c.graph.contains name = true
  · rw [ensure, if_pos hc]
    obtain ⟨d, hd⟩ := (ImportGraph.contains_iff c.graph name).mp hc
    by_cases ha : a = name
    · simp [ha, hd]
    · simp [ha]
  · rw [ensure, if_neg hc]
    change (c.graph.add (standIn resolved name) none).1.classOf? a = _
    have hnone : c.graph.classOf? name = none := by
      simpa [ImportGraph.contains_eq_isSome] using hc
    rw [ImportGraph.classOf_add _ _ (ImportGraph.not_has_none _ _), hr]
    by_cases ha : a = name
    · simp [ha, hnone]
    · simp [ha]

/-- A new vertex imports nothing yet. -/
theorem mem_importsOf_ensure (hr : ∀ n, (standIn resolved n).name = n) (c : Catalog)
    (name a b : String) :
    b ∈ (c.ensure resolved name).1.graph.importsOf a ↔ b ∈ c.graph.importsOf a := by
  by_cases hc : c.graph.contains name = true
  · rw [ensure, if_pos hc]
  · rw [ensure, if_neg hc]
    change b ∈ (c.graph.add (standIn resolved name) none).1.importsOf a ↔ _
    rw [ImportGraph.mem_importsOf_add _ _ (ImportGraph.not_has_none _ _), hr]
    refine ⟨And.right, ?_⟩
    intro hb
    refine ⟨?_, hb⟩
    rintro rfl
    exact hc (ImportGraph.contains_of_mem_importsOf c.graph a b hb)

theorem wellFormed_ensure (c : Catalog) (name : String) (h : c.graph.WellFormed) :
    (c.ensure resolved name).1.graph.WellFormed := by
  by_cases hc : c.graph.contains name = true
  · rwa [ensure, if_pos hc]
  · rw [ensure, if_neg hc]
    exact ImportGraph.wellFormed_add c.graph _ (ImportGraph.not_has_none _ _) h

theorem wellFormed_linkOne (c : Catalog) (e : String × String) (h : c.graph.WellFormed) :
    (c.linkOne resolved e).graph.WellFormed :=
  ImportGraph.wellFormed_link _ _ _ (wellFormed_ensure resolved c e.2 h)

theorem classOf_linkOne (hr : ∀ n, (standIn resolved n).name = n) (c : Catalog)
    (e : String × String) (a : String) :
    (c.linkOne resolved e).graph.classOf? a =
      (c.graph.classOf? a).or (if a = e.2 then some (standIn resolved e.2) else none) := by
  rw [← classOf_ensure resolved hr]
  exact ImportGraph.classOf_link (c.ensure resolved e.2).1.graph e.1 e.2 a

theorem contains_linkOne (hr : ∀ n, (standIn resolved n).name = n) (c : Catalog)
    (e : String × String) (a : String) :
    (c.linkOne resolved e).graph.contains a = true ↔ c.graph.contains a = true ∨ a = e.2 := by
  rw [ImportGraph.contains_eq_isSome, classOf_linkOne resolved hr, ImportGraph.contains_eq_isSome]
  by_cases ha : a = e.2 <;> simp [ha]

/-- The classes that were used are not missed: their names have vertices from then on. -/
theorem foldl_linkImport (hr : ∀ n, (standIn resolved n).name = n) (c : Catalog)
    (left : SortedMap String JvmClass) (l : List (String × String))
    (hleft : ∀ n, c.graph.contains n = false → left.find? n = resolved.find? n) :
    (l.foldl linkImport (c, left)).1 = l.foldl (linkOne resolved) c := by
  induction l generalizing c left with
  | nil => rfl
  | cons e l ih =>
    have hensured : (c.ensure left e.2).1 = (c.ensure resolved e.2).1 := by
      by_cases hc : c.graph.contains e.2 = true
      · rw [ensure, ensure, if_pos hc, if_pos hc]
      · rw [ensure, ensure, if_neg hc, if_neg hc, hleft e.2 (by simpa using hc)]
    have hstep : (linkImport (c, left) e).1 = c.linkOne resolved e := by
      rw [linkOne, linkImport_fst, linkImport_fst, hensured]
    have hrest (n : String) (hn : (c.linkOne resolved e).graph.contains n = false) :
        (linkImport (c, left) e).2.find? n = resolved.find? n := by
      rw [Bool.eq_false_iff, ne_eq, contains_linkOne resolved hr, not_or] at hn
      rw [← hleft n (by simpa using hn.1)]
      change (c.ensure left e.2).2.find? n = _
      rw [ensure]
      split
      · rfl
      · have hne : compare n e.2 ≠ .eq := fun h => hn.2 (LawfulEqOrd.eq_of_compare h)
        exact (SortedMap.find_erase left n e.2).trans (if_neg hne)
    rw [List.foldl_cons, List.foldl_cons, ← ih _ _ hrest, ← hstep]

theorem mem_importsOf_linkOne (hr : ∀ n, (standIn resolved n).name = n) (c : Catalog)
    (e : String × String) (he : c.graph.contains e.1 = true) (a b : String) :
    b ∈ (c.linkOne resolved e).graph.importsOf a ↔
      b ∈ c.graph.importsOf a ∨ (a, b) = e ∧ a ≠ b := by
  obtain ⟨source, target⟩ := e
  have hlink : (c.ensure resolved target).1.graph.Linkable source target ↔ source ≠ target := by
    refine ⟨fun h => h.1, fun h => ⟨h, ?_, ?_⟩⟩ <;>
      rw [ImportGraph.contains_eq_isSome, classOf_ensure resolved hr,
        Option.isSome_or, Bool.or_eq_true]
    · exact Or.inl (by rwa [← ImportGraph.contains_eq_isSome])
    · simp
  change b ∈ ((c.ensure resolved target).1.graph.link source target).1.importsOf a ↔ _
  rw [ImportGraph.mem_importsOf_link, mem_importsOf_ensure resolved hr, hlink, Prod.mk.injEq]
  constructor
  · rintro (hb | ⟨ha, hb, hne⟩)
    · exact Or.inl hb
    · exact Or.inr ⟨⟨ha, hb⟩, ha ▸ hb ▸ hne⟩
  · rintro (hb | ⟨⟨ha, hb⟩, hne⟩)
    · exact Or.inl hb
    · exact Or.inr ⟨ha, hb, ha ▸ hb ▸ hne⟩

theorem sorted_linkOne (c : Catalog) (e : String × String) (h : c.graph.vertices.Sorted) :
    (c.linkOne resolved e).graph.vertices.Sorted := by
  rw [linkOne, linkImport_fst]
  apply ImportGraph.sorted_link
  dsimp only
  rw [ensure]
  split
  · exact h
  · exact ImportGraph.sorted_add _ h _ _

variable (l : List (String × String))

theorem wellFormed_linkAll (c : Catalog) (h : c.graph.WellFormed) :
    (l.foldl (linkOne resolved) c).graph.WellFormed := by
  induction l generalizing c with
  | nil => exact h
  | cons e l ih => exact ih _ (wellFormed_linkOne resolved c e h)

theorem classOf_linkAll (hr : ∀ n, (standIn resolved n).name = n) (c : Catalog) (a : String) :
    (l.foldl (linkOne resolved) c).graph.classOf? a =
      (c.graph.classOf? a).or (if ∃ e ∈ l, e.2 = a then some (standIn resolved a) else none) := by
  induction l generalizing c with
  | nil => simp
  | cons e l ih =>
    rw [List.foldl_cons, ih, classOf_linkOne resolved hr, Option.or_assoc]
    congr 1
    by_cases ha : a = e.2
    · simp [ha]
    · have hae : ¬e.2 = a := fun h => ha h.symm
      simp only [List.mem_cons, exists_eq_or_imp, ha, hae, if_false, Option.none_or, false_or]

/-- Every pair of different names becomes a link, and nothing else does. -/
theorem mem_importsOf_linkAll (hr : ∀ n, (standIn resolved n).name = n) (c : Catalog)
    (hl : ∀ e ∈ l, c.graph.contains e.1 = true) (a b : String) :
    b ∈ (l.foldl (linkOne resolved) c).graph.importsOf a ↔
      b ∈ c.graph.importsOf a ∨ (a, b) ∈ l ∧ a ≠ b := by
  induction l generalizing c with
  | nil => simp
  | cons e l ih =>
    have hl' : ∀ d ∈ l, (c.linkOne resolved e).graph.contains d.1 = true := by
      intro d hd
      exact (contains_linkOne resolved hr c e d.1).mpr (Or.inl (hl d (List.mem_cons_of_mem e hd)))
    rw [List.foldl_cons, ih _ hl', mem_importsOf_linkOne resolved hr c e (hl e List.mem_cons_self),
      List.mem_cons, or_assoc, ← or_and_right]

/-- Where every missing name becomes a class without a file, no file is noted. -/
theorem byFile_linkAll (hr : ∀ n, (standIn resolved n).name = n) (c : Catalog)
    (hl : ∀ e ∈ l, c.graph.contains e.2 = true ∨ (standIn resolved e.2).file = none) :
    (l.foldl (linkOne resolved) c).byFile = c.byFile := by
  induction l generalizing c with
  | nil => rfl
  | cons e l ih =>
    have hstep : (c.linkOne resolved e).byFile = c.byFile := by
      change (c.ensure resolved e.2).1.byFile = c.byFile
      rcases hl e List.mem_cons_self with hc | hf
      · rw [ensure, if_pos hc]
      · by_cases hc : c.graph.contains e.2 = true
        · rw [ensure, if_pos hc]
        · rw [standIn] at hf
          simp only [ensure, if_neg hc, hf]
    rw [List.foldl_cons, ih, hstep]
    intro d hd
    rcases hl d (List.mem_cons_of_mem e hd) with hc | hf
    · exact Or.inl ((contains_linkOne resolved hr c e d.2).mpr (Or.inl hc))
    · exact Or.inr hf

end Link

def note (c : Catalog) (file : Path) : Option JvmClass → Catalog
  | none => c.evict file
  | some cls =>
    let graph := match c.byFile.find? file with
      | none => c.graph
      | some old => if old.name = cls.name then c.graph else (c.graph.remove old.name).1
    ⟨graph, c.byFile.insert file cls⟩

/-- Noting a file takes at most one class out of the graph. -/
theorem graph_note (c : Catalog) (file : Path) (now : Option JvmClass) :
    (c.note file now).graph = match c.byFile.find? file with
      | none => c.graph
      | some old => if now.map (·.name) = some old.name then c.graph
        else (c.graph.remove old.name).1 := by
  cases now with
  | none =>
    simp only [note, evict]
    split <;> simp_all
  | some cls =>
    simp only [note, Option.map_some, Option.some.injEq]
    cases c.byFile.find? file with
    | none => rfl
    | some old =>
      by_cases h : old.name = cls.name
      · simp [h]
      · have h' : ¬cls.name = old.name := fun e => h e.symm
        simp [h, h']

theorem restricts_note (c : Catalog) (file : Path) (now : Option JvmClass)
    (h : c.graph.WellFormed) : c.graph.Restricts (c.note file now).graph := by
  rw [graph_note]
  split
  · exact ImportGraph.restricts_refl c.graph h
  · split
    · exact ImportGraph.restricts_refl c.graph h
    · exact ImportGraph.restricts_remove c.graph _ h

theorem sorted_note (c : Catalog) (file : Path) (now : Option JvmClass)
    (h : c.graph.vertices.Sorted) : (c.note file now).graph.vertices.Sorted := by
  rw [graph_note]
  split
  · exact h
  · split
    · exact h
    · exact ImportGraph.sorted_remove _ h _

theorem byFile_note (c : Catalog) (file p : Path) (now : Option JvmClass) :
    (c.note file now).byFile.find? p =
      if compare p file = .eq then now else c.byFile.find? p := by
  cases now with
  | some cls => rw [note, SortedMap.find_insert]
  | none =>
    simp only [note, evict]
    cases hf : c.byFile.find? file with
    | none =>
      by_cases hp : compare p file = .eq
      · simp [hp, SortedMap.find_congr c.byFile p file hp, hf]
      · simp [hp]
    | some old => exact SortedMap.find_erase c.byFile p file

/-- What stands in for a name is what the name was resolved to, if it was among those resolved. -/
theorem standIn_ofNames (resolve : String → JvmClass) (names : List String) (n : String) :
    standIn (.ofList (names.map fun n => (n, resolve n))) n =
      if n ∈ names then resolve n else .placeholder n := by
  have hcontains := SortedMap.contains_ofList (names.map fun n => (n, resolve n)) n
  rw [standIn]
  cases h : (SortedMap.ofList (names.map fun n => (n, resolve n))).find? n with
  | none =>
    have hn : n ∉ names := by
      intro hn
      have hc := hcontains.mpr ⟨_, List.mem_map_of_mem hn, ReflOrd.compare_self⟩
      rw [SortedMap.contains, h] at hc
      cases hc
    rw [if_neg hn, Option.getD_none]
  | some cls =>
    obtain ⟨e, he, hne, rfl⟩ := SortedMap.mem_of_find_ofList _ n cls h
    obtain ⟨m, hm, rfl⟩ := List.mem_map.mp he
    obtain rfl : n = m := LawfulEqOrd.eq_of_compare hne
    rw [if_pos hm, Option.getD_some]

/-- The missing imports are those of readable classes, without the names of the batch and those of
vertices. -/
theorem mem_missingImports (c : Catalog) (parsed : List (Path × JvmClass)) (n : String) :
    n ∈ (c.missingImports parsed).toList ↔
      (∃ e ∈ parsed, e.2.isUnparsable = false ∧ n ∈ e.2.imports.toList) ∧
        (∀ e ∈ parsed, e.2.name ≠ n) ∧ c.graph.contains n = false := by
  rw [← SortedSet.contains_iff_mem, missingImports, SortedSet.contains_ofList]
  simp only [LawfulEqOrd.compare_eq_iff_eq, exists_eq_right']
  simp [and_assoc]

theorem noteFile_fst (s : Catalog × SortedMap String JvmClass) (e : Path × JvmClass) :
    (noteFile s e).1 = s.1.note e.1 (if e.2.isUnparsable then none else some e.2) := by
  by_cases hu : e.2.isUnparsable = true
  · simp [noteFile, hu, note]
  · simp only [noteFile, hu, note]
    rfl

theorem noteFile_snd (s : Catalog × SortedMap String JvmClass) (e : Path × JvmClass) :
    (noteFile s e).2 = if e.2.isUnparsable then s.2 else s.2.insert e.2.name e.2 := by
  by_cases hu : e.2.isUnparsable = true <;> simp [noteFile, hu]

section Update

variable (c : Catalog) (source : ClassSource) (present : Path → Bool) (files : List Path)

def readClasses : SortedMap String JvmClass :=
  .ofList ((((files.filter present).map source.parse).filter fun x => !x.isUnparsable).map
    fun x => (x.name, x))

theorem foldl_noteFile_snd (l : List Path) (s : Catalog × SortedMap String JvmClass) :
    ((l.map fun f => (f, source.parse f)).foldl noteFile s).2 =
      (((l.map source.parse).filter fun x => !x.isUnparsable).map fun x => (x.name, x)).foldl
        (fun m e => m.insert e.1 e.2) s.2 := by
  induction l generalizing s with
  | nil => rfl
  | cons f l ih =>
    rw [List.map_cons, List.foldl_cons, ih, noteFile_snd, List.map_cons, List.filter_cons]
    cases (source.parse f).isUnparsable <;> rfl

theorem foldl_noteFile_fst (l : List Path) (s : Catalog × SortedMap String JvmClass) :
    ((l.map fun f => (f, source.parse f)).foldl noteFile s).1 =
      l.foldl (fun c f => c.note f (source.read f)) s.1 := by
  rw [List.foldl_map]
  symm
  apply List.foldl_hom Prod.fst
  intro s f
  exact (noteFile_fst s (f, source.parse f)).symm

def noteAll : Catalog :=
  (files.filter present).foldl (fun c f => c.note f (source.read f))
    ((files.filter fun f => !present f).foldl evict c)

def resolveFor : SortedMap String JvmClass :=
  .ofList ((c.missingImports ((files.filter present).map fun f =>
    (f, source.parse f))).toList.map fun name => (name, source.resolve name))

/-- The classes that have been read get their vertices, and are linked then. -/
theorem update_eq_linkAll : c.update source present files =
    (((importPairs (readClasses source present files).values).foldl linkImport
      ({ c.noteAll source present files with
        graph := (c.noteAll source present files).graph.addAll
          (readClasses source present files).values },
        c.resolveFor source present files)).1,
      readClasses source present files) := by
  let gone := files.filter fun f => !present f
  let read := (files.filter present).map fun f => (f, source.parse f)
  have hclasses : (read.foldl noteFile (gone.foldl evict c, .empty)).2 =
      readClasses source present files :=
    foldl_noteFile_snd source (files.filter present) (gone.foldl evict c, .empty)
  have hnoted : (read.foldl noteFile (gone.foldl evict c, .empty)).1 =
      c.noteAll source present files :=
    foldl_noteFile_fst source (files.filter present) (gone.foldl evict c, .empty)
  rw [← hnoted, ← hclasses, ← foldl_linkImports]
  rfl

end Update

end Catalog

/-- One update as the catalogue sees it: the listed files, which files there are, and the classes
behind files and names. A class never imports itself, and a resolved class has the name asked
for. -/
structure IndexCall where
  source : ClassSource
  present : Path → Bool
  files : List Path
  parse_noLoop : ∀ p, (source.parse p).name ∉ (source.parse p).imports.toList
  resolve_name : ∀ n, (source.resolve n).name = n

namespace IndexCall

variable (k : IndexCall)

def holds (p : Path) : Option JvmClass :=
  if k.present p = true ∧ (k.source.parse p).isUnparsable = false then some (k.source.parse p)
  else none

theorem parse_of_holds (p : Path) (cls : JvmClass) (h : k.holds p = some cls) :
    k.present p = true ∧ cls.isUnparsable = false ∧ k.source.parse p = cls := by
  rw [holds] at h
  split at h
  · next hp =>
    have hc : k.source.parse p = cls := Option.some.inj h
    exact ⟨hp.1, hc ▸ hp.2, hc⟩
  · cases h

theorem holds_of_present (p : Path) (h : k.present p = true) : k.holds p = k.source.read p := by
  rw [holds, ClassSource.read]
  cases (k.source.parse p).isUnparsable <;> simp [h]

def ordered : List Path := (k.files.filter fun f => !k.present f) ++ k.files.filter k.present

theorem mem_ordered (p : Path) : p ∈ k.ordered ↔ p ∈ k.files := by
  cases h : k.present p <;> simp [ordered, h]

def found : SortedMap String JvmClass :=
  .ofList ((k.files.filterMap k.holds).map fun cls => (cls.name, cls))

def resolved (c : Catalog) : SortedMap String JvmClass :=
  .ofList ((c.missingImports ((k.files.filter k.present).map fun f =>
    (f, k.source.parse f))).toList.map fun name => (name, k.source.resolve name))

/-- Only files that are there hold classes. -/
theorem found_eq : k.found =
    .ofList (((k.files.filter k.present).filterMap k.holds).map fun cls => (cls.name, cls)) := by
  have hall : k.files.filterMap k.holds = (k.files.filter k.present).filterMap k.holds := by
    rw [List.filterMap_filter]
    congr 1
    funext f
    by_cases hf : k.present f = true <;> simp [holds, hf]
  rw [found, hall]

theorem sorted_found : k.found.Sorted := SortedMap.sorted_ofList _

/-- A found class stands under its own name and comes from a listed file. -/
theorem find_found (a : String) (cls : JvmClass) (h : k.found.find? a = some cls) :
    cls.name = a ∧ ∃ f ∈ k.files, k.holds f = some cls := by
  obtain ⟨e, he, ha, rfl⟩ := SortedMap.mem_of_find_ofList _ a cls h
  obtain ⟨cls, hc, rfl⟩ := List.mem_map.mp he
  exact ⟨(LawfulEqOrd.eq_of_compare ha).symm, List.mem_filterMap.mp hc⟩

theorem mem_values_found (cls : JvmClass) :
    cls ∈ k.found.values ↔ k.found.find? cls.name = some cls := by
  rw [SortedMap.mem_values_iff k.found cls k.sorted_found]
  constructor
  · rintro ⟨a, ha⟩
    rwa [(k.find_found a cls ha).1]
  · exact fun h => ⟨cls.name, h⟩

theorem find_values_found (a : String) :
    (k.found.values.find? fun cls => cls.name = a) = k.found.find? a := by
  cases h : k.found.find? a with
  | none =>
    rw [List.find?_eq_none]
    intro cls hcls
    simp only [decide_eq_true_eq]
    rintro rfl
    rw [(k.mem_values_found cls).mp hcls] at h
    cases h
  | some cls =>
    have hname := (k.find_found a cls h).1
    have hcls : cls ∈ k.found.values := (k.mem_values_found cls).mpr (hname ▸ h)
    cases hd : k.found.values.find? fun cls => cls.name = a with
    | none => exact absurd (by simpa using hname) (List.find?_eq_none.mp hd cls hcls)
    | some d =>
      have hdn : d.name = a := by simpa using List.find?_some hd
      have hdm := (k.mem_values_found d).mp (List.mem_of_find?_eq_some hd)
      rwa [hdn, h, Option.some.injEq, eq_comm, ← Option.some.injEq] at hdm

/-- No two found classes share a name. -/
theorem found_injective (x : JvmClass) (hx : x ∈ k.found.values) (y : JvmClass)
    (hy : y ∈ k.found.values) (h : x.name = y.name) : x = y := by
  have hx' := (k.mem_values_found x).mp hx
  have hy' := (k.mem_values_found y).mp hy
  rw [h, hy'] at hx'
  exact (Option.some.inj hx').symm

theorem noLoop_of_found (a : String) (cls : JvmClass) (h : k.found.find? a = some cls) :
    a ∉ cls.imports.toList := by
  obtain ⟨hname, f, -, hf⟩ := k.find_found a cls h
  obtain ⟨-, -, hparse⟩ := k.parse_of_holds f cls hf
  have hloop := k.parse_noLoop f
  rwa [hparse, hname] at hloop

theorem standIn_name (c : Catalog) (n : String) : (Catalog.standIn (k.resolved c) n).name = n := by
  rw [resolved, Catalog.standIn_ofNames]
  split
  · exact k.resolve_name n
  · rfl

theorem contains_found (a : String) :
    k.found.contains a = true ↔ ∃ f ∈ k.files, (k.holds f).map (·.name) = some a := by
  rw [found, SortedMap.contains_ofList]
  constructor
  · rintro ⟨e, he, hae⟩
    obtain ⟨x, hx, rfl⟩ := List.mem_map.mp he
    obtain ⟨f, hf, hfx⟩ := List.mem_filterMap.mp hx
    exact ⟨f, hf, by rw [hfx, LawfulEqOrd.eq_of_compare hae]; rfl⟩
  · rintro ⟨f, hf, hname⟩
    obtain ⟨x, hx, rfl⟩ := Option.map_eq_some_iff.mp hname
    exact ⟨(x.name, x), List.mem_map.mpr ⟨x, List.mem_filterMap.mpr ⟨f, hf, hx⟩, rfl⟩,
      ReflOrd.compare_self⟩

theorem not_holds_of_lost {a : String} (ha : k.found.find? a = none) (f : Path) (hf : f ∈ k.files) :
    (k.holds f).map (·.name) ≠ some a := by
  intro hname
  have hc := (k.contains_found a).mpr ⟨f, hf, hname⟩
  rw [SortedMap.contains, ha] at hc
  cases hc

def Wants (n : String) : Prop := ∃ a cls, k.found.find? a = some cls ∧ n ∈ cls.imports.toList

theorem mem_importPairs_found (a b : String) :
    (a, b) ∈ Catalog.importPairs k.found.values ↔
      ∃ cls, k.found.find? a = some cls ∧ b ∈ cls.imports.toList := by
  simp only [Catalog.importPairs, List.mem_flatMap, List.mem_map, Prod.mk.injEq]
  constructor
  · rintro ⟨cls, hcls, n, hn, rfl, rfl⟩
    exact ⟨cls, (k.mem_values_found cls).mp hcls, hn⟩
  · rintro ⟨cls, hcls, hb⟩
    have hname := (k.find_found a cls hcls).1
    exact ⟨cls, (k.mem_values_found cls).mpr (hname ▸ hcls), b, hb, hname, rfl⟩

end IndexCall

namespace Catalog

variable (c : Catalog) (k : IndexCall)

def noted : Catalog := k.ordered.foldl (fun c f => c.note f (k.holds f)) c

def index : Catalog := (c.update k.source k.present k.files).1

theorem noteAll_eq_noted : c.noteAll k.source k.present k.files = c.noted k := by
  have hgone : (k.files.filter fun f => !k.present f).foldl evict c =
      (k.files.filter fun f => !k.present f).foldl (fun c f => c.note f (k.holds f)) c := by
    apply List.foldl_ext
    intro c f hf
    have hgone : k.present f = false := by simpa using (List.mem_filter.mp hf).2
    have habsent : k.holds f = none := by simp [IndexCall.holds, hgone]
    rw [habsent]
    rfl
  have hread (c : Catalog) :
      (k.files.filter k.present).foldl (fun c f => c.note f (k.source.read f)) c =
        (k.files.filter k.present).foldl (fun c f => c.note f (k.holds f)) c := by
    apply List.foldl_ext
    intro c f hf
    rw [k.holds_of_present f (List.mem_filter.mp hf).2]
  rw [noteAll, hgone, hread, noted, IndexCall.ordered, List.foldl_append]

theorem readClasses_eq_found : readClasses k.source k.present k.files = k.found := by
  have hread (l : List Path) : (l.map k.source.parse).filter (fun x => !x.isUnparsable) =
      l.filterMap k.source.read := by
    induction l with
    | nil => rfl
    | cons f l ih =>
      rw [List.map_cons, List.filter_cons, List.filterMap_cons, ih, ClassSource.read]
      cases (k.source.parse f).isUnparsable <;> rfl
  have hholds : (k.files.filter k.present).filterMap k.source.read =
      (k.files.filter k.present).filterMap k.holds := by
    apply List.filterMap_congr
    intro f hf
    exact (k.holds_of_present f (List.mem_filter.mp hf).2).symm
  rw [k.found_eq, readClasses, hread, hholds]

theorem update_eq :
    c.update k.source k.present k.files =
      ((importPairs k.found.values).foldl (linkOne (k.resolved c))
        { c.noted k with graph := (c.noted k).graph.addAll k.found.values }, k.found) := by
  rw [update_eq_linkAll, noteAll_eq_noted, readClasses_eq_found,
    foldl_linkImport (k.resolved c) (k.standIn_name c)]
  exact fun n _ => rfl

theorem restricts_noted (h : c.graph.WellFormed) : c.graph.Restricts (c.noted k).graph := by
  have hfold (l : List Path) (c : Catalog) (h : c.graph.WellFormed) :
      c.graph.Restricts (l.foldl (fun c f => c.note f (k.holds f)) c).graph := by
    induction l generalizing c with
    | nil => exact ImportGraph.restricts_refl c.graph h
    | cons f l ih =>
      have hstep := restricts_note c f (k.holds f) h
      exact ImportGraph.restricts_trans _ _ _ hstep (ih _ hstep.wellFormed)
  exact hfold k.ordered c h

/-- The found classes come first, then those that noting has left, then those that are only
imported. -/
theorem classOf_index (a : String) [Decidable (k.Wants a)] :
    (c.index k).graph.classOf? a =
      ((k.found.find? a).or ((c.noted k).graph.classOf? a)).or
        (if k.Wants a then some (standIn (k.resolved c) a) else none) := by
  have hwants : (∃ e ∈ importPairs k.found.values, e.2 = a) ↔ k.Wants a := by
    constructor
    · rintro ⟨⟨n, b⟩, he, rfl⟩
      exact ⟨n, (k.mem_importPairs_found n b).mp he⟩
    · rintro ⟨n, h⟩
      exact ⟨(n, a), (k.mem_importPairs_found n a).mpr h, rfl⟩
  rw [index, update_eq, classOf_linkAll _ _ (k.standIn_name c),
    ImportGraph.classOf_addAll _ _ k.found_injective, k.find_values_found]
  simp only [hwants]

/-- A vertex after the call is a found class, one that noting has left, or one that stands in for an
import. -/
theorem classOf_index_cases {a : String} {x : JvmClass}
    (h : (c.index k).graph.classOf? a = some x) :
    k.found.find? a = some x ∨
      k.found.find? a = none ∧ (c.noted k).graph.classOf? a = some x ∨
      k.found.find? a = none ∧ (c.noted k).graph.contains a = false ∧ k.Wants a ∧
        x = standIn (k.resolved c) a := by
  classical
  rw [classOf_index] at h
  cases hf : k.found.find? a with
  | some y =>
    rw [hf] at h
    exact Or.inl h
  | none =>
    rw [hf, Option.none_or] at h
    refine Or.inr ?_
    rw [ImportGraph.contains_eq_isSome]
    cases hn : (c.noted k).graph.classOf? a with
    | some y =>
      rw [hn] at h
      exact Or.inl ⟨rfl, h⟩
    | none =>
      rw [hn, Option.none_or] at h
      split at h
      · next hw => exact Or.inr ⟨rfl, rfl, hw, (Option.some.inj h).symm⟩
      · cases h

/-- The other way round: each of the three is a vertex. -/
theorem classOf_index_of_found {a : String} {x : JvmClass} (h : k.found.find? a = some x) :
    (c.index k).graph.classOf? a = some x := by
  classical
  rw [classOf_index, h]
  rfl

theorem classOf_index_of_noted {a : String} {x : JvmClass} (hwf : c.graph.WellFormed)
    (hf : k.found.find? a = none) (hn : (c.noted k).graph.contains a = true)
    (h : c.graph.classOf? a = some x) : (c.index k).graph.classOf? a = some x := by
  classical
  obtain ⟨y, hy⟩ := (ImportGraph.contains_iff _ a).mp hn
  have hyx := (restricts_noted c k hwf).classes a y hy
  rw [h] at hyx
  rw [classOf_index, hf, hy, ← hyx]
  rfl

theorem classOf_index_of_wanted {a : String} (hf : k.found.find? a = none)
    (hn : (c.noted k).graph.contains a = false) (hw : k.Wants a) :
    (c.index k).graph.classOf? a = some (standIn (k.resolved c) a) := by
  classical
  have hnone : (c.noted k).graph.classOf? a = none := by
    simpa [ImportGraph.contains_eq_isSome] using hn
  rw [classOf_index, hf, hnone, if_pos hw]
  rfl

/-- A class from a file that stands in for a name is what the name is resolved to. Neither the
catalogue nor the listed files had the name. -/
theorem of_standIn_located {a : String} {p : Path}
    (h : (standIn (k.resolved c) a).file = some p) :
    standIn (k.resolved c) a = k.source.resolve a ∧ c.graph.contains a = false ∧
      k.found.find? a = none := by
  rw [IndexCall.resolved, standIn_ofNames] at h ⊢
  split at h
  · next hmissing =>
    obtain ⟨-, hother, hgraph⟩ := (c.mem_missingImports _ a).mp hmissing
    refine ⟨if_pos hmissing, hgraph, ?_⟩
    rw [Option.eq_none_iff_forall_ne_some]
    intro y hy
    obtain ⟨hname, f, hf, hfy⟩ := k.find_found a y hy
    obtain ⟨hpresent, -, hparse⟩ := k.parse_of_holds f y hfy
    have hf' : f ∈ k.files.filter k.present := List.mem_filter.mpr ⟨hf, hpresent⟩
    have hparsed := List.mem_map_of_mem (f := fun f => (f, k.source.parse f)) hf'
    exact hother _ hparsed (by rw [hparse, hname])
  · cases h

theorem wellFormed_index (h : c.graph.WellFormed) : (c.index k).graph.WellFormed := by
  rw [index, update_eq]
  exact wellFormed_linkAll _ _ _
    (ImportGraph.wellFormed_addAll _ _ (restricts_noted c k h).wellFormed)

/-- The vertices stay in order. -/
theorem sorted_index (h : c.graph.vertices.Sorted) : (c.index k).graph.vertices.Sorted := by
  have hnoted : (c.noted k).graph.vertices.Sorted :=
    List.foldlRecOn (motive := fun c : Catalog => c.graph.vertices.Sorted) _ _ h
      fun c hc f _ => sorted_note c f _ hc
  have hadded : ((c.noted k).graph.addAll k.found.values).vertices.Sorted :=
    ImportGraph.sorted_addAll _ _ hnoted
  rw [index, update_eq]
  exact List.foldlRecOn (motive := fun c : Catalog => c.graph.vertices.Sorted) _ _ hadded
    fun c hc e _ => sorted_linkOne _ c e hc

/-- A found class imports what it says; the others keep what noting has left them. -/
theorem mem_importsOf_index (a b : String) :
    b ∈ (c.index k).graph.importsOf a ↔
      (∃ cls, k.found.find? a = some cls ∧ b ∈ cls.imports.toList) ∨
        k.found.find? a = none ∧ b ∈ (c.noted k).graph.importsOf a := by
  have hnone : (∀ cls ∈ k.found.values, cls.name ≠ a) ↔ k.found.find? a = none := by
    rw [← k.find_values_found, List.find?_eq_none]
    simp
  rw [index, update_eq, mem_importsOf_linkAll _ _ (k.standIn_name c),
    ImportGraph.mem_importsOf_addAll, hnone, k.mem_importPairs_found]
  · constructor
    · rintro (⟨hb, ha⟩ | ⟨hb, -⟩)
      · exact Or.inr ⟨ha, hb⟩
      · exact Or.inl hb
    · rintro (⟨cls, hcls, hb⟩ | ⟨ha, hb⟩)
      · refine Or.inr ⟨⟨cls, hcls, hb⟩, ?_⟩
        rintro rfl
        exact k.noLoop_of_found a cls hcls hb
      · exact Or.inl ⟨hb, ha⟩
  · rintro ⟨n, b⟩ he
    obtain ⟨cls, hcls, -⟩ := (k.mem_importPairs_found n b).mp he
    rw [ImportGraph.contains_eq_isSome, ImportGraph.classOf_addAll _ _ k.found_injective,
      k.find_values_found, hcls]
    rfl

end Catalog

end Retest
