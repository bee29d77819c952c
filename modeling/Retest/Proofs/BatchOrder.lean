import Retest.Proofs.ImpactedTests
import Retest.Proofs.UpdateEffect

/-! An update is told of its files in some order, which does not matter: what the listed files hold
is noted file by file, and where no two of them define one class, these notes can be swapped. -/

namespace Retest
open Std

universe u v

/-- Steps that can be swapped in every state they meet can be taken in any order. -/
theorem foldl_perm {α : Type u} {β : Type v} {f : β → α → β} {P : β → Prop} {l l' : List α}
    (hp : l.Perm l') (hkeep : ∀ s, P s → ∀ x, P (f s x))
    (hswap : ∀ x ∈ l, ∀ y ∈ l, ∀ s, P s → f (f s x) y = f (f s y) x) (s : β) (hs : P s) :
    l.foldl f s = l'.foldl f s := by
  induction hp generalizing s with
  | nil => rfl
  | cons x _ ih =>
    apply ih _ _ (hkeep s hs x)
    intro y hy z hz
    exact hswap y (List.mem_cons_of_mem x hy) z (List.mem_cons_of_mem x hz)
  | swap x y l =>
    have hxy := hswap y List.mem_cons_self x (List.mem_cons_of_mem y List.mem_cons_self) s hs
    rw [List.foldl_cons, List.foldl_cons, List.foldl_cons, List.foldl_cons, hxy]
  | trans hp _ ih ih' =>
    rw [ih hswap s hs]
    apply ih' _ s hs
    intro x hx y hy
    exact hswap x (hp.mem_iff.mpr hx) y (hp.mem_iff.mpr hy)

namespace SortedMap

variable {κ : Type u} {α : Type v} [Ord κ]

/-- A key below all others comes first. -/
theorem insertEntry_of_lt (l : List (κ × α)) (k : κ) (a : α)
    (h : ∀ e ∈ l, compare k e.1 = .lt) : insertEntry k a l = (k, a) :: l := by
  cases l with
  | nil => rfl
  | cons e l => simp [insertEntry, h e List.mem_cons_self]

variable [TransOrd κ]

theorem insertEntry_comm (l : List (κ × α)) (j k : κ) (a b : α) (h : compare j k = .lt) :
    insertEntry k b (insertEntry j a l) = insertEntry j a (insertEntry k b l) := by
  have hkj : compare k j = .gt := OrientedCmp.gt_of_lt h
  induction l with
  | nil => simp [insertEntry, h, hkj]
  | cons e l ih =>
    obtain ⟨i, c⟩ := e
    cases hji : compare j i with
    | lt =>
      -- The lower key goes in front, whatever happens to the other one behind it.
      have hfront : insertEntry j a (insertEntry k b ((i, c) :: l)) =
          (j, a) :: insertEntry k b ((i, c) :: l) := by
        cases hki : compare k i <;> simp [insertEntry, hki, hji, h]
      rw [hfront]
      simp [insertEntry, hji, hkj]
    | eq =>
      have hki : compare k i = .gt := by rw [← TransCmp.congr_right hji, hkj]
      simp [insertEntry, hji, hki]
    | gt =>
      have hki : compare k i = .gt := TransCmp.gt_trans hkj hji
      simp [insertEntry, hji, hki, ih]

/-- Different keys can be put in either way round. -/
theorem insert_comm (m : SortedMap κ α) (j k : κ) (a b : α) (h : compare j k ≠ .eq) :
    (m.insert j a).insert k b = (m.insert k b).insert j a := by
  apply congrArg SortedMap.mk
  cases hjk : compare j k with
  | lt => exact insertEntry_comm m.entries j k a b hjk
  | eq => exact absurd hjk h
  | gt => exact (insertEntry_comm m.entries k j b a (OrientedCmp.lt_of_gt hjk)).symm

theorem erase_insert_comm (m : SortedMap κ α) (j k : κ) (a : α) (hs : m.Sorted)
    (h : compare j k ≠ .eq) : (m.insert j a).erase k = (m.erase k).insert j a := by
  have hkj : compare k j ≠ .eq := fun hkj => h (OrientedCmp.eq_symm hkj)
  obtain ⟨l⟩ := m
  change List.Pairwise _ l at hs
  apply congrArg SortedMap.mk
  change (insertEntry j a l).filter (fun e => !(compare k e.1).isEq) =
    insertEntry j a (l.filter fun e => !(compare k e.1).isEq)
  induction l with
  | nil => simp [insertEntry, hkj]
  | cons e l ih =>
    obtain ⟨i, c⟩ := e
    obtain ⟨hlt, hl⟩ := List.pairwise_cons.mp hs
    cases hji : compare j i with
    | lt =>
      -- The new key is below all the others, those among them that stay included.
      have hbelow : ∀ e ∈ ((i, c) :: l).filter (fun e => !(compare k e.1).isEq),
          compare j e.1 = .lt := by
        intro e he
        rcases List.mem_cons.mp (List.mem_filter.mp he).1 with rfl | hel
        · exact hji
        · exact TransCmp.lt_trans hji (hlt e hel)
      rw [insertEntry_of_lt _ j a hbelow]
      simp [insertEntry, hji, hkj]
    | eq =>
      have hki : compare k i ≠ .eq := by rwa [← TransCmp.congr_right hji]
      simp [insertEntry, hji, hki]
    | gt =>
      by_cases hki : compare k i = .eq
      · simp [insertEntry, hji, hki, ih hl]
      · simp [insertEntry, hji, hki, ih hl]

omit [TransOrd κ] in
theorem erase_comm (m : SortedMap κ α) (j k : κ) : (m.erase j).erase k = (m.erase k).erase j := by
  simp [erase, List.filter_filter, Bool.and_comm]

/-- Two spellings of a key take the same entry out. -/
theorem erase_congr (m : SortedMap κ α) (j k : κ) (h : compare j k = .eq) :
    m.erase j = m.erase k := by
  have hsame (e : κ × α) : compare j e.1 = compare k e.1 := TransCmp.congr_left h
  simp [erase, hsame]

omit [TransOrd κ] in
/-- What is not there cannot be taken out. -/
theorem erase_of_find_none (m : SortedMap κ α) (k : κ) (h : m.find? k = none) : m.erase k = m := by
  obtain ⟨l⟩ := m
  change lookup k l = none at h
  apply congrArg SortedMap.mk
  change l.filter (fun e => !(compare k e.1).isEq) = l
  induction l with
  | nil => rfl
  | cons e l ih =>
    by_cases hk : compare k e.1 = .eq
    · simp [lookup, hk] at h
    · have hl : lookup k l = none := by simpa [lookup, hk] using h
      simp [hk, ih hl]

/-- Where a key comes with one value only, the order of the entries does not matter. -/
theorem ofList_perm {l l' : List (κ × α)} (hp : l.Perm l')
    (h : ∀ d ∈ l, ∀ e ∈ l, compare d.1 e.1 = .eq → d = e) : ofList l = ofList l' := by
  apply foldl_perm (P := fun _ => True) hp (fun _ _ _ => trivial) _ empty trivial
  intro d hd e he m _
  by_cases hde : compare d.1 e.1 = .eq
  · rw [h d hd e he hde]
  · exact insert_comm m d.1 e.1 d.2 e.2 hde

end SortedMap

namespace SortedSet

variable {α : Type u} [Ord α]

theorem erase_comm (s : SortedSet α) (a b : α) : (s.erase a).erase b = (s.erase b).erase a := by
  simp [erase, List.filter_filter, Bool.and_comm]

variable [TransOrd α]

theorem insertMember_comm (l : List α) (a b : α) (h : compare a b = .lt) :
    insertMember b (insertMember a l) = insertMember a (insertMember b l) := by
  have hba : compare b a = .gt := OrientedCmp.gt_of_lt h
  induction l with
  | nil => simp [insertMember, h, hba]
  | cons c l ih =>
    cases hac : compare a c with
    | lt =>
      have hfront : insertMember a (insertMember b (c :: l)) = a :: insertMember b (c :: l) := by
        cases hbc : compare b c <;> simp [insertMember, hbc, hac, h]
      rw [hfront]
      simp [insertMember, hac, hba]
    | eq =>
      have hbc : compare b c = .gt := by rw [← TransCmp.congr_right hac, hba]
      simp [insertMember, hac, hbc]
    | gt =>
      have hbc : compare b c = .gt := TransCmp.gt_trans hba hac
      simp [insertMember, hac, hbc, ih]

variable [LawfulEqOrd α]

theorem insert_comm (s : SortedSet α) (a b : α) :
    (s.insert a).insert b = (s.insert b).insert a := by
  apply congrArg SortedSet.mk
  cases hab : compare a b with
  | lt => exact insertMember_comm s.toList a b hab
  | eq => rw [LawfulEqOrd.eq_of_compare hab]
  | gt => exact (insertMember_comm s.toList b a (OrientedCmp.lt_of_gt hab)).symm

theorem ofList_perm {l l' : List α} (hp : l.Perm l') : ofList l = ofList l' :=
  foldl_perm (P := fun _ => True) hp (fun _ _ _ => trivial)
    (fun a _ b _ s _ => insert_comm s a b) empty trivial

end SortedSet

namespace ImportGraph

variable (g : ImportGraph)

/-- A class that stays keeps the imports that stay. -/
theorem mem_importsOf_remove_of_ne {name a b : String} (ha : a ≠ name) (hb : b ≠ name) :
    b ∈ (g.remove name).1.importsOf a ↔ b ∈ g.importsOf a := by
  rw [mem_importsOf, mem_importsOf, find_remove, if_neg ha]
  cases g.vertices.find? a with
  | none => simp
  | some v => by_cases hi : a ∈ g.importersOf name <;> simp [hi, SortedSet.contains_erase, hb]

theorem mem_importersOf_remove_of_ne {name a b : String} (ha : a ≠ name) (hb : b ≠ name) :
    b ∈ (g.remove name).1.importersOf a ↔ b ∈ g.importersOf a := by
  rw [mem_importersOf, mem_importersOf, find_remove, if_neg ha]
  cases g.vertices.find? a with
  | none => simp
  | some v => by_cases hi : a ∈ g.importsOf name <;> simp [hi, SortedSet.contains_erase, hb]

/-- Two classes can be removed in either order. -/
theorem remove_comm (hs : g.vertices.Sorted) (a b : String) :
    ((g.remove a).1.remove b).1 = ((g.remove b).1.remove a).1 := by
  by_cases hab : a = b
  · rw [hab]
  apply congrArg ImportGraph.mk
  apply SortedMap.ext_find _ _ (sorted_remove _ (sorted_remove g hs a) b)
    (sorted_remove _ (sorted_remove g hs b) a)
  intro x
  rw [find_remove, find_remove, find_remove, find_remove]
  by_cases hxa : x = a
  · simp [hxa, hab]
  by_cases hxb : x = b
  · simp [hxb]
  -- Which sets lose a name is the same both ways, and a set can lose two names in either order.
  have hba : b ≠ a := fun h => hab h.symm
  simp only [hxa, hxb, if_false, mem_importsOf_remove_of_ne g hab hxb,
    mem_importsOf_remove_of_ne g hba hxa, mem_importersOf_remove_of_ne g hab hxb,
    mem_importersOf_remove_of_ne g hba hxa, Option.map_map, Function.comp_def]
  congr 1
  funext v
  congr 1
  · by_cases hia : x ∈ g.importsOf a <;> by_cases hib : x ∈ g.importsOf b <;>
      simp [hia, hib, SortedSet.erase_comm v.importers a b]
  · by_cases hia : x ∈ g.importersOf a <;> by_cases hib : x ∈ g.importersOf b <;>
      simp [hia, hib, SortedSet.erase_comm v.imports a b]

end ImportGraph

namespace Catalog

structure InOrder (c : Catalog) : Prop where
  vertices : c.graph.vertices.Sorted
  files : c.byFile.Sorted

theorem inOrder_empty : empty.InOrder := ⟨SortedMap.sorted_empty, SortedMap.sorted_empty⟩

section Note

variable (c : Catalog) (f g : Path) (now later : Option JvmClass)

/-- A note puts in what the file holds now, or takes the file out. -/
theorem byFile_note_eq : (c.note f now).byFile =
    now.elim (c.byFile.erase f) fun x => c.byFile.insert f x := by
  cases now with
  | some x => rfl
  | none =>
    simp only [note, evict, Option.elim_none]
    cases hf : c.byFile.find? f with
    | none => exact (SortedMap.erase_of_find_none c.byFile f hf).symm
    | some old => rfl

theorem InOrder.note {c : Catalog} (h : c.InOrder) (f : Path) (now : Option JvmClass) :
    (c.note f now).InOrder := by
  constructor
  · exact sorted_note c f now h.vertices
  · rw [byFile_note_eq]
    cases now with
    | none => exact SortedMap.sorted_erase _ f h.files
    | some x => exact SortedMap.sorted_insert _ f x h.files

/-- Notes of two files can be swapped. -/
theorem note_comm (h : c.InOrder) (hfg : compare f g ≠ .eq) :
    (c.note f now).note g later = (c.note g later).note f now := by
  have hgf : compare g f ≠ .eq := fun hgf => hfg (OrientedCmp.eq_symm hgf)
  have hgraph : ((c.note f now).note g later).graph = ((c.note g later).note f now).graph := by
    rw [graph_note, byFile_note, if_neg hgf, graph_note, graph_note, byFile_note, if_neg hfg,
      graph_note]
    cases c.byFile.find? f with
    | none => cases c.byFile.find? g <;> rfl
    | some x =>
      cases c.byFile.find? g with
      | none => rfl
      | some y =>
        -- Each note takes one class out or none.
        by_cases hx : now.map (·.name) = some x.name <;>
          by_cases hy : later.map (·.name) = some y.name <;> simp only [hx, hy, if_true, if_false]
        exact c.graph.remove_comm h.vertices x.name y.name
  have hbyFile : ((c.note f now).note g later).byFile = ((c.note g later).note f now).byFile := by
    rw [byFile_note_eq, byFile_note_eq, byFile_note_eq, byFile_note_eq]
    cases now with
    | none =>
      cases later with
      | none => exact SortedMap.erase_comm c.byFile f g
      | some y => exact (SortedMap.erase_insert_comm c.byFile g f y h.files hgf).symm
    | some x =>
      cases later with
      | none => exact SortedMap.erase_insert_comm c.byFile f g x h.files hfg
      | some y => exact SortedMap.insert_comm c.byFile f g x y hfg
  exact congrArg₂ Catalog.mk hgraph hbyFile

end Note

section Link

variable (resolved : SortedMap String JvmClass)

theorem sorted_byFile_linkOne (c : Catalog) (e : String × String) (h : c.byFile.Sorted) :
    (c.linkOne resolved e).byFile.Sorted := by
  change (c.ensure resolved e.2).1.byFile.Sorted
  rw [ensure]
  split
  · exact h
  · dsimp only
    split
    · exact h
    · split
      · exact h
      · exact SortedMap.sorted_insert _ _ _ h

theorem InOrder.linkOne (c : Catalog) (e : String × String) (h : c.InOrder) :
    (c.linkOne resolved e).InOrder :=
  ⟨sorted_linkOne resolved c e h.vertices, sorted_byFile_linkOne resolved c e h.files⟩

end Link

/-- An update keeps a catalogue in order. -/
theorem InOrder.update {c : Catalog} (h : c.InOrder) (source : ClassSource) (present : Path → Bool)
    (files : List Path) : (c.update source present files).1.InOrder := by
  have hnoted : (c.noteAll source present files).InOrder :=
    c.noteAll_induction source present files InOrder h fun c f now hc => hc.note f now
  rw [update_eq_linkAll]
  refine linkImport_induction InOrder _ _ ?_ fun resolved c e hc => hc.linkOne resolved c e
  exact ⟨ImportGraph.sorted_addAll _ _ hnoted.vertices, hnoted.files⟩

theorem evict_congr (c : Catalog) {f g : Path} (h : compare f g = .eq) :
    c.evict f = c.evict g := by
  rw [evict, evict, SortedMap.find_congr c.byFile f g h, SortedMap.erase_congr c.byFile f g h]

theorem evict_comm {c : Catalog} (h : c.InOrder) (f g : Path) :
    (c.evict f).evict g = (c.evict g).evict f := by
  by_cases hfg : compare f g = .eq
  · rw [evict_congr c hfg, evict_congr (c.evict g) hfg]
  · exact note_comm c f g none none h hfg

end Catalog

namespace ClassSource

variable (source : ClassSource) (present : Path → Bool) (files : List Path)

/-- No two of the listed files that are there define one class. A file may be listed again. -/
def DefinesOnce : Prop :=
  ∀ f ∈ files, ∀ g ∈ files, present f = true → present g = true → (source.read f).isSome = true →
    (source.read f).map (·.name) = (source.read g).map (·.name) → f = g

def ReadsAlike : Prop :=
  ∀ f ∈ files, ∀ g ∈ files, present f = true → present g = true → compare f g = .eq →
    (source.read f).map (·.name) = (source.read g).map (·.name)

/-- In a directory tree a path leads to the same file in whatever way it is spelled. -/
theorem readsAlike_ofTree (tree : FileTree) (roots files : List Path) :
    (ClassFile.source tree roots).ReadsAlike tree.pathExists files := by
  intro f _ g _ hf hg hfg
  let k := IndexCall.ofTree tree roots [f, g]
  have hlast : g ∈ k.files := List.mem_cons_of_mem f List.mem_cons_self
  have halike := IndexCall.readsAlike_ofTree tree roots [f, g] f List.mem_cons_self g hlast
    (OrientedCmp.eq_symm hfg) hf hg
  rwa [k.holds_of_present f hf, k.holds_of_present g hg] at halike

end ClassSource

namespace Catalog

section Update

variable {c : Catalog} {source : ClassSource} {present : Path → Bool} {files files' : List Path}
variable (hp : files.Perm files') (honce : source.DefinesOnce present files)
include hp honce

theorem readClasses_perm :
    readClasses source present files = readClasses source present files' := by
  have hread := (((hp.filter present).map source.parse).filter fun x => !x.isUnparsable).map
    fun x => (x.name, x)
  apply SortedMap.ofList_perm hread
  intro d hd e he hde
  have hfile (d : String × JvmClass)
      (hd : d ∈ (((files.filter present).map source.parse).filter fun x => !x.isUnparsable).map
        fun x => (x.name, x)) : ∃ f ∈ files, present f = true ∧ d = ((source.parse f).name,
          source.parse f) ∧ source.read f = some (source.parse f) := by
    obtain ⟨x, hx, rfl⟩ := List.mem_map.mp hd
    obtain ⟨hparsed, hread⟩ := List.mem_filter.mp hx
    obtain ⟨f, hf, rfl⟩ := List.mem_map.mp hparsed
    obtain ⟨hfl, hfp⟩ := List.mem_filter.mp hf
    exact ⟨f, hfl, hfp, rfl, by simpa [ClassSource.read] using hread⟩
  obtain ⟨f, hf, hfp, rfl, hfx⟩ := hfile d hd
  obtain ⟨g, hg, hgp, rfl, hgx⟩ := hfile e he
  have hname : (source.parse f).name = (source.parse g).name := LawfulEqOrd.eq_of_compare hde
  rw [honce f hf g hg hfp hgp (by rw [hfx]; rfl) (by rw [hfx, hgx]; exact congrArg some hname)]

omit honce in
theorem resolveFor_perm :
    c.resolveFor source present files = c.resolveFor source present files' := by
  have hparsed := (hp.filter present).map fun f => (f, source.parse f)
  have hincoming (n : String) := (hparsed.map fun e => e.2.name).contains_eq (a := n)
  have hwanted := (hparsed.filter fun e => !e.2.isUnparsable).flatMap_right
    fun e => e.2.imports.toList
  have hmissing : c.missingImports ((files.filter present).map fun f => (f, source.parse f)) =
      c.missingImports ((files'.filter present).map fun f => (f, source.parse f)) := by
    simp only [missingImports, hincoming]
    exact SortedSet.ofList_perm (hwanted.filter _)
  rw [resolveFor, resolveFor, hmissing]

/-- The notes of the listed files come to the same in every order. -/
theorem noteAll_perm (hc : c.InOrder) (halike : source.ReadsAlike present files) :
    c.noteAll source present files = c.noteAll source present files' := by
  have hgone : (files.filter fun f => !present f).foldl evict c =
      (files'.filter fun f => !present f).foldl evict c :=
    foldl_perm (P := InOrder) (hp.filter _) (fun c hc f => hc.note f none)
      (fun f _ g _ _ hc => evict_comm hc f g) c hc
  have hevicted : ((files.filter fun f => !present f).foldl evict c).InOrder :=
    List.foldlRecOn (motive := InOrder) _ _ hc fun c hc f _ => hc.note f none
  rw [noteAll, noteAll, ← hgone]
  apply foldl_perm (P := InOrder) (hp.filter present) (fun c hc f => hc.note f (source.read f)) _ _
    hevicted
  intro f hf g hg c hc
  obtain ⟨hfl, hfp⟩ := List.mem_filter.mp hf
  obtain ⟨hgl, hgp⟩ := List.mem_filter.mp hg
  by_cases hfg : compare f g = .eq
  · -- Spellings of one path: they hold one class, and then they are one, or both hold none.
    have hsame := halike f hfl g hgl hfp hgp hfg
    cases hx : source.read f with
    | some x =>
      obtain rfl := honce f hfl g hgl hfp hgp (by rw [hx]; rfl) hsame
      rw [hx]
    | none =>
      rw [hx, Option.map_none, eq_comm, Option.map_eq_none_iff] at hsame
      rw [hsame]
      exact evict_comm hc f g
  · exact note_comm c f g _ _ hc hfg

end Update

/-- The order in which an update is told of its files does not matter, where no two of them define
one class. The spellings of a path have to be read alike, as they are in every directory tree. -/
theorem update_perm (c : Catalog) (hc : c.InOrder) {files files' : List Path}
    (hp : files.Perm files') :
    (∀ (source : ClassSource) (present : Path → Bool), source.DefinesOnce present files →
      source.ReadsAlike present files →
        c.update source present files = c.update source present files') ∧
    (∀ (tree : FileTree) (roots : List Path),
      (ClassFile.source tree roots).DefinesOnce tree.pathExists files →
        c.update (ClassFile.source tree roots) tree.pathExists files =
          c.update (ClassFile.source tree roots) tree.pathExists files') ∧
    ∀ (source : ClassSource) (present : Path → Bool),
      (c.update source present files).1.InOrder := by
  have hsame (source : ClassSource) (present : Path → Bool)
      (honce : source.DefinesOnce present files) (halike : source.ReadsAlike present files) :
      c.update source present files = c.update source present files' := by
    rw [update_eq_linkAll, update_eq_linkAll, ← readClasses_perm hp honce,
      ← noteAll_perm hp honce hc halike, ← resolveFor_perm hp]
  refine ⟨hsame, ?_, fun source present => hc.update source present files⟩
  intro tree roots honce
  exact hsame _ _ honce (ClassSource.readsAlike_ofTree tree roots files)

end Catalog

namespace Shuffle

def before : Catalog := Catalog.empty.index <|
  .ofHoldings [(⟨"c/A.class"⟩, .ofImports "A" ["B"] true (some ⟨"c/A.class"⟩)),
    (⟨"c/B.class"⟩, .ofImports "B" [] false (some ⟨"c/B.class"⟩)),
    (⟨"c/C.class"⟩, .ofImports "C" ["A"] false (some ⟨"c/C.class"⟩)),
    (⟨"c/D.class"⟩, .ofImports "D" ["C"] false (some ⟨"c/D.class"⟩)),
    (⟨"c/E.class"⟩, .ofImports "E" ["D", "X"] false (some ⟨"c/E.class"⟩))] (by decide)
    [⟨"c/A.class"⟩, ⟨"c/B.class"⟩, ⟨"c/C.class"⟩, ⟨"c/D.class"⟩, ⟨"c/E.class"⟩]

/-- The files of `A` and `B` exchange their classes, that of `C` is gone, that of `D` cannot be read
any more, and that of `E` comes to define `F`. -/
def after : IndexCall :=
  .ofHoldings [(⟨"c/A.class"⟩, .ofImports "B" ["C"] false (some ⟨"c/A.class"⟩)),
    (⟨"c/B.class"⟩, .ofImports "A" ["D", "Y"] true (some ⟨"c/B.class"⟩)),
    (⟨"c/D.class"⟩, .unparsable ⟨"c/D.class"⟩),
    (⟨"c/E.class"⟩, .ofImports "F" ["A"] false (some ⟨"c/E.class"⟩))] (by decide)
    [⟨"c/A.class"⟩, ⟨"c/B.class"⟩, ⟨"c/C.class"⟩, ⟨"c/D.class"⟩, ⟨"c/E.class"⟩, ⟨"c/A.class"⟩,
      ⟨"c//C.class"⟩]

def shuffled : List Path :=
  [⟨"c//C.class"⟩, ⟨"c/E.class"⟩, ⟨"c/B.class"⟩, ⟨"c/A.class"⟩, ⟨"c/D.class"⟩, ⟨"c/C.class"⟩,
    ⟨"c/A.class"⟩]

end Shuffle

namespace Catalog

/-- Files that exchange their classes, one that is gone, one that cannot be read and one that comes
to define another class have the same effect in two orders. -/
theorem shuffled_update_eq : Shuffle.before.InOrder ∧ Shuffle.after.files.Perm Shuffle.shuffled ∧
    Shuffle.after.source.DefinesOnce Shuffle.after.present Shuffle.after.files ∧
    Shuffle.after.source.ReadsAlike Shuffle.after.present Shuffle.after.files ∧
    Shuffle.before.update Shuffle.after.source Shuffle.after.present Shuffle.after.files =
      Shuffle.before.update Shuffle.after.source Shuffle.after.present Shuffle.shuffled ∧
    (Shuffle.before.index Shuffle.after).graph.importsOf "A" = ["D", "Y"] := by
  have horder : Shuffle.before.InOrder := inOrder_empty.update _ _ _
  have hperm : Shuffle.after.files.Perm Shuffle.shuffled := by decide +kernel
  have honce : Shuffle.after.source.DefinesOnce Shuffle.after.present Shuffle.after.files := by
    unfold ClassSource.DefinesOnce
    decide +kernel
  have halike : Shuffle.after.source.ReadsAlike Shuffle.after.present Shuffle.after.files := by
    unfold ClassSource.ReadsAlike
    decide +kernel
  obtain ⟨hsame, -, -⟩ := update_perm Shuffle.before horder hperm
  exact ⟨horder, hperm, honce, halike, hsame _ _ honce halike, by decide +kernel⟩

end Catalog

end Retest
