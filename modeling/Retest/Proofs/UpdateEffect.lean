import Retest.Proofs.FileMap

namespace Retest
open Std

def IndexCall.ReadsAlike (k : IndexCall) : Prop :=
  ∀ f ∈ k.files, ∀ g ∈ k.files, compare g f = .eq → k.present f = true → k.present g = true →
    (k.holds f).map (·.name) = (k.holds g).map (·.name)

/-- In a directory tree a path leads to the same file in whatever way it is spelled. -/
theorem IndexCall.readsAlike_ofTree (tree : FileTree) (roots files : List Path) :
    (IndexCall.ofTree tree roots files).ReadsAlike := by
  intro f _ g _ hgf hf hg
  let d := Disk.ofTree tree roots
  have hfg : compare f g = .eq := OrientedCmp.eq_symm hgf
  change ((d.call files).holds f).map (·.name) = ((d.call files).holds g).map (·.name)
  cases hx : (d.call files).holds f with
  | some x =>
    obtain ⟨y, hy, hname⟩ := d.holds_respelled files hfg hx hg
    rw [hy, Option.map_some, Option.map_some, hname]
  | none =>
    cases hy : (d.call files).holds g with
    | none => rfl
    | some y =>
      obtain ⟨x, hx', -⟩ := d.holds_respelled files hgf hy hf
      rw [hx] at hx'
      cases hx'

/-- Of the readable classes of one name the one that is listed last is found. -/
theorem IndexCall.find_found_eq (k : IndexCall) (a : String) :
    k.found.find? a = (k.files.filterMap k.holds).reverse.find? fun x => x.name = a := by
  rw [found, SortedMap.find_ofList, ← List.map_reverse, List.find?_map, Option.map_map]
  have hsame : (fun e : String × JvmClass => (compare a e.1).isEq) ∘ (fun x => (x.name, x)) =
      fun x => decide (x.name = a) := by
    funext x
    rw [Function.comp_apply, Bool.eq_iff_iff, Ordering.isEq_iff_eq_eq,
      LawfulEqOrd.compare_eq_iff_eq, decide_eq_true_eq, eq_comm]
  rw [hsame]
  exact Option.map_id'

namespace Catalog

/-- What a listed file is known to hold when it is read: the class that the catalogue has for it, or
the one that another spelling of its path, earlier on the list, was read as. -/
def Knows (c : Catalog) (k : IndexCall) (f : Path) (x : JvmClass) : Prop :=
  c.byFile.find? f = some x ∨
    k.present f = true ∧ ∃ e, [e, f].Sublist k.files ∧ compare f e = .eq ∧ k.holds e = some x

/-- A listed file was known to hold a class of this name and holds none now: it is gone, cannot be
read, or defines another name. -/
def GivesUp (c : Catalog) (k : IndexCall) (a : String) : Prop :=
  ∃ f ∈ k.files, ∃ x, c.Knows k f x ∧ x.name = a ∧ (k.holds f).map (·.name) ≠ some a

variable (c : Catalog) (k : IndexCall)

theorem contains_noted_iff_not_givesUp (a : String) :
    (c.noted k).graph.contains a = true ↔ c.graph.contains a = true ∧ ¬c.GivesUp k a := by
  rw [contains_noted_iff, List.pairwise_iff_forall_sublist]
  refine and_congr_right fun _ => ?_
  constructor
  · rintro ⟨hknown, hread⟩ ⟨f, hf, x, hx | ⟨hpresent, e, hsub, hfe, hx⟩, hname, hno⟩
    · exact hno (hknown f hf x hx hname)
    · exact hno (hread hsub hpresent hfe (by rw [hx, Option.map_some, hname]))
  · intro hkept
    constructor
    · intro f hf x hx hname
      by_contra hno
      exact hkept ⟨f, hf, x, Or.inl hx, hname, hno⟩
    · intro e f hsub hpresent hfe hname
      by_contra hno
      obtain ⟨x, hx, hxa⟩ := Option.map_eq_some_iff.mp hname
      have hf : f ∈ k.files := hsub.subset (by simp)
      exact hkept ⟨f, hf, x, Or.inr ⟨hpresent, e, hsub, hfe, hx⟩, hxa, hno⟩

/-- Where spellings are read alike, only what the catalogue has for a listed file is given up. -/
theorem givesUp_iff_of_readsAlike (h : k.ReadsAlike) (a : String) :
    c.GivesUp k a ↔ ∃ f ∈ k.files, ∃ x, c.byFile.find? f = some x ∧ x.name = a ∧
      (k.holds f).map (·.name) ≠ some a := by
  constructor
  · rintro ⟨f, hf, x, hx | ⟨hpresent, e, hsub, hfe, hx⟩, hname, hno⟩
    · exact ⟨f, hf, x, hx, hname, hno⟩
    -- What the other spelling was read as is what this one holds, so it is not given up.
    · have he : e ∈ k.files := hsub.subset List.mem_cons_self
      have halike := h e he f hf hfe (k.parse_of_holds e x hx).1 hpresent
      rw [← halike, hx, Option.map_some, hname] at hno
      exact absurd rfl hno
  · rintro ⟨f, hf, x, hx, hname, hno⟩
    exact ⟨f, hf, x, Or.inl hx, hname, hno⟩

def Arrives (changed : SortedMap String JvmClass) (a : String) : Prop :=
  changed.contains a = true ∨ ∃ b x, changed.find? b = some x ∧ a ∈ x.imports.toList

structure Brings (c' : Catalog) (changed : SortedMap String JvmClass) : Prop where
  /-- Returned are the classes of the listed files that can be read, the last one of each name. -/
  returned : ∀ a, changed.find? a = (k.files.filterMap k.holds).reverse.find? fun x => x.name = a
  /-- A returned class is that of its vertex. Its links are its imports, all of them vertices. -/
  read : ∀ a x, changed.find? a = some x → c'.graph.classOf? a = some x ∧
    (∀ b, b ∈ c'.graph.importsOf a ↔ b ∈ x.imports.toList) ∧
    ∀ b ∈ x.imports.toList, c'.graph.contains b = true
  /-- The vertices that are taken out on the way are those that listed files give up. -/
  evicted : ∀ a, c.graph.contains a = true →
    ((c.noted k).graph.contains a = false ↔ c.GivesUp k a)
  /-- The others keep their classes, unless they are returned, and the links to one another. -/
  kept : ∀ a x, c.graph.classOf? a = some x → changed.contains a = false → ¬c.GivesUp k a →
    c'.graph.classOf? a = some x ∧
    ∀ b, b ∈ c'.graph.importsOf a ↔ b ∈ c.graph.importsOf a ∧ ¬c.GivesUp k b
  /-- A name that is given up is absent unless a returned class has or imports it. -/
  absent : ∀ a, c.GivesUp k a → (c'.graph.contains a = true ↔ Arrives changed a)
  /-- All new names come in with returned classes. -/
  fresh : ∀ a, c'.graph.contains a = true → c.graph.contains a = false → Arrives changed a
  /-- What is only imported by them imports nothing itself. -/
  bare : ∀ a, changed.contains a = false → c.graph.contains a = false ∨ c.GivesUp k a →
    c'.graph.importsOf a = []
  wellFormed : c'.graph.WellFormed

/-- After a call a name is a vertex just when it arrives with the returned classes, or was a vertex
that no listed file gives up. -/
theorem contains_index_iff (a : String) : (c.index k).graph.contains a = true ↔
    Arrives k.found a ∨ c.graph.contains a = true ∧ ¬c.GivesUp k a := by
  classical
  rw [← contains_noted_iff_not_givesUp, Arrives, or_assoc, or_comm (a := ∃ b x, _), ← or_assoc,
    SortedMap.contains, ImportGraph.contains_eq_isSome, ImportGraph.contains_eq_isSome,
    classOf_index, Option.isSome_or, Option.isSome_or, Bool.or_eq_true, Bool.or_eq_true]
  refine or_congr_right ?_
  by_cases hw : k.Wants a
  · rw [if_pos hw]
    exact iff_of_true rfl hw
  · rw [if_neg hw]
    exact iff_of_false Bool.false_ne_true hw

/-- The links between vertices that are neither returned nor given up stay, and no others. -/
theorem mem_importsOf_index_of_unlisted (h : c.graph.WellFormed) {a : String}
    (ha : k.found.contains a = false) (b : String) : b ∈ (c.index k).graph.importsOf a ↔
      b ∈ c.graph.importsOf a ∧ ¬c.GivesUp k a ∧ ¬c.GivesUp k b := by
  have hnone : k.found.find? a = none := by simpa [SortedMap.contains] using ha
  rw [mem_importsOf_index, hnone, (restricts_noted c k h).links, contains_noted_iff_not_givesUp,
    contains_noted_iff_not_givesUp]
  constructor
  · rintro (⟨x, hx, -⟩ | ⟨-, hb, ⟨-, hka⟩, -, hkb⟩)
    · cases hx
    · exact ⟨hb, hka, hkb⟩
  · rintro ⟨hb, hka, hkb⟩
    have hcb := ImportGraph.contains_of_mem_importersOf _ b a ((h.mirrored a b).mp hb)
    exact Or.inr ⟨rfl, hb, ⟨ImportGraph.contains_of_mem_importsOf _ a b hb, hka⟩, hcb, hkb⟩

theorem brings_update (h : c.graph.WellFormed) : c.Brings k (c.index k) k.found where
  returned := k.find_found_eq
  read a x hx := by
    refine ⟨classOf_index_of_found c k hx, ?_, ?_⟩
    · intro b
      rw [mem_importsOf_index, hx]
      simp
    · intro b hb
      exact (contains_index_iff c k b).mpr (Or.inl (Or.inr ⟨a, x, hx, hb⟩))
  evicted a ha := by
    rw [← Bool.not_eq_true, contains_noted_iff_not_givesUp, and_iff_right ha, not_not]
  kept a x hx ha hkept := by
    have hnone : k.found.find? a = none := by simpa [SortedMap.contains] using ha
    have hc := (ImportGraph.contains_iff _ a).mpr ⟨x, hx⟩
    have hn := (contains_noted_iff_not_givesUp c k a).mpr ⟨hc, hkept⟩
    refine ⟨classOf_index_of_noted c k h hnone hn hx, ?_⟩
    intro b
    rw [mem_importsOf_index_of_unlisted c k h ha]
    exact and_congr_right fun _ => and_iff_right hkept
  absent a ha := by
    rw [contains_index_iff]
    exact or_iff_left fun hkept => hkept.2 ha
  fresh a ha hno := by
    refine ((contains_index_iff c k a).mp ha).resolve_right fun hold => ?_
    rw [hno] at hold
    exact Bool.false_ne_true hold.1
  bare a ha hno := by
    rw [List.eq_nil_iff_forall_not_mem]
    intro b hb
    obtain ⟨hbc, hkept, -⟩ := (mem_importsOf_index_of_unlisted c k h ha b).mp hb
    rcases hno with hno | hgone
    · rw [ImportGraph.contains_of_mem_importsOf _ a b hbc] at hno
      cases hno
    · exact hkept hgone
  wellFormed := wellFormed_index c k h

/-- One update does to a well-formed catalogue exactly this. Where spellings of a path are read
alike, as in every directory tree, a name is given up just when the catalogue had a class of that
name for a listed file which is gone, cannot be read, or defines another name now. -/
theorem update_exact (h : c.graph.WellFormed) :
    c.Brings k (c.update k.source k.present k.files).1 (c.update k.source k.present k.files).2 ∧
      (k.ReadsAlike → ∀ a, c.GivesUp k a ↔ ∃ f ∈ k.files, ∃ x, c.byFile.find? f = some x ∧
        x.name = a ∧ (k.holds f).map (·.name) ≠ some a) := by
  refine ⟨?_, givesUp_iff_of_readsAlike c k⟩
  have hfound : (c.update k.source k.present k.files).2 = k.found := by rw [update_eq]
  rw [hfound]
  exact brings_update c k h

end Catalog

namespace Trade

def importer : JvmClass := .ofImports "D" ["B"] false (some ⟨"c/D.class"⟩)

def former : JvmClass := .ofImports "B" [] false (some ⟨"c/B.class"⟩)

def moved : JvmClass := .ofImports "B" ["D"] false (some ⟨"c/E.class"⟩)

def first : IndexCall :=
  .ofHoldings [(⟨"c/B.class"⟩, former), (⟨"c/D.class"⟩, importer)] (by decide)
    [⟨"c/B.class"⟩, ⟨"c/D.class"⟩]

def second : IndexCall :=
  .ofHoldings [(⟨"c/B.class"⟩, .ofImports "C" ["B", "X"] false (some ⟨"c/B.class"⟩)),
    (⟨"c/D.class"⟩, importer), (⟨"c/E.class"⟩, moved)] (by decide)
    [⟨"c/B.class"⟩, ⟨"c/E.class"⟩]

def before : Catalog := Catalog.empty.index first

def after : Catalog := (before.update second.source second.present second.files).1

theorem readsAlike_second : second.ReadsAlike := by
  unfold IndexCall.ReadsAlike
  decide

end Trade

namespace Catalog

/-- A name that one file gives up, another one defines and a third class imports: it stands for the
new class, and the old link to it is gone. -/
theorem traded_name_loses_importer :
    Trade.before.graph.WellFormed ∧ Trade.second.ReadsAlike ∧
      "B" ∈ Trade.before.graph.importsOf "D" ∧ Trade.before.GivesUp Trade.second "B" ∧
      Trade.after.graph.classOf? "D" = some Trade.importer ∧
      "B" ∉ Trade.after.graph.importsOf "D" ∧
      Trade.after.graph.classOf? "B" = some Trade.moved ∧
      "D" ∈ Trade.after.graph.importsOf "B" := by
  have hwf : Trade.before.graph.WellFormed :=
    wellFormed_index _ Trade.first ImportGraph.wellFormed_empty
  obtain ⟨hbrings, hgives⟩ := update_exact Trade.before Trade.second hwf
  have hgone : Trade.before.GivesUp Trade.second "B" :=
    (hgives Trade.readsAlike_second "B").mpr ⟨⟨"c/B.class"⟩, List.mem_cons_self, Trade.former,
      by decide +kernel, by decide +kernel, by decide +kernel⟩
  have hstays : ¬Trade.before.GivesUp Trade.second "D" :=
    ((contains_noted_iff_not_givesUp _ _ "D").mp (by decide +kernel)).2
  obtain ⟨hclass, hlinks⟩ := hbrings.kept "D" Trade.importer (by decide +kernel)
    (by decide +kernel) hstays
  obtain ⟨hmoved, hmovedLinks, -⟩ := hbrings.read "B" Trade.moved (by decide +kernel)
  exact ⟨hwf, Trade.readsAlike_second, by decide +kernel, hgone, hclass,
    fun hb => ((hlinks "B").mp hb).2 hgone, hmoved, (hmovedLinks "D").mpr (by decide +kernel)⟩

end Catalog

end Retest
