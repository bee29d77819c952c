import Retest.Graph.ImportGraph
import Retest.Proofs.Collection

namespace Retest.ImportGraph
open Std

/-- Every vertex stands under the name of its class, the two relations mirror each other, and no
class imports itself. -/
structure WellFormed (g : ImportGraph) : Prop where
  named : ∀ a c, g.classOf? a = some c → c.name = a
  mirrored : ∀ a b, b ∈ g.importsOf a ↔ a ∈ g.importersOf b
  noLoop : ∀ a, a ∉ g.importsOf a

theorem contains_eq_isSome (g : ImportGraph) (a : String) :
    g.contains a = (g.classOf? a).isSome := by
  simp [contains, classOf?, SortedMap.contains]

theorem contains_iff (g : ImportGraph) (a : String) :
    g.contains a = true ↔ ∃ c, g.classOf? a = some c := by
  rw [contains_eq_isSome, Option.isSome_iff_exists]

theorem mem_importsOf (g : ImportGraph) (a b : String) :
    b ∈ g.importsOf a ↔ ∃ v, g.vertices.find? a = some v ∧ v.imports.contains b = true := by
  cases h : g.vertices.find? a <;> simp [importsOf, h, SortedSet.contains_iff_mem]

theorem mem_importersOf (g : ImportGraph) (a b : String) :
    b ∈ g.importersOf a ↔ ∃ v, g.vertices.find? a = some v ∧ v.importers.contains b = true := by
  cases h : g.vertices.find? a <;> simp [importersOf, h, SortedSet.contains_iff_mem]

/-- Only a vertex imports anything. -/
theorem contains_of_mem_importsOf (g : ImportGraph) (a b : String) (h : b ∈ g.importsOf a) :
    g.contains a = true := by
  obtain ⟨v, hv, -⟩ := (mem_importsOf g a b).mp h
  simp [contains, SortedMap.contains, hv]

theorem contains_of_mem_importersOf (g : ImportGraph) (a b : String)
    (h : b ∈ g.importersOf a) : g.contains a = true := by
  obtain ⟨v, hv, -⟩ := (mem_importersOf g a b).mp h
  simp [contains, SortedMap.contains, hv]

/-- What a vertex keeps when it is no longer imported by `name`. -/
theorem find_forgetImporter (vs : SortedMap String Vertex) (name a : String) (l : List String) :
    (forgetImporter vs name l).find? a =
      if a ∈ l then (vs.find? a).map fun v => { v with importers := v.importers.erase name }
      else vs.find? a := by
  rw [forgetImporter, SortedMap.find_foldl_modify]
  intro v
  simp [SortedSet.erase_erase]

theorem find_forgetImport (vs : SortedMap String Vertex) (name a : String) (l : List String) :
    (forgetImport vs name l).find? a =
      if a ∈ l then (vs.find? a).map fun v => { v with imports := v.imports.erase name }
      else vs.find? a := by
  rw [forgetImport, SortedMap.find_foldl_modify]
  intro v
  simp [SortedSet.erase_erase]

theorem wellFormed_empty : empty.WellFormed where
  named a c h := by cases h
  mirrored a b := by
    change b ∈ [] ↔ a ∈ []
    simp
  noLoop a := by
    change a ∉ []
    simp

section Add

variable (g : ImportGraph) (c : JvmClass) (token : Option Nat)

def Has : Prop := ∃ v ∈ g.vertices.find? c.name, Vertex.holds v token = true

instance : Decidable (g.Has c token) :=
  inferInstanceAs (Decidable (∃ v ∈ g.vertices.find? c.name, Vertex.holds v token = true))

theorem not_has_none : ¬g.Has c none := by
  rintro ⟨v, -, hv⟩
  cases hv

variable {token} (hnew : ¬g.Has c token)
include hnew

/-- The vertex that an added class gets: its importers are those its name had before. -/
theorem find_add (a : String) :
    (g.add c token).1.vertices.find? a =
      if a ∈ g.importsOf c.name ∧ a ≠ c.name then
        (g.vertices.find? a).map fun v => { v with importers := v.importers.erase c.name }
      else if a = c.name then
        some ⟨c, token, ((g.vertices.find? c.name).map fun v =>
          if c.name ∈ v.imports.toList then v.importers.erase c.name else v.importers).getD .empty,
          .empty⟩
      else g.vertices.find? a := by
  cases hv : g.vertices.find? c.name with
  | none =>
    by_cases ha : a = c.name <;>
      simp [add, hv, importsOf, SortedMap.find_insert, ha]
  | some v =>
    have hheld : Vertex.holds v token = false := by
      rw [← Bool.not_eq_true]
      exact fun hh => hnew ⟨v, hv, hh⟩
    by_cases ha : a = c.name
    · by_cases hm : c.name ∈ v.imports.toList <;>
        simp [add, hv, hheld, importsOf, find_forgetImporter, SortedMap.find_insert, ha, hm]
    · simp [add, hv, hheld, importsOf, find_forgetImporter, SortedMap.find_insert, ha]

theorem classOf_add (a : String) :
    (g.add c token).1.classOf? a = if a = c.name then some c else g.classOf? a := by
  simp only [classOf?, find_add g c hnew]
  by_cases ha : a = c.name
  · simp [ha]
  · by_cases hm : a ∈ g.importsOf c.name
    · simp [ha, hm, Option.map_map, Function.comp_def]
    · simp [ha, hm]

/-- The former imports of the name are forgotten, and nobody else's. -/
theorem mem_importsOf_add (a b : String) :
    b ∈ (g.add c token).1.importsOf a ↔ a ≠ c.name ∧ b ∈ g.importsOf a := by
  rw [mem_importsOf, mem_importsOf, find_add g c hnew]
  by_cases ha : a = c.name
  · simp [ha, SortedSet.contains_empty]
  · cases hv : g.vertices.find? a <;> by_cases hm : a ∈ g.importsOf c.name <;> simp [ha, hm]

/-- The name keeps its importers; those it imported lose one. -/
theorem mem_importersOf_add (a b : String) :
    a ∈ (g.add c token).1.importersOf b ↔
      a ∈ g.importersOf b ∧ ¬(a = c.name ∧ b ∈ g.importsOf c.name) := by
  rw [mem_importersOf, mem_importersOf, find_add g c hnew]
  by_cases hb : b = c.name
  · subst hb
    cases hv : g.vertices.find? c.name with
    | none => simp [SortedSet.contains_empty]
    | some v =>
      have hm : c.name ∈ g.importsOf c.name ↔ c.name ∈ v.imports.toList := by
        simp [importsOf, hv]
      by_cases h : c.name ∈ v.imports.toList <;>
        simp [hm, h, SortedSet.contains_erase, and_comm]
  · cases hv : g.vertices.find? b with
    | none => simp [hb]
    | some v =>
      by_cases hm : b ∈ g.importsOf c.name <;>
        simp [hb, hm, SortedSet.contains_erase, and_comm]

theorem wellFormed_add (h : g.WellFormed) : (g.add c token).1.WellFormed where
  named a d hd := by
    rw [classOf_add g c hnew] at hd
    split at hd
    · next ha => rw [ha, ← Option.some.inj hd]
    · exact h.named a d hd
  mirrored a b := by
    rw [mem_importsOf_add g c hnew, mem_importersOf_add g c hnew, ← h.mirrored]
    constructor
    · rintro ⟨ha, hb⟩
      exact ⟨hb, fun hc => ha hc.1⟩
    · rintro ⟨hb, hc⟩
      refine ⟨?_, hb⟩
      intro ha
      exact hc ⟨ha, ha ▸ hb⟩
  noLoop a ha := h.noLoop a ((mem_importsOf_add g c hnew a a).mp ha).2

end Add

section Link

variable (g : ImportGraph) (source target : String)

def Linkable : Prop :=
  source ≠ target ∧ g.contains source = true ∧ g.contains target = true

theorem link_of_not_linkable (h : ¬g.Linkable source target) :
    (g.link source target).1 = g := by
  by_cases hl : source = target
  · simp [link, hl]
  · by_cases hs : g.contains source = true
    · have ht : g.contains target = false := by
        simpa using fun ht => h ⟨hl, hs, ht⟩
      simp [link, ht]
    · simp [link, hs]

theorem find_link (h : g.Linkable source target) (a : String) :
    (g.link source target).1.vertices.find? a =
      if a = source then
        (g.vertices.find? a).map fun v => { v with imports := v.imports.insert target }
      else if a = target then
        (g.vertices.find? a).map fun v => { v with importers := v.importers.insert source }
      else g.vertices.find? a := by
  obtain ⟨hne, hs, ht⟩ := h
  by_cases ha : a = source
  · subst ha
    simp [link, hne, hs, ht, SortedMap.find_modify]
  · simp [link, hne, hs, ht, SortedMap.find_modify, ha]

theorem classOf_link (a : String) : (g.link source target).1.classOf? a = g.classOf? a := by
  by_cases h : g.Linkable source target
  · have hts : target ≠ source := h.1.symm
    rw [classOf?, classOf?, find_link g source target h]
    by_cases ha : a = source
    · cases hv : g.vertices.find? a <;> simp [ha]
    · by_cases hb : a = target <;> cases hv : g.vertices.find? a <;> simp [ha, hb, hts]
  · rw [link_of_not_linkable g source target h]

theorem mem_importsOf_link (a b : String) :
    b ∈ (g.link source target).1.importsOf a ↔
      b ∈ g.importsOf a ∨ a = source ∧ b = target ∧ g.Linkable source target := by
  by_cases h : g.Linkable source target
  · have hts : target ≠ source := h.1.symm
    obtain ⟨v, hv⟩ := Option.isSome_iff_exists.mp h.2.1
    rw [mem_importsOf, mem_importsOf, find_link g source target h]
    by_cases ha : a = source
    · simp [ha, hv, SortedSet.contains_insert, h, or_comm]
    · by_cases hb : a = target <;> cases hw : g.vertices.find? a <;> simp [ha, hb, hts]
  · rw [link_of_not_linkable g source target h]
    simp [h]

theorem mem_importersOf_link (a b : String) :
    a ∈ (g.link source target).1.importersOf b ↔
      a ∈ g.importersOf b ∨ a = source ∧ b = target ∧ g.Linkable source target := by
  by_cases h : g.Linkable source target
  · have hts : target ≠ source := h.1.symm
    obtain ⟨v, hv⟩ := Option.isSome_iff_exists.mp h.2.2
    rw [mem_importersOf, mem_importersOf, find_link g source target h]
    by_cases hb : b = target
    · simp [hb, hv, hts, SortedSet.contains_insert, h, or_comm]
    · by_cases ha : b = source <;> cases hw : g.vertices.find? b <;> simp [ha, hb, h.1]
  · rw [link_of_not_linkable g source target h]
    simp [h]

theorem wellFormed_link (h : g.WellFormed) : (g.link source target).1.WellFormed where
  named a c hc := h.named a c (by rwa [classOf_link] at hc)
  mirrored a b := by rw [mem_importsOf_link, mem_importersOf_link, h.mirrored]
  noLoop a := by
    rw [mem_importsOf_link]
    rintro (ha | ⟨hs, ht, hl⟩)
    · exact h.noLoop a ha
    · exact hl.1 (hs.symm.trans ht)

end Link

section Remove

variable (g : ImportGraph) (name : String)

theorem find_remove (a : String) :
    (g.remove name).1.vertices.find? a =
      if a = name then none
      else (g.vertices.find? a).map fun v =>
        { v with
          importers := if a ∈ g.importsOf name then v.importers.erase name else v.importers
          imports := if a ∈ g.importersOf name then v.imports.erase name else v.imports } := by
  cases hv : g.vertices.find? name with
  | none =>
    by_cases ha : a = name
    · simp [remove, hv, ha]
    · simp [remove, hv, ha, importsOf, importersOf]
  | some v =>
    by_cases ha : a = name
    · simp [remove, hv, ha, find_forgetImport, find_forgetImporter, SortedMap.find_erase]
    · cases hw : g.vertices.find? a <;> by_cases hi : a ∈ v.imports.toList <;>
        by_cases hj : a ∈ v.importers.toList <;>
        simp [remove, hv, ha, hw, hi, hj, importsOf, importersOf, find_forgetImport,
          find_forgetImporter, SortedMap.find_erase]

theorem classOf_remove (a : String) :
    (g.remove name).1.classOf? a = if a = name then none else g.classOf? a := by
  rw [classOf?, classOf?, find_remove]
  by_cases ha : a = name <;> cases hv : g.vertices.find? a <;> simp [ha]

/-- A removed class takes every link with it that touches it. -/
theorem mem_importsOf_remove (h : g.WellFormed) (a b : String) :
    b ∈ (g.remove name).1.importsOf a ↔ b ∈ g.importsOf a ∧ a ≠ name ∧ b ≠ name := by
  have hm : name ∈ g.importsOf a ↔ a ∈ g.importersOf name := h.mirrored a name
  by_cases ha : a = name
  · simp [mem_importsOf, find_remove, ha]
  · cases hv : g.vertices.find? a with
    | none => simp [mem_importsOf, find_remove, hv]
    | some v =>
      by_cases hi : a ∈ g.importersOf name
      · simp [mem_importsOf, find_remove, hv, ha, hi, SortedSet.contains_erase, and_comm]
      · -- The name is no import of `a`, so there is nothing to erase.
        have hn : v.imports.contains name = false := by
          simpa [mem_importsOf, hv] using fun hc => hi (hm.mp hc)
        rw [mem_importsOf, mem_importsOf, find_remove]
        simp only [hv, ha, hi, if_false, Option.map_some, Option.some.injEq, exists_eq_left']
        constructor
        · intro hb
          refine ⟨hb, ha, ?_⟩
          rintro rfl
          simp [hn] at hb
        · exact fun hb => hb.1

theorem mem_importersOf_remove (h : g.WellFormed) (a b : String) :
    a ∈ (g.remove name).1.importersOf b ↔ a ∈ g.importersOf b ∧ a ≠ name ∧ b ≠ name := by
  have hm : b ∈ g.importsOf name ↔ name ∈ g.importersOf b := h.mirrored name b
  by_cases hb : b = name
  · simp [mem_importersOf, find_remove, hb]
  · cases hv : g.vertices.find? b with
    | none => simp [mem_importersOf, find_remove, hv]
    | some v =>
      by_cases hi : b ∈ g.importsOf name
      · simp [mem_importersOf, find_remove, hv, hb, hi, SortedSet.contains_erase, and_comm]
      · have hn : v.importers.contains name = false := by
          simpa [mem_importersOf, hv] using fun hc => hi (hm.mpr hc)
        rw [mem_importersOf, mem_importersOf, find_remove]
        simp only [hv, hb, hi, if_false, Option.map_some, Option.some.injEq, exists_eq_left']
        constructor
        · intro ha
          refine ⟨ha, ?_, hb⟩
          rintro rfl
          simp [hn] at ha
        · exact fun ha => ha.1

theorem wellFormed_remove (h : g.WellFormed) : (g.remove name).1.WellFormed where
  named a c hc := by
    rw [classOf_remove] at hc
    split at hc
    · cases hc
    · exact h.named a c hc
  mirrored a b := by
    rw [mem_importsOf_remove g name h, mem_importersOf_remove g name h, h.mirrored]
  noLoop a ha := h.noLoop a ((mem_importsOf_remove g name h a a).mp ha).1

end Remove

/-! The vertices stand in the order of their names, whatever is done to the graph. -/

section Order

variable (g : ImportGraph) (h : g.vertices.Sorted)
include h

theorem sorted_add (c : JvmClass) (token : Option Nat) : (g.add c token).1.vertices.Sorted := by
  rw [add]
  split
  · exact SortedMap.sorted_insert _ _ _ h
  · split
    · exact h
    · exact SortedMap.sorted_foldl_modify _ _ _ (SortedMap.sorted_insert _ _ _ h)

theorem sorted_link (source target : String) : (g.link source target).1.vertices.Sorted := by
  rw [link]
  split
  · exact h
  · exact SortedMap.sorted_modify _ _ _ (SortedMap.sorted_modify _ _ _ h)

theorem sorted_remove (name : String) : (g.remove name).1.vertices.Sorted := by
  rw [remove]
  split
  · exact h
  · exact SortedMap.sorted_foldl_modify _ _ _
      (SortedMap.sorted_foldl_modify _ _ _ (SortedMap.sorted_erase _ _ h))

end Order

end Retest.ImportGraph
