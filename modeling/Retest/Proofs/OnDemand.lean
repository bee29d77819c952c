import Retest.Proofs.UpdateEffect

/-! Imports that are resolved on demand. What a call resolves is settled before it takes anything
out of the graph, by the names in the graph and those of the listed files, guessed ones included. A
vertex that an import needs later on, and that was not resolved then, stays a bare placeholder. -/

namespace Retest

def IndexCall.Guesses (k : IndexCall) (a : String) : Prop :=
  ∃ f ∈ k.files, k.present f = true ∧ (k.source.parse f).isUnparsable = true ∧
    (k.source.parse f).name = a

namespace Catalog

variable (c : Catalog) (k : IndexCall) {a : String}

/-- Of the wanted names that no found class has, those are resolved that are new to the graph and
not guessed for an unreadable file. -/
theorem mem_missingImports_iff (hw : k.Wants a) (hf : k.found.find? a = none) :
    a ∈ (c.missingImports ((k.files.filter k.present).map fun f =>
      (f, k.source.parse f))).toList ↔ c.graph.contains a = false ∧ ¬k.Guesses a := by
  rw [mem_missingImports]
  constructor
  · intro ⟨_, hother, hnew⟩
    refine ⟨hnew, ?_⟩
    intro ⟨f, hlisted, hpresent, _, hname⟩
    have hmem : f ∈ k.files.filter k.present := List.mem_filter.mpr ⟨hlisted, hpresent⟩
    exact hother _ (List.mem_map_of_mem hmem) hname
  · intro ⟨hnew, hguess⟩
    refine ⟨?_, ?_, hnew⟩
    · obtain ⟨b, y, hy, hay⟩ := hw
      obtain ⟨-, f, hlisted, hfy⟩ := k.find_found b y hy
      obtain ⟨hpresent, hread, hparse⟩ := k.parse_of_holds f y hfy
      have hmem : f ∈ k.files.filter k.present := List.mem_filter.mpr ⟨hlisted, hpresent⟩
      have himports : a ∈ (k.source.parse f).imports.toList := by rwa [hparse]
      have hreadable : (k.source.parse f).isUnparsable = false := by rwa [hparse]
      exact ⟨_, List.mem_map_of_mem hmem, hreadable, himports⟩
    · intro e he hname
      obtain ⟨f, hmem, rfl⟩ := List.mem_map.mp he
      obtain ⟨hlisted, hpresent⟩ := List.mem_filter.mp hmem
      cases hu : (k.source.parse f).isUnparsable with
      | true => exact hguess ⟨f, hlisted, hpresent, hu, hname⟩
      | false =>
        -- A readable file of this name would make it one of the found classes.
        have hholds : k.holds f = some (k.source.parse f) := by
          rw [IndexCall.holds, if_pos ⟨hpresent, hu⟩]
        apply k.not_holds_of_lost hf f hlisted
        rw [hholds, Option.map_some, hname]

/-- A name that was no vertex, or is given up, and that no found class has: its vertex stands in for
an import. -/
theorem standIn_of_fresh {x : JvmClass} (hx : (c.index k).graph.classOf? a = some x)
    (hf : k.found.find? a = none) (hnew : c.graph.contains a = false ∨ c.GivesUp k a) :
    k.Wants a ∧ x = standIn (k.resolved c) a := by
  have hgone : ¬(c.noted k).graph.contains a = true := by
    rw [contains_noted_iff_not_givesUp]
    intro ⟨hold, hkept⟩
    cases hnew with
    | inl hno => rw [hno] at hold; cases hold
    | inr hgives => exact hkept hgives
  obtain hfound | ⟨-, hleft⟩ | ⟨-, -, hw, hstands⟩ := classOf_index_cases c k hx
  · rw [hf] at hfound
    cases hfound
  · exact absurd ((ImportGraph.contains_iff _ a).mpr ⟨x, hleft⟩) hgone
  · exact ⟨hw, hstands⟩

/-- What a call leaves for a name that was no vertex, or that it gave up, and that no returned class
has. It is the class that the name is resolved to, or a placeholder. It is the former just when the
name is new to the graph and not guessed for an unreadable file, or is resolved to a placeholder. -/
theorem resolved_on_demand_iff {x : JvmClass}
    (hx : (c.update k.source k.present k.files).1.graph.classOf? a = some x)
    (hother : (c.update k.source k.present k.files).2.contains a = false)
    (hnew : c.graph.contains a = false ∨ c.GivesUp k a) :
    (x = k.source.resolve a ∨ x = .placeholder a) ∧
      (x = k.source.resolve a ↔ c.graph.contains a = false ∧ ¬k.Guesses a ∨
        k.source.resolve a = .placeholder a) := by
  have hf : k.found.find? a = none := by
    have hfound : k.found.contains a = false := by
      rw [update_eq] at hother
      exact hother
    rwa [SortedMap.contains, Option.isSome_eq_false_iff, Option.isNone_iff_eq_none] at hfound
  obtain ⟨hw, hstands⟩ := standIn_of_fresh c k hx hf hnew
  have hmissing := mem_missingImports_iff c k hw hf
  rw [IndexCall.resolved, standIn_ofNames] at hstands
  by_cases hm : a ∈ (c.missingImports ((k.files.filter k.present).map fun f =>
      (f, k.source.parse f))).toList
  · rw [if_pos hm] at hstands
    exact ⟨Or.inl hstands, iff_of_true hstands (Or.inl (hmissing.mp hm))⟩
  · rw [if_neg hm] at hstands
    refine ⟨Or.inr hstands, ?_⟩
    rw [hstands, or_iff_right (mt hmissing.mpr hm), eq_comm]

end Catalog

namespace Demand

def importer : List UInt8 :=
  [0xCA, 0xFE, 0xBA, 0xBE, 0, 0, 0, 52, 0, 5, 1, 0, 1, 65, 7, 0, 1, 1, 0, 1, 66, 7, 0, 3,
    0, 0x21, 0, 2, 0, 0]

def imported : List UInt8 :=
  [0xCA, 0xFE, 0xBA, 0xBE, 0, 0, 0, 52, 0, 3, 1, 0, 1, 66, 7, 0, 1, 0, 0x21, 0, 2, 0, 0]

/-- The class `B` has a file in the second directory, and one in the first while it is built
there. -/
def tree (built : Bool) : FileTree :=
  ⟨.directory [("c", .directory (("A.class", .file importer default) ::
      if built then [("B.class", .file imported default)] else [])),
    ("d", .directory [("B.class", .file imported default)])], []⟩

def roots : List Path := [⟨"c"⟩, ⟨"d"⟩]

def elsewhere : JvmClass := .ofImports "B" [] false (some ⟨"d/B.class"⟩)

def alone : IndexCall := .ofTree (tree false) roots [⟨"c/A.class"⟩]

def both : List Path := [⟨"c/A.class"⟩, ⟨"c/B.class"⟩]

def filled : Catalog := Catalog.empty.index (.ofTree (tree true) roots both)

def again : IndexCall := .ofTree (tree false) roots both

end Demand

namespace Catalog

/-- An import that no call has seen before gets the class from its file. -/
theorem new_import_is_found :
    (Catalog.empty.update Demand.alone.source Demand.alone.present
        Demand.alone.files).1.graph.classOf? "B" = some Demand.elsewhere ∧
      ¬Demand.alone.Guesses "B" ∧ Demand.alone.source.resolve "B" = Demand.elsewhere := by
  have hx : (Catalog.empty.update Demand.alone.source Demand.alone.present
      Demand.alone.files).1.graph.classOf? "B" = some Demand.elsewhere := by
    decide +kernel
  have hguess : ¬Demand.alone.Guesses "B" := by
    unfold IndexCall.Guesses
    decide +kernel
  have hnew : Catalog.empty.graph.contains "B" = false := by decide +kernel
  obtain ⟨-, hiff⟩ := resolved_on_demand_iff Catalog.empty Demand.alone hx (by decide +kernel)
    (Or.inl hnew)
  exact ⟨hx, hguess, (hiff.mpr (Or.inl ⟨hnew, hguess⟩)).symm⟩

/-- The imported class loses its file and has another one elsewhere: its importer, which is listed
too, is left with a placeholder. -/
theorem evicted_import_is_not_resolved :
    ¬∀ (c : Catalog) (k : IndexCall) (a : String) (x : JvmClass),
      (c.update k.source k.present k.files).1.graph.classOf? a = some x →
        (c.update k.source k.present k.files).2.contains a = false →
          c.graph.contains a = false ∨ c.GivesUp k a → x = k.source.resolve a := by
  intro h
  have hgone : Demand.filled.GivesUp Demand.again "B" :=
    ⟨⟨"c/B.class"⟩, by decide +kernel, .ofImports "B" [] false (some ⟨"c/B.class"⟩),
      Or.inl (by decide +kernel), by decide +kernel, by decide +kernel⟩
  have hsame := h Demand.filled Demand.again "B" (.placeholder "B") (by decide +kernel)
    (by decide +kernel) (Or.inr hgone)
  have hresolve : Demand.again.source.resolve "B" = Demand.elsewhere := by decide +kernel
  rw [hresolve] at hsame
  exact absurd hsame (by decide +kernel)

end Catalog

end Retest
