import Mathlib.Data.List.Induction
import Retest.ClassFile.Roots
import Retest.Proofs.CatalogUpdate

/-! Runs of updates. An update links the classes of the listed files only, so the links of the
others last just as long as no update takes away what they import. -/

namespace Retest
open Std

theorem noLoop_ofImports (name : String) (imports : List String) (isTest : Bool)
    (file : Option Path) : name ∉ (JvmClass.ofImports name imports isTest file).imports.toList := by
  intro h
  rw [← SortedSet.contains_iff_mem] at h
  obtain ⟨i, hi, hname⟩ := (SortedSet.contains_ofList _ _).mp h
  have hne := (List.mem_filter.mp hi).2
  rw [← LawfulEqOrd.eq_of_compare hname] at hne
  simp at hne

theorem noLoop_parseFile (tree : FileTree) (p : Path) :
    (ClassFile.parseFile tree p).name ∉ (ClassFile.parseFile tree p).imports.toList := by
  rw [ClassFile.parseFile]
  cases tree.read p with
  | error e => exact List.not_mem_nil
  | ok bytes =>
    simp only [ClassFile.decode]
    cases ClassFile.readHeader ⟨bytes, 0⟩ with
    | error e => exact List.not_mem_nil
    | ok r => exact noLoop_ofImports r.1.name _ _ _

theorem name_resolve (tree : FileTree) (roots : List Path) (name : String) :
    (ClassFile.resolve tree roots name).name = name := by
  rw [ClassFile.resolve]
  cases ClassFile.locate tree roots name with
  | none => rfl
  | some p =>
    simp only
    split
    · next h => simpa using (Bool.and_eq_true_iff.mp h).2
    · rfl

def IndexCall.ofTree (tree : FileTree) (roots files : List Path) : IndexCall where
  source := ClassFile.source tree roots
  present := tree.pathExists
  files
  parse_noLoop := noLoop_parseFile tree
  resolve_name := name_resolve tree roots

def IndexCall.ofHoldings (held : List (Path × JvmClass))
    (h : ∀ e ∈ held, e.2.name ∉ e.2.imports.toList) (files : List Path) : IndexCall where
  source :=
    { parse := fun p => ((held.find? fun e => e.1.same p).map (·.2)).getD (.unparsable p)
      resolve := .placeholder }
  present p := held.any fun e => e.1.same p
  files
  parse_noLoop p := by
    cases hf : held.find? fun e => e.1.same p with
    | none => simp [hf, JvmClass.unparsable, SortedSet.empty]
    | some e =>
      simp only [hf]
      exact h e (List.mem_of_find?_eq_some hf)
  resolve_name n := rfl

section Parts

variable {α : Type}

/-- Something holds after every part of a run just when each step keeps it. -/
theorem forall_parts_iff (P : List α → Prop) (R : List α → α → Prop) (l : List α) (hnil : P [])
    (hstep : ∀ done m, P done → (P (done ++ [m]) ↔ R done m)) :
    (∀ done, done <+: l → P done) ↔ ∀ done m, done ++ [m] <+: l → R done m := by
  have hpart (done : List α) (m : α) (h : done ++ [m] <+: l) : done <+: l :=
    (List.prefix_append done [m]).trans h
  constructor
  · intro h done m hm
    exact (hstep done m (h done (hpart done m hm))).mp (h _ hm)
  · intro h done
    induction done using List.reverseRecOn with
    | nil => exact fun _ => hnil
    | append_singleton done m ih =>
      intro hm
      exact (hstep done m (ih (hpart done m hm))).mpr (h done m hm)

/-- What holds of both steps of a pair holds throughout the run. -/
theorem forall_steps_pair (P : List α → α → Prop) (k l : α) (hk : P [] k) (hl : P [k] l)
    (done : List α) (m : α) (h : done ++ [m] <+: [k, l]) : P done m := by
  obtain ⟨rest, hrest⟩ := h
  match done with
  | [] =>
    obtain ⟨rfl, -⟩ := List.cons.inj hrest
    exact hk
  | [_] =>
    obtain ⟨rfl, htail⟩ := List.cons.inj hrest
    obtain ⟨rfl, -⟩ := List.cons.inj htail
    exact hl
  | _ :: _ :: done =>
    have hlen := congrArg List.length hrest
    simp only [List.length_append, List.length_cons, List.length_nil] at hlen
    omega

end Parts

namespace Catalog

def ofCalls (calls : List IndexCall) : Catalog := calls.foldl index .empty

def Linked (c : Catalog) : Prop :=
  ∀ a cls, c.graph.classOf? a = some cls → cls.isLocated = true → ∀ b ∈ cls.imports.toList,
    c.graph.contains b = true ∧ a ∈ c.graph.importersOf b

def Spares (c : Catalog) (k : IndexCall) : Prop :=
  ∀ a cls, (c.index k).graph.classOf? a = some cls → cls.isLocated = true →
    k.found.find? a = none → ∀ b ∈ cls.imports.toList,
      (c.noted k).graph.contains a = true ∧ (c.noted k).graph.contains b = true

theorem ofCalls_append (calls : List IndexCall) (k : IndexCall) :
    ofCalls (calls ++ [k]) = (ofCalls calls).index k := by
  simp [ofCalls]

theorem wellFormed_ofCalls (calls : List IndexCall) : (ofCalls calls).graph.WellFormed := by
  induction calls using List.reverseRecOn with
  | nil => exact ImportGraph.wellFormed_empty
  | append_singleton calls k ih =>
    rw [ofCalls_append]
    exact wellFormed_index _ k ih

theorem sorted_ofCalls (calls : List IndexCall) : (ofCalls calls).graph.vertices.Sorted := by
  induction calls using List.reverseRecOn with
  | nil => exact SortedMap.sorted_empty
  | append_singleton calls k ih =>
    rw [ofCalls_append]
    exact sorted_index _ k ih

theorem linked_empty : Catalog.empty.Linked := by
  intro a cls h
  cases h

/-- One call keeps the links just when it spares what it does not list. -/
theorem linked_index_iff (c : Catalog) (k : IndexCall) (hwf : c.graph.WellFormed)
    (h : c.Linked) : (c.index k).Linked ↔ c.Spares k := by
  classical
  have hmirror := (wellFormed_index c k hwf).mirrored
  have hnoted := restricts_noted c k hwf
  constructor
  · intro hlinked a cls hcls hloc hnone b hb
    have hedge := (hmirror a b).mpr (hlinked a cls hcls hloc b hb).2
    -- The class was not read, so its link is one that was there before.
    rcases (mem_importsOf_index c k a b).mp hedge with ⟨d, hd, -⟩ | ⟨-, hold⟩
    · rw [hnone] at hd
      cases hd
    · exact ((hnoted.links a b).mp hold).2
  · intro hspares a cls hcls hloc b hb
    have hedge : b ∈ (c.index k).graph.importsOf a := by
      rw [mem_importsOf_index]
      cases hf : k.found.find? a with
      | some d =>
        rw [classOf_index, hf] at hcls
        exact Or.inl ⟨d, rfl, by simpa using (Option.some.inj hcls) ▸ hb⟩
      | none =>
        obtain ⟨ha, hb'⟩ := hspares a cls hcls hloc hf b hb
        obtain ⟨d, hd⟩ := (ImportGraph.contains_iff _ a).mp ha
        rw [classOf_index, hf, hd] at hcls
        have hold : c.graph.classOf? a = some cls := by
          rw [← Option.some.inj hcls]
          exact hnoted.classes a d hd
        refine Or.inr ⟨rfl, (hnoted.links a b).mpr ⟨?_, ha, hb'⟩⟩
        exact (hwf.mirrored a b).mpr (h a cls hold hloc b hb).2
    have himp := (hmirror a b).mp hedge
    exact ⟨ImportGraph.contains_of_mem_importersOf _ b a himp, himp⟩

/-- The links are complete after every call of a run just when every call spares what it does not
list. -/
theorem linked_ofCalls_iff (calls : List IndexCall) :
    (∀ done, done <+: calls → (ofCalls done).Linked) ↔
      ∀ done k, done ++ [k] <+: calls → (ofCalls done).Spares k := by
  apply forall_parts_iff (fun done => (ofCalls done).Linked) _ calls linked_empty
  intro done k h
  rw [ofCalls_append]
  exact linked_index_iff _ k (wellFormed_ofCalls done) h

end Catalog

end Retest
