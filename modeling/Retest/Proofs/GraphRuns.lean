import Mathlib.Data.List.Induction
import Retest.Proofs.ImportGraph

namespace Retest.ImportGraph
open Std

inductive Call where
  | add (c : JvmClass) (token : Option Nat)
  | link (source target : String)
  | remove (name : String)
  | clear
  deriving DecidableEq

def after (g : ImportGraph) : Call → ImportGraph
  | .add c token => (g.add c token).1
  | .link source target => (g.link source target).1
  | .remove name => (g.remove name).1
  | .clear => .empty

def ofCalls (calls : List Call) : ImportGraph := calls.foldl after .empty

variable {g : ImportGraph}

theorem add_of_has (c : JvmClass) (token : Option Nat) (h : g.Has c token) :
    g.add c token = (g, .unchanged) := by
  obtain ⟨v, hv, hheld⟩ := h
  rw [Option.mem_def] at hv
  simp only [add, hv, hheld, if_true]

theorem change_of_absent (c : JvmClass) (token : Option Nat) (h : g.contains c.name = false) :
    (g.add c token).2 = .added := by
  have hv : g.vertices.find? c.name = none := by
    simpa [contains, SortedMap.contains] using h
  simp only [add, hv]

theorem change_of_replaced (c : JvmClass) (token : Option Nat) (h : g.contains c.name = true)
    (hnew : ¬g.Has c token) : (g.add c token).2 = .reset := by
  obtain ⟨v, hv⟩ := Option.isSome_iff_exists.mp h
  have hheld : Vertex.holds v token = false := by
    rw [← Bool.not_eq_true]
    exact fun hh => hnew ⟨v, hv, hh⟩
  simp [add, hv, hheld]

theorem not_has_of_absent (c : JvmClass) (token : Option Nat) (h : g.contains c.name = false) :
    ¬g.Has c token := by
  rintro ⟨v, hv, -⟩
  rw [Option.mem_def] at hv
  simp [contains, SortedMap.contains, hv] at h

theorem not_mem_importsOf_of_absent (a b : String) (h : g.contains a = false) :
    b ∉ g.importsOf a := by
  intro hb
  rw [contains_of_mem_importsOf g a b hb] at h
  cases h

theorem link_eq_true_iff (source target : String) :
    (g.link source target).2 = true ↔ g.Linkable source target := by
  unfold Linkable link
  by_cases hne : source = target
  · simp [hne]
  · cases hs : g.contains source <;> cases ht : g.contains target <;> simp [hne]

theorem remove_snd (name : String) : (g.remove name).2 = g.classOf? name := by
  unfold remove classOf?
  cases g.vertices.find? name <;> rfl

theorem wellFormed_after (h : g.WellFormed) (call : Call) : (g.after call).WellFormed := by
  cases call with
  | add c token =>
    by_cases hc : g.Has c token
    · rw [after, add_of_has c token hc]
      exact h
    · exact wellFormed_add g c hc h
  | link source target => exact wellFormed_link g source target h
  | remove name => exact wellFormed_remove g name h
  | clear => exact wellFormed_empty

theorem wellFormed_ofCalls (calls : List Call) : (ofCalls calls).WellFormed := by
  induction calls using List.reverseRecOn with
  | nil => exact wellFormed_empty
  | append_singleton calls call ih =>
    rw [ofCalls, List.foldl_append]
    exact wellFormed_after ih call

/-- What each call answers, which links it makes and cuts, and which classes stand afterwards. A
link goes from a class to one that it imports. -/
structure Lawful (g : ImportGraph) : Prop where
  added : ∀ c token, g.contains c.name = false →
    (g.add c token).2 = .added ∧ ∀ a b, b ∈ (g.add c token).1.importsOf a ↔ b ∈ g.importsOf a
  unchanged : ∀ c token, g.Has c token → g.add c token = (g, .unchanged)
  reset : ∀ c token, g.contains c.name = true → ¬g.Has c token →
    (g.add c token).2 = .reset ∧
      ∀ a b, b ∈ (g.add c token).1.importsOf a ↔ b ∈ g.importsOf a ∧ a ≠ c.name
  stored : ∀ c token, ¬g.Has c token →
    ∀ a, (g.add c token).1.classOf? a = if a = c.name then some c else g.classOf? a
  linked : ∀ source target,
    ((g.link source target).2 = true ↔ g.Linkable source target) ∧
      (∀ a b, b ∈ (g.link source target).1.importsOf a ↔
        b ∈ g.importsOf a ∨ a = source ∧ b = target ∧ g.Linkable source target) ∧
      ∀ a, (g.link source target).1.classOf? a = g.classOf? a
  removed : ∀ name,
    (g.remove name).2 = g.classOf? name ∧
      (∀ a b, b ∈ (g.remove name).1.importsOf a ↔ b ∈ g.importsOf a ∧ a ≠ name ∧ b ≠ name) ∧
      ∀ a, (g.remove name).1.classOf? a = if a = name then none else g.classOf? a

theorem lawful_of_wellFormed (h : g.WellFormed) : g.Lawful where
  added c token hc := by
    refine ⟨change_of_absent c token hc, ?_⟩
    intro a b
    rw [mem_importsOf_add g c (not_has_of_absent c token hc)]
    refine ⟨And.right, ?_⟩
    intro hb
    -- The class was no vertex, so it is not the one that imports.
    refine ⟨?_, hb⟩
    rintro rfl
    exact not_mem_importsOf_of_absent c.name b hc hb
  unchanged c token hc := add_of_has c token hc
  reset c token hc hnew := by
    refine ⟨change_of_replaced c token hc hnew, ?_⟩
    intro a b
    rw [mem_importsOf_add g c hnew]
    exact and_comm
  stored c token hnew := classOf_add g c hnew
  linked source target :=
    ⟨link_eq_true_iff source target, mem_importsOf_link g source target,
      classOf_link g source target⟩
  removed name := ⟨remove_snd name, mem_importsOf_remove g name h, classOf_remove g name⟩

/-- After any calls on an empty graph the two records of each link agree, a link has vertices at
both ends and does not lead back to its start, each vertex stands under the name of its class, and
every further call changes the links by its law. -/
theorem calls_keep_links_paired (calls : List Call) :
    (∀ p c, p ∈ (ofCalls calls).importersOf c ↔ c ∈ (ofCalls calls).importsOf p) ∧
      (∀ p c, c ∈ (ofCalls calls).importsOf p →
        (ofCalls calls).contains p = true ∧ (ofCalls calls).contains c = true) ∧
      (∀ a, a ∉ (ofCalls calls).importsOf a ∧ a ∉ (ofCalls calls).importersOf a) ∧
      (∀ a d, (ofCalls calls).classOf? a = some d → d.name = a) ∧
      (ofCalls calls).Lawful := by
  have h := wellFormed_ofCalls calls
  refine ⟨?_, ?_, ?_, h.named, lawful_of_wellFormed h⟩
  · intro p c
    exact (h.mirrored p c).symm
  · intro p c hc
    have hp : p ∈ (ofCalls calls).importersOf c := (h.mirrored p c).mp hc
    exact ⟨contains_of_mem_importsOf _ p c hc, contains_of_mem_importersOf _ c p hp⟩
  · intro a
    have ha := h.noLoop a
    exact ⟨ha, fun hb => ha ((h.mirrored a a).mpr hb)⟩

def importChain : List Call :=
  [.add { name := "Test" } (some 0), .add { name := "Hello" } (some 1),
    .add { name := "World" } (some 2), .link "Test" "Hello", .link "Hello" "World"]

/-- A new value for the class in the middle of a chain cuts the link behind it, and not the one
before it. -/
theorem replaced_class_keeps_importer :
    "Hello" ∈ (ofCalls importChain).importersOf "World" ∧
      "Test" ∈ (ofCalls (importChain ++ [.add { name := "Hello" } (some 3)])).importersOf "Hello" ∧
      "Hello" ∉
        (ofCalls (importChain ++ [.add { name := "Hello" } (some 3)])).importersOf "World" :=
    by
  obtain ⟨hpaired, -, -, -, hlaws⟩ := calls_keep_links_paired importChain
  have hpaired' := (calls_keep_links_paired (importChain ++ [.add { name := "Hello" } (some 3)])).1
  have hhello : (ofCalls importChain).contains "Hello" = true := by decide +kernel
  have hnew : ¬(ofCalls importChain).Has { name := "Hello" } (some 3) := by decide +kernel
  have hreset := (hlaws.reset { name := "Hello" } (some 3) hhello hnew).2
  refine ⟨(hpaired _ _).mpr (by decide +kernel), ?_, ?_⟩
  · rw [hpaired']
    exact (hreset "Test" "Hello").mpr ⟨by decide +kernel, by decide⟩
  · rw [hpaired']
    intro hmem
    exact ((hreset "Hello" "World").mp hmem).2 rfl

end Retest.ImportGraph
