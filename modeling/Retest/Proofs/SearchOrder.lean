import Retest.Proofs.Dependents
import Retest.Proofs.GraphRuns

/-! The reverse search in whatever order it goes. A search keeps a stack of names; it may take the
seeds and the importers of a vertex in any order, and it may meet a name often. It ends all the
same, and always with the same classes. -/

namespace Retest

namespace SortedMap
open Std

universe u v

variable {κ : Type u} {α : Type v} [Ord κ] [TransOrd κ] [LawfulEqOrd κ]

omit [TransOrd κ] in
/-- Leaving out some keys leaves out what stands under them. -/
theorem find_filter_key (m : SortedMap κ α) (p : κ → Bool) (k : κ) :
    (m.filter fun j _ => p j).find? k = if p k then m.find? k else none := by
  obtain ⟨l⟩ := m
  change lookup k (l.filter fun e => p e.1) = if p k then lookup k l else none
  induction l with
  | nil => simp [lookup]
  | cons e l ih =>
    obtain ⟨j, a⟩ := e
    by_cases hk : k = j
    · subst hk
      cases hp : p k with
      | false => simpa [hp] using ih
      | true => simp [hp, lookup]
    · cases hp : p j with
      | false => simp [hp, ih, lookup, hk]
      | true => simp [hp, ih, lookup, hk]

/-- Maps that answer alike list the same entries in the same order. -/
theorem ext_find (m n : SortedMap κ α) (hm : m.Sorted) (hn : n.Sorted)
    (h : ∀ k, m.find? k = n.find? k) : m = n := by
  have hnodup (m : SortedMap κ α) (hm : m.Sorted) : m.entries.Nodup :=
    hm.imp fun hlt heq => by
      rw [heq, ReflOrd.compare_self] at hlt
      cases hlt
  have hperm : m.entries.Perm n.entries := by
    rw [List.perm_ext_iff_of_nodup (hnodup m hm) (hnodup n hn)]
    rintro ⟨k, a⟩
    rw [mem_entries_iff m k a hm, mem_entries_iff n k a hn, h]
  -- The keys ascend on both sides, which leaves one order for the members they share.
  have hentries : m.entries = n.entries := by
    refine List.Perm.eq_of_pairwise ?_ hm hn hperm
    intro e f _ _ hef hfe
    rw [OrientedCmp.gt_of_lt hfe] at hef
    cases hef
  cases m
  cases n
  exact congrArg SortedMap.mk hentries

end SortedMap

namespace ImportGraph
open Std

/-- A search halfway: the classes found so far, and the names still to look at, the next one
first. -/
structure Search where
  found : SortedMap String JvmClass
  stack : List String

def unvisited (g : ImportGraph) (found : SortedMap String JvmClass) : SortedMap String Vertex :=
  g.vertices.filter fun n _ => !found.contains n

variable {g : ImportGraph}

theorem find_unvisited (found : SortedMap String JvmClass) (n : String) :
    (g.unvisited found).find? n = if found.contains n then none else g.vertices.find? n := by
  rw [unvisited, SortedMap.find_filter_key]
  cases found.contains n <;> rfl

theorem unvisited_insert (found : SortedMap String JvmClass) (name : String) (c : JvmClass) :
    g.unvisited (found.insert name c) = (g.unvisited found).erase name := by
  simp only [unvisited, SortedMap.filter, SortedMap.erase, List.filter_filter]
  congr 1
  refine List.filter_congr fun e _ => ?_
  by_cases he : e.1 = name
  · simp [SortedMap.contains, SortedMap.find_insert, he]
  · simp [SortedMap.contains, SortedMap.find_insert, he, Ne.symm he]

/-- What a change to a class reaches is what imports the class, directly or through others. -/
theorem affects_iff (hg : g.WellFormed) (a b : String) :
    g.Affects a b ↔ Relation.ReflTransGen (fun x y => y ∈ g.importsOf x) b a := by
  have hswap : (fun x y => y ∈ g.importersOf x) = Function.swap fun x y => y ∈ g.importsOf x := by
    funext x y
    exact propext (hg.mirrored y x).symm
  rw [Affects, hswap, Relation.reflTransGen_swap]

/-- Names on the work list can be left out or moved, if those left out are found. -/
theorem Explored.rework {unvisited : SortedMap String Vertex} {found : SortedMap String JvmClass}
    {work work' : List String} (h : Explored g unvisited found work)
    (hw : ∀ n ∈ work, found.contains n = true ∨ n ∈ work') : Explored g unvisited found work' where
  divided := h.divided
  classes := h.classes
  closed n m hn hm := (h.closed n m hn hm).elim Or.inl (hw m)

namespace Search

def start (g : ImportGraph) (seeds : List String) : Search := ⟨.empty, seeds.filter g.contains⟩

/-- One step of a search. The next name is dropped if it was found before or has no vertex.
Otherwise its class is found, and its importers come onto the stack in any order, without those that
are found. -/
inductive Step (g : ImportGraph) : Search → Search → Prop
  | drops (found : SortedMap String JvmClass) (name : String) (stack : List String)
    (h : found.contains name = true ∨ g.vertices.find? name = none) :
    Step g ⟨found, name :: stack⟩ ⟨found, stack⟩
  | finds (found : SortedMap String JvmClass) (name : String) (stack : List String) (v : Vertex)
    (importers : List String) (hnew : found.contains name = false)
    (hv : g.vertices.find? name = some v) (hi : importers.Perm v.importers.toList) :
    Step g ⟨found, name :: stack⟩ ⟨found.insert name v.jvmClass,
      (importers.filter fun n => !(found.insert name v.jvmClass).contains n) ++ stack⟩

def toDo (g : ImportGraph) (s : Search) : Nat := s.stack.length + workLeft (g.unvisited s.found)

variable {s t : Search} {seeds : List String}

/-- A vertex that is found pays for the importers that come onto the stack. -/
theorem Step.toDo_lt (h : Step g s t) : t.toDo g < s.toDo g := by
  cases h with
  | drops found name stack => exact Nat.add_lt_add_right (Nat.lt_succ_self stack.length) _
  | finds found name stack v importers hnew hv hi =>
    have hpaid := workLeft_erase (g.unvisited found) name v (by simp [find_unvisited, hnew, hv])
    have hmore : (importers.filter fun n =>
        !(found.insert name v.jvmClass).contains n).length ≤ v.importers.size := by
      rw [SortedSet.size, ← hi.length_eq]
      exact List.length_filter_le _ importers
    simp only [toDo, unvisited_insert, List.length_append, List.length_cons]
    omega

/-- No search goes on for ever. -/
theorem terminates (g : ImportGraph) (s : Search) : Acc (fun t s => Step g s t) s := by
  have hwf : WellFounded fun t s => Step g s t :=
    Subrelation.wf (fun h => h.toDo_lt) (measure (toDo g)).wf
  exact hwf.apply s

/-- So every search can be brought to its end. -/
theorem exists_last (g : ImportGraph) (s : Search) :
    ∃ t, Relation.ReflTransGen (Step g) s t ∧ ∀ u, ¬Step g t u := by
  induction terminates g s with
  | intro s _ ih =>
    by_cases hs : ∃ t, Step g s t
    · obtain ⟨t, ht⟩ := hs
      obtain ⟨u, hu, hlast⟩ := ih t ht
      exact ⟨u, hu.head ht, hlast⟩
    · exact ⟨s, Relation.ReflTransGen.refl, fun t ht => hs ⟨t, ht⟩⟩

/-- A search goes on as long as there is a name to look at. -/
theorem stack_eq_nil (h : ∀ t, ¬Step g s t) : s.stack = [] := by
  obtain ⟨found, stack⟩ := s
  cases stack with
  | nil => rfl
  | cons name stack =>
    exfalso
    cases hf : found.contains name with
    | true => exact h _ (.drops found name stack (Or.inl hf))
    | false =>
      cases hv : g.vertices.find? name with
      | none => exact h _ (.drops found name stack (Or.inr hv))
      | some v => exact h _ (.finds found name stack v v.importers.toList hf hv (List.Perm.refl _))

/-- What is true of a search for some seeds at any time. What it has met is reached from a seed in
the graph, and no such seed is lost. -/
structure OnTrack (g : ImportGraph) (seeds : List String) (s : Search) : Prop where
  explored : Explored g (g.unvisited s.found) s.found s.stack
  sorted : s.found.Sorted
  reached : ∀ n, s.found.contains n = true ∨ n ∈ s.stack →
    ∃ a ∈ seeds, g.contains a = true ∧ g.Affects a n
  kept : ∀ a ∈ seeds, g.contains a = true → s.found.contains a = true ∨ a ∈ s.stack

theorem onTrack_start (g : ImportGraph) (seeds order : List String)
    (h : ∀ n, n ∈ order ↔ n ∈ seeds) : OnTrack g seeds (start g order) where
  explored := by
    refine ⟨find_unvisited _, fun n c hc => ?_, fun n m hn => ?_⟩
    · cases hc
    · cases hn
  sorted := SortedMap.sorted_empty
  reached n hn := by
    obtain ⟨hmem, hc⟩ := List.mem_filter.mp (hn.resolve_left Bool.false_ne_true)
    exact ⟨n, (h n).mp hmem, hc, Relation.ReflTransGen.refl⟩
  kept a ha hc := Or.inr (List.mem_filter.mpr ⟨(h a).mpr ha, hc⟩)

/-- Each step keeps a search on its track. -/
theorem Step.onTrack (hg : g.WellFormed) (h : Step g s t) (hs : OnTrack g seeds s) :
    OnTrack g seeds t := by
  cases h with
  | drops found name stack hdrop =>
    have hnone : (g.unvisited found).find? name = none := by
      rw [find_unvisited]
      rcases hdrop with hf | hv
      · rw [if_pos hf]
      · rw [hv, ite_self]
    refine ⟨explored_skip hg hs.explored hnone, hs.sorted, ?_, ?_⟩
    · intro n hn
      exact hs.reached n (hn.imp id (List.mem_cons_of_mem name))
    · intro a ha hc
      rcases hs.kept a ha hc with hf | hw
      · exact Or.inl hf
      · rcases List.mem_cons.mp hw with rfl | hw
        · -- A seed that is dropped has a vertex, so it was found.
          refine Or.inl (hdrop.resolve_right fun hv => ?_)
          simp [contains, SortedMap.contains, hv] at hc
        · exact Or.inr hw
  | finds found name stack v importers hnew hv hi =>
    have hunvisited : (g.unvisited found).find? name = some v := by
      simp [find_unvisited, hnew, hv]
    have hfound (n : String) : (found.insert name v.jvmClass).contains n = true ↔
        n = name ∨ found.contains n = true := by
      rw [SortedMap.contains_insert, LawfulEqOrd.compare_eq_iff_eq]
    refine ⟨?_, SortedMap.sorted_insert found name _ hs.sorted, ?_, ?_⟩
    · -- The importers that do not come onto the stack are found, so no edge is forgotten.
      rw [unvisited_insert]
      refine (explored_step hs.explored v hunvisited).rework fun n hn => ?_
      rcases List.mem_append.mp hn with hn | hn
      · cases hf : (found.insert name v.jvmClass).contains n with
        | true => exact Or.inl rfl
        | false =>
          refine Or.inr (List.mem_append_left stack (List.mem_filter.mpr ⟨hi.mem_iff.mpr hn, ?_⟩))
          rw [hf]
          rfl
      · exact Or.inr (List.mem_append_right _ hn)
    · -- The name is reached from a seed, and so are its importers.
      obtain ⟨a, ha, hc, hreach⟩ := hs.reached name (Or.inr List.mem_cons_self)
      rintro n (hn | hn)
      · rcases (hfound n).mp hn with rfl | hn
        · exact ⟨a, ha, hc, hreach⟩
        · exact hs.reached n (Or.inl hn)
      · rcases List.mem_append.mp hn with hn | hn
        · have himports : n ∈ g.importersOf name := by
            simpa [importersOf, hv] using hi.mem_iff.mp (List.mem_filter.mp hn).1
          exact ⟨a, ha, hc, hreach.tail himports⟩
        · exact hs.reached n (Or.inr (List.mem_cons_of_mem name hn))
    · intro a ha hc
      rcases hs.kept a ha hc with hf | hw
      · exact Or.inl ((hfound a).mpr (Or.inr hf))
      · rcases List.mem_cons.mp hw with rfl | hw
        · exact Or.inl ((hfound a).mpr (Or.inl rfl))
        · exact Or.inr (List.mem_append_right _ hw)

theorem onTrack_steps (hg : g.WellFormed) (h : Relation.ReflTransGen (Step g) s t)
    (hs : OnTrack g seeds s) : OnTrack g seeds t := by
  induction h with
  | refl => exact hs
  | tail _ hstep ih => exact hstep.onTrack hg ih

/-- With nothing left to look at, exactly what a seed in the graph reaches is found. -/
theorem OnTrack.contains_iff (h : OnTrack g seeds s) (hend : s.stack = []) (n : String) :
    s.found.contains n = true ↔ ∃ a ∈ seeds, g.contains a = true ∧ g.Affects a n := by
  refine ⟨fun hn => h.reached n (Or.inl hn), ?_⟩
  rintro ⟨a, ha, hc, hreach⟩
  have hdone (m : String) : m ∉ s.stack := by
    rw [hend]
    exact List.not_mem_nil
  -- Along the path from the seed: with an empty stack the importers of what is found are found.
  induction hreach with
  | refl => exact (h.kept a ha hc).resolve_right (hdone a)
  | tail _ hm ih => exact (h.explored.closed _ _ ih hm).resolve_right (hdone _)

end Search

theorem find_dependents_iff (hg : g.WellFormed) (seeds : List String) (n : String) (c : JvmClass) :
    (g.dependents seeds).find? n = some c ↔ g.classOf? n = some c ∧
      ∃ a ∈ seeds, g.contains a = true ∧ g.Affects a n := by
  rw [← contains_dependents g hg seeds n, SortedMap.contains]
  constructor
  · intro hf
    exact ⟨find_dependents g hg seeds n c hf, by rw [hf]; rfl⟩
  · rintro ⟨hc, hfound⟩
    obtain ⟨d, hd⟩ := Option.isSome_iff_exists.mp hfound
    have hclass := find_dependents g hg seeds n d hd
    rw [hd, ← hclass, hc]

/-- Of the seeds in a graph made by any calls, cycles and repetitions included, the search finds
exactly the classes from which one of them is reached over imports, each with the value that its
vertex holds. Whatever the order in which the seeds come and the importers of each vertex are gone
through, the search ends, and with this result. -/
theorem search_exact (calls : List Call) (seeds : List String) :
    (∀ n c, ((ofCalls calls).dependents seeds).find? n = some c ↔
      (ofCalls calls).classOf? n = some c ∧ ∃ a ∈ seeds, (ofCalls calls).contains a = true ∧
        Relation.ReflTransGen (fun x y => y ∈ (ofCalls calls).importsOf x) n a) ∧
      ∀ order : List String, (∀ n, n ∈ order ↔ n ∈ seeds) →
        Acc (fun t s => Search.Step (ofCalls calls) s t) (Search.start (ofCalls calls) order) ∧
          ∀ s, Relation.ReflTransGen (Search.Step (ofCalls calls))
              (Search.start (ofCalls calls) order) s → (∀ t, ¬Search.Step (ofCalls calls) s t) →
            s.stack = [] ∧ s.found = (ofCalls calls).dependents seeds := by
  have hg := wellFormed_ofCalls calls
  constructor
  · intro n c
    rw [find_dependents_iff hg]
    simp only [affects_iff hg]
  · intro order horder
    refine ⟨Search.terminates _ _, ?_⟩
    intro s hs hlast
    have hstack := Search.stack_eq_nil hlast
    have htrack := Search.onTrack_steps hg hs (Search.onTrack_start _ seeds order horder)
    refine ⟨hstack, SortedMap.ext_find _ _ htrack.sorted (sorted_dependents _ seeds) fun n => ?_⟩
    have hsame : s.found.contains n = ((ofCalls calls).dependents seeds).contains n := by
      rw [Bool.eq_iff_iff, htrack.contains_iff hstack, contains_dependents _ hg]
    have hvalue (c d : JvmClass) (hc : s.found.find? n = some c)
        (hd : ((ofCalls calls).dependents seeds).find? n = some d) : c = d := by
      have hclass := htrack.explored.classes n c hc
      rw [find_dependents _ hg seeds n d hd] at hclass
      exact (Option.some.inj hclass).symm
    -- Both answer with the vertex's class or not at all.
    cases hc : s.found.find? n with
    | none =>
      cases hd : ((ofCalls calls).dependents seeds).find? n with
      | none => rfl
      | some d => simp [SortedMap.contains, hc, hd] at hsame
    | some c =>
      cases hd : ((ofCalls calls).dependents seeds).find? n with
      | none => simp [SortedMap.contains, hc, hd] at hsame
      | some d => rw [hvalue c d hc hd]

def tangled : List Call :=
  [.add { name := "A" } none, .add { name := "B" } none, .add { name := "C" } none,
    .link "A" "B", .link "B" "A", .link "C" "B"]

theorem keys_tangled :
    ((ofCalls tangled).dependents ["A", "X", "A"]).keys = ["A", "B", "C"] := by
  decide

/-- With seeds that are unknown or come again, a search in another order finds all three too. -/
theorem tangled_search_exact : ∃ s, Relation.ReflTransGen (Search.Step (ofCalls tangled))
    (Search.start (ofCalls tangled) ["X", "A"]) s ∧ (∀ t, ¬Search.Step (ofCalls tangled) s t) ∧
      s.found.keys = ["A", "B", "C"] := by
  have hsame (n : String) : n ∈ ["X", "A"] ↔ n ∈ ["A", "X", "A"] := by
    simp only [List.mem_cons, List.not_mem_nil, or_false]
    tauto
  obtain ⟨-, hends⟩ := (search_exact tangled ["A", "X", "A"]).2 ["X", "A"] hsame
  obtain ⟨s, hs, hlast⟩ := Search.exists_last (ofCalls tangled)
    (Search.start (ofCalls tangled) ["X", "A"])
  obtain ⟨-, hfound⟩ := hends s hs hlast
  refine ⟨s, hs, hlast, ?_⟩
  rw [hfound, keys_tangled]

end ImportGraph

end Retest
