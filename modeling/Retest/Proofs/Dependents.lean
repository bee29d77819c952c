import Mathlib.Logic.Relation
import Retest.Graph.Dependents
import Retest.Proofs.ImportGraph

namespace Retest.ImportGraph
open Std

/-- A change to the first class reaches the second: it is the same class, or it imports another one
that the change reaches. -/
def Affects (g : ImportGraph) : String → String → Prop :=
  Relation.ReflTransGen fun a b => b ∈ g.importersOf a

/-- Visiting a vertex pays for its importers and one step more. -/
theorem workLeft_erase (vs : SortedMap String Vertex) (name : String) (v : Vertex)
    (h : vs.find? name = some v) :
    workLeft (vs.erase name) + (v.importers.size + 1) ≤ workLeft vs := by
  obtain ⟨l⟩ := vs
  simp only [workLeft, SortedMap.values, SortedMap.erase]
  have hle (l : List (String × Vertex)) :
      ((l.filter fun e => !(compare name e.1).isEq).map (·.2)).foldr
          (fun v n => v.importers.size + 1 + n) 0 ≤
        (l.map (·.2)).foldr (fun v n => v.importers.size + 1 + n) 0 := by
    induction l with
    | nil => simp
    | cons e l ih =>
      by_cases he : compare name e.1 = .eq
      · rw [List.filter_cons_of_neg (by simp [he])]
        simp only [List.map_cons, List.foldr_cons]
        omega
      · rw [List.filter_cons_of_pos (by simp [he])]
        simp only [List.map_cons, List.foldr_cons]
        omega
  change SortedMap.lookup name l = some v at h
  induction l with
  | nil => simp [SortedMap.lookup] at h
  | cons e l ih =>
    simp only [SortedMap.lookup] at h
    split at h
    · next hn =>
      have hv : e.2 = v := Option.some.inj h
      have hl := hle l
      rw [List.filter_cons_of_neg (by simp [hn])]
      simp only [List.map_cons, List.foldr_cons, hv]
      omega
    · next hn =>
      have hl := ih h
      rw [List.filter_cons_of_pos (by simp [hn])]
      simp only [List.map_cons, List.foldr_cons]
      omega

/-- A search halfway: the vertices are either visited or still to visit, and the importers of the
visited ones are visited or on the work list. -/
structure Explored (g : ImportGraph) (unvisited : SortedMap String Vertex)
    (found : SortedMap String JvmClass) (work : List String) : Prop where
  divided : ∀ n, unvisited.find? n = if found.contains n then none else g.vertices.find? n
  classes : ∀ n c, found.find? n = some c → g.classOf? n = some c
  closed : ∀ n m, found.contains n = true → m ∈ g.importersOf n →
    found.contains m = true ∨ m ∈ work

variable {g : ImportGraph} {unvisited : SortedMap String Vertex}
  {found : SortedMap String JvmClass} {name : String} {work : List String}

theorem explored_start (g : ImportGraph) (seeds : List String) :
    Explored g g.vertices .empty seeds where
  divided n := by simp [SortedMap.contains, SortedMap.find_empty]
  classes n c h := by cases h
  closed n m h := by simp [SortedMap.contains, SortedMap.find_empty] at h

/-- A name that is visited already, or stands for no vertex, can be dropped. -/
theorem explored_skip (hg : g.WellFormed) (h : Explored g unvisited found (name :: work))
    (hn : unvisited.find? name = none) : Explored g unvisited found work where
  divided := h.divided
  classes := h.classes
  closed n m hf hm := by
    rcases h.closed n m hf hm with hm' | hm'
    · exact Or.inl hm'
    · rcases List.mem_cons.mp hm' with rfl | hm'
      · have hv : g.contains m = true :=
          contains_of_mem_importsOf g m n ((hg.mirrored m n).mpr hm)
        have hd := h.divided m
        by_cases hfm : found.contains m = true
        · exact Or.inl hfm
        · rw [hn, if_neg hfm] at hd
          simp [contains, SortedMap.contains, ← hd] at hv
      · exact Or.inr hm'

theorem explored_step (h : Explored g unvisited found (name :: work)) (v : Vertex)
    (hv : unvisited.find? name = some v) :
    Explored g (unvisited.erase name) (found.insert name v.jvmClass)
      (v.importers.toList ++ work) where
  divided n := by
    rw [SortedMap.find_erase, h.divided]
    by_cases hn : n = name <;> simp [hn, SortedMap.contains_insert]
  classes n c hc := by
    rw [SortedMap.find_insert] at hc
    split at hc
    · next hn =>
      have hd := h.divided name
      rw [hv] at hd
      split at hd
      · cases hd
      · rw [LawfulEqOrd.eq_of_compare hn, classOf?, ← hd]
        simpa using hc
    · exact h.classes n c hc
  closed n m hf hm := by
    have hd := h.divided name
    rw [hv] at hd
    split at hd
    · cases hd
    · by_cases hn : n = name
      · refine Or.inr (List.mem_append_left work ?_)
        simpa [importersOf, hn, ← hd] using hm
      · have hf' : found.contains n = true := by
          simpa [SortedMap.contains, SortedMap.find_insert, hn] using hf
        by_cases hmn : m = name
        · exact Or.inl ((SortedMap.contains_insert ..).mpr (Or.inl (by simp [hmn])))
        · rcases h.closed n m hf' hm with hm' | hm'
          · exact Or.inl ((SortedMap.contains_insert ..).mpr (Or.inr hm'))
          · have hw : m ∈ work := (List.mem_cons.mp hm').resolve_left hmn
            exact Or.inr (List.mem_append_right v.importers.toList hw)

/-- With enough fuel the search ends with nothing left on its work list. It keeps what it has found
and finds every vertex on the list. -/
theorem explored_visit (fuel : Nat) (hg : g.WellFormed) (h : Explored g unvisited found work)
    (hf : work.length + workLeft unvisited < fuel) :
    (∃ rest, Explored g rest (visit fuel unvisited found work) []) ∧
      (∀ n, found.contains n = true → (visit fuel unvisited found work).contains n = true) ∧
      ∀ n ∈ work, g.contains n = true → (visit fuel unvisited found work).contains n = true := by
  -- Each step pays for itself: it drops a name, or it takes a vertex off those not visited.
  induction fuel generalizing unvisited found work with
  | zero => omega
  | succ fuel ih =>
    cases work with
    | nil => exact ⟨⟨unvisited, h⟩, fun n hn => hn, fun n hn => absurd hn List.not_mem_nil⟩
    | cons name work =>
      simp only [List.length_cons] at hf
      cases hv : unvisited.find? name with
      | none =>
        obtain ⟨hr, hkeep, hwork⟩ := ih (explored_skip hg h hv) (by omega)
        simp only [visit, hv]
        refine ⟨hr, hkeep, ?_⟩
        intro n hn hc
        rcases List.mem_cons.mp hn with rfl | hn
        · have hd := h.divided n
          rw [hv] at hd
          split at hd
          · next hfound => exact hkeep n hfound
          · simp [contains, SortedMap.contains, ← hd] at hc
        · exact hwork n hn hc
      | some v =>
        -- The importers that come onto the list are paid for by the vertex that is taken off.
        have hpaid := workLeft_erase unvisited name v hv
        have hlen : (v.importers.toList ++ work).length + workLeft (unvisited.erase name) <
            fuel := by
          rw [List.length_append]
          change v.importers.size + work.length + workLeft (unvisited.erase name) < fuel
          omega
        obtain ⟨hr, hkeep, hwork⟩ := ih (explored_step h v hv) hlen
        simp only [visit, hv]
        refine ⟨hr, ?_, ?_⟩
        · intro n hn
          exact hkeep n ((SortedMap.contains_insert ..).mpr (Or.inr hn))
        · intro n hn hc
          rcases List.mem_cons.mp hn with rfl | hn
          · exact hkeep n ((SortedMap.contains_insert ..).mpr (Or.inl (by simp)))
          · exact hwork n (List.mem_append_right _ hn) hc

/-- Whatever holds of the found names and of the work list, and passes to importers, holds of all
that the search finds. -/
theorem visit_induction (fuel : Nat) (P : String → Prop) (hg : g.WellFormed)
    (h : Explored g unvisited found work) (hfound : ∀ n, found.contains n = true → P n)
    (hwork : ∀ n ∈ work, P n) (hstep : ∀ n m, P n → m ∈ g.importersOf n → P m) (n : String)
    (hn : (visit fuel unvisited found work).contains n = true) : P n := by
  induction fuel generalizing unvisited found work with
  | zero => exact hfound n hn
  | succ fuel ih =>
    cases work with
    | nil => exact hfound n hn
    | cons name work =>
      cases hv : unvisited.find? name with
      | none =>
        simp only [visit, hv] at hn
        exact ih (explored_skip hg h hv) hfound
          (fun m hm => hwork m (List.mem_cons_of_mem name hm)) hn
      | some v =>
        simp only [visit, hv] at hn
        refine ih (explored_step h v hv) ?_ ?_ hn
        · intro m hm
          rcases (SortedMap.contains_insert ..).mp hm with hm | hm
          · rw [LawfulEqOrd.eq_of_compare hm]
            exact hwork name List.mem_cons_self
          · exact hfound m hm
        · intro m hm
          rcases List.mem_append.mp hm with hm | hm
          · have hd := h.divided name
            rw [hv] at hd
            split at hd
            · cases hd
            · refine hstep name m (hwork name List.mem_cons_self) ?_
              simpa [importersOf, ← hd] using hm
          · exact hwork m (List.mem_cons_of_mem name hm)

/-- The search finds a class just when a change to some seed in the graph reaches it. -/
theorem contains_dependents (g : ImportGraph) (hg : g.WellFormed) (seeds : List String)
    (n : String) :
    (g.dependents seeds).contains n = true ↔
      ∃ s ∈ seeds, g.contains s = true ∧ g.Affects s n := by
  have hstart := explored_start g seeds
  obtain ⟨⟨rest, hend⟩, -, hseeds⟩ := explored_visit (visitBound g seeds) hg hstart (by
    simp only [visitBound, workLeft]
    omega)
  constructor
  · intro hn
    obtain ⟨c, hc⟩ := Option.isSome_iff_exists.mp hn
    have hv : g.contains n = true := (contains_iff g n).mpr ⟨c, hend.classes n c hc⟩
    -- A seed need not be a vertex, so the path is promised for vertices only.
    refine visit_induction (visitBound g seeds)
      (fun n => g.contains n = true → ∃ s ∈ seeds, g.contains s = true ∧ g.Affects s n)
      hg hstart ?_ ?_ ?_ n hn hv
    · intro m hm
      simp [SortedMap.contains_empty] at hm
    · intro m hm hc
      exact ⟨m, hm, hc, Relation.ReflTransGen.refl⟩
    · intro a m ih hm _
      obtain ⟨s, hs, hc, hr⟩ := ih (contains_of_mem_importersOf g a m hm)
      exact ⟨s, hs, hc, hr.tail hm⟩
  · rintro ⟨s, hs, hc, hr⟩
    induction hr with
    | refl => exact hseeds s hs hc
    | tail _ hm ih => exact (hend.closed _ _ ih hm).resolve_right List.not_mem_nil

/-- A class is found with the value that the graph holds for it. -/
theorem find_dependents (g : ImportGraph) (hg : g.WellFormed) (seeds : List String) (n : String)
    (c : JvmClass) (h : (g.dependents seeds).find? n = some c) : g.classOf? n = some c := by
  obtain ⟨⟨rest, hend⟩, -⟩ := explored_visit (visitBound g seeds) hg (explored_start g seeds) (by
    simp only [visitBound, workLeft]
    omega)
  exact hend.classes n c h

theorem sorted_dependents (g : ImportGraph) (seeds : List String) :
    (g.dependents seeds).Sorted := by
  have hvisit (fuel : Nat) (unvisited : SortedMap String Vertex) (found : SortedMap String JvmClass)
      (work : List String) (h : found.Sorted) : (visit fuel unvisited found work).Sorted := by
    induction fuel generalizing unvisited found work with
    | zero => exact h
    | succ fuel ih =>
      cases work with
      | nil => exact h
      | cons name work =>
        simp only [visit]
        split
        · exact ih _ _ _ h
        · exact ih _ _ _ (SortedMap.sorted_insert found name _ h)
  exact hvisit _ _ _ _ SortedMap.sorted_empty

end Retest.ImportGraph
