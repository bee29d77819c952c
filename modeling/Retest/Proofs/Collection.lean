import Retest.Collection.SortedMap
import Retest.Collection.SortedSet

/-! What the finite maps and sets hold after each operation. Looking up needs no order of the
entries; only what ranges over all entries does. -/

namespace Retest
open Std

universe u v w

namespace SortedMap

variable {κ : Type u} {α : Type v} {β : Type w} [Ord κ]

theorem find_empty (k : κ) : (empty : SortedMap κ α).find? k = none := rfl

theorem contains_empty (k : κ) : (empty : SortedMap κ α).contains k = false := rfl

theorem mem_of_find (m : SortedMap κ α) (k : κ) (a : α) (h : m.find? k = some a) :
    ∃ j, compare k j = .eq ∧ (j, a) ∈ m.entries := by
  obtain ⟨l⟩ := m
  change lookup k l = some a at h
  induction l with
  | nil => simp [lookup] at h
  | cons e l ih =>
    simp only [lookup] at h
    split at h
    · next hk =>
      refine ⟨e.1, by simpa using hk, ?_⟩
      simp only [Option.some.injEq] at h
      simp [← h]
    · obtain ⟨j, hj, hm⟩ := ih h
      exact ⟨j, hj, List.mem_cons_of_mem e hm⟩

variable [TransOrd κ]

theorem lookup_congr (l : List (κ × α)) (j k : κ) (h : compare j k = .eq) :
    lookup j l = lookup k l := by
  induction l with
  | nil => rfl
  | cons e l ih => simp only [lookup, TransCmp.congr_left h, ih]

/-- Keys that compare as equal are one key. -/
theorem find_congr (m : SortedMap κ α) (j k : κ) (h : compare j k = .eq) :
    m.find? j = m.find? k := lookup_congr m.entries j k h

theorem lookup_insertEntry (l : List (κ × α)) (j k : κ) (a : α) :
    lookup j (insertEntry k a l) = if compare j k = .eq then some a else lookup j l := by
  induction l with
  | nil => simp [insertEntry, lookup]
  | cons e l ih =>
    obtain ⟨i, b⟩ := e
    cases hc : compare k i with
    | lt => simp [insertEntry, hc, lookup]
    | eq =>
      have hji : compare j k = compare j i := TransCmp.congr_right hc
      by_cases hj : compare j i = .eq <;> simp [insertEntry, hc, lookup, hji, hj]
    | gt =>
      by_cases hj : compare j i = .eq
      · have hk : compare j k ≠ .eq := by
          intro h
          have hji : compare j i = compare k i := TransCmp.congr_left h
          rw [hj, hc] at hji
          cases hji
        simp [insertEntry, hc, lookup, hj, hk]
      · simp [insertEntry, hc, lookup, hj, ih]

theorem find_insert (m : SortedMap κ α) (j k : κ) (a : α) :
    (m.insert k a).find? j = if compare j k = .eq then some a else m.find? j :=
  lookup_insertEntry m.entries j k a

theorem contains_insert (m : SortedMap κ α) (j k : κ) (a : α) :
    (m.insert k a).contains j = true ↔ compare j k = .eq ∨ m.contains j = true := by
  rw [contains, find_insert, contains]
  by_cases h : compare j k = .eq <;> simp [h]

theorem find_erase (m : SortedMap κ α) (j k : κ) :
    (m.erase k).find? j = if compare j k = .eq then none else m.find? j := by
  obtain ⟨l⟩ := m
  change lookup j (l.filter fun e => !(compare k e.1).isEq) =
    if compare j k = .eq then none else lookup j l
  induction l with
  | nil => simp [lookup]
  | cons e l ih =>
    by_cases hk : compare k e.1 = .eq
    · have hj : compare j k = compare j e.1 := TransCmp.congr_right hk
      rw [List.filter_cons_of_neg (by simp [hk]), ih]
      by_cases h : compare j e.1 = .eq <;> simp [lookup, hj, h]
    · rw [List.filter_cons_of_pos (by simp [hk])]
      simp only [lookup, ih]
      by_cases h : compare j k = .eq
      · have he : compare j e.1 ≠ .eq := by rwa [TransCmp.congr_left h]
        simp [h, he]
      · simp [h]

theorem find_modify (m : SortedMap κ α) (j k : κ) (f : α → α) :
    (m.modify k f).find? j = if compare j k = .eq then (m.find? j).map f else m.find? j := by
  obtain ⟨l⟩ := m
  change lookup j (l.map fun e => if (compare k e.1).isEq then (e.1, f e.2) else e) =
    if compare j k = .eq then (lookup j l).map f else lookup j l
  induction l with
  | nil => simp [lookup]
  | cons e l ih =>
    simp only [List.map_cons, lookup, ih]
    by_cases hk : compare k e.1 = .eq
    · have hj : compare j k = compare j e.1 := TransCmp.congr_right hk
      by_cases h : compare j e.1 = .eq <;> simp [hk, hj, h]
    · by_cases h : compare j k = .eq
      · have he : compare j e.1 ≠ .eq := by rwa [TransCmp.congr_left h]
        simp [hk, h, he]
      · simp [hk, h]

/-- Changing the values under several keys changes each of them once, where a second change does
nothing. -/
theorem find_foldl_modify [LawfulEqOrd κ] [DecidableEq κ] (m : SortedMap κ α) (l : List κ) (k : κ)
    (f : α → α) (hf : ∀ a, f (f a) = f a) :
    (l.foldl (fun m j => m.modify j f) m).find? k =
      if k ∈ l then (m.find? k).map f else m.find? k := by
  induction l generalizing m with
  | nil => simp
  | cons j l ih =>
    rw [List.foldl_cons, ih, find_modify]
    simp only [LawfulEqOrd.compare_eq_iff_eq]
    by_cases hk : k = j
    · have hff : f ∘ f = f := funext hf
      simp [hk, Option.map_map, hff]
    · simp [hk]

def Sorted (m : SortedMap κ α) : Prop :=
  m.entries.Pairwise fun e f => compare e.1 f.1 = .lt

omit [TransOrd κ] in
theorem sorted_empty : (empty : SortedMap κ α).Sorted := List.Pairwise.nil

omit [TransOrd κ] in
/-- An insertion leaves the old keys and adds at most its own. -/
theorem key_of_mem_insertEntry (l : List (κ × α)) (k : κ) (a : α) (e : κ × α)
    (h : e ∈ insertEntry k a l) : e.1 = k ∨ ∃ b, (e.1, b) ∈ l := by
  induction l with
  | nil =>
    simp only [insertEntry, List.mem_singleton] at h
    exact Or.inl (by rw [h])
  | cons f l ih =>
    obtain ⟨i, b⟩ := f
    simp only [insertEntry] at h
    split at h
    · simp only [List.mem_cons] at h
      rcases h with h | h | h
      · exact Or.inl (by rw [h])
      · exact Or.inr ⟨b, by simp [h]⟩
      · exact Or.inr ⟨e.2, by simp [h]⟩
    · simp only [List.mem_cons] at h
      rcases h with h | h
      · exact Or.inr ⟨b, by simp [h]⟩
      · exact Or.inr ⟨e.2, by simp [h]⟩
    · simp only [List.mem_cons] at h
      rcases h with h | h
      · exact Or.inr ⟨b, by simp [h]⟩
      · rcases ih h with h | ⟨c, h⟩
        · exact Or.inl h
        · exact Or.inr ⟨c, List.mem_cons_of_mem _ h⟩

theorem sorted_insert (m : SortedMap κ α) (k : κ) (a : α) (h : m.Sorted) :
    (m.insert k a).Sorted := by
  obtain ⟨l⟩ := m
  change List.Pairwise _ l at h
  change List.Pairwise _ (insertEntry k a l)
  induction l with
  | nil => simp [insertEntry]
  | cons e l ih =>
    obtain ⟨i, b⟩ := e
    obtain ⟨hlt, hl⟩ := List.pairwise_cons.mp h
    cases hc : compare k i with
    | lt =>
      simp only [insertEntry, hc]
      refine List.pairwise_cons.mpr ⟨?_, h⟩
      intro e he
      rcases List.mem_cons.mp he with rfl | he
      · exact hc
      · exact TransCmp.lt_trans hc (hlt e he)
    | eq =>
      simp only [insertEntry, hc]
      exact List.pairwise_cons.mpr ⟨hlt, hl⟩
    | gt =>
      simp only [insertEntry, hc]
      refine List.pairwise_cons.mpr ⟨?_, ih hl⟩
      intro e he
      rcases key_of_mem_insertEntry l k a e he with hk | ⟨c, hm⟩
      · rw [hk]
        exact OrientedCmp.lt_of_gt hc
      · exact hlt (e.1, c) hm

omit [TransOrd κ] in
theorem sorted_erase (m : SortedMap κ α) (k : κ) (h : m.Sorted) : (m.erase k).Sorted :=
  List.Pairwise.filter _ h

omit [TransOrd κ] in
theorem sorted_mapEntries (m : SortedMap κ α) (f : κ × α → κ × β) (hf : ∀ e, (f e).1 = e.1)
    (h : m.Sorted) : (⟨m.entries.map f⟩ : SortedMap κ β).Sorted := by
  refine List.pairwise_map.mpr (h.imp ?_)
  intro e e' hlt
  rwa [hf, hf]

omit [TransOrd κ] in
theorem sorted_modify (m : SortedMap κ α) (k : κ) (f : α → α) (h : m.Sorted) :
    (m.modify k f).Sorted := by
  refine sorted_mapEntries m _ ?_ h
  intro e
  split <;> rfl

omit [TransOrd κ] in
theorem sorted_foldl_modify (m : SortedMap κ α) (l : List κ) (f : α → α) (h : m.Sorted) :
    (l.foldl (fun m k => m.modify k f) m).Sorted := by
  induction l generalizing m with
  | nil => exact h
  | cons k l ih => exact ih _ (sorted_modify m k f h)

omit [TransOrd κ] in
theorem find_mapValues (m : SortedMap κ α) (f : α → β) (k : κ) :
    (m.mapValues f).find? k = (m.find? k).map f := by
  obtain ⟨l⟩ := m
  change lookup k (l.map fun e => (e.1, f e.2)) = (lookup k l).map f
  induction l with
  | nil => rfl
  | cons e l ih =>
    simp only [List.map_cons, lookup, ih]
    by_cases h : compare k e.1 = .eq <;> simp [h]

theorem find_of_mem (m : SortedMap κ α) (k : κ) (a : α) (hs : m.Sorted)
    (h : (k, a) ∈ m.entries) : m.find? k = some a := by
  obtain ⟨l⟩ := m
  change List.Pairwise _ l at hs
  change lookup k l = some a
  change (k, a) ∈ l at h
  induction l with
  | nil => simp at h
  | cons e l ih =>
    obtain ⟨hlt, hl⟩ := List.pairwise_cons.mp hs
    rcases List.mem_cons.mp h with he | he
    · simp [lookup, ← he]
    · have hne : compare k e.1 = .gt := OrientedCmp.gt_of_lt (hlt (k, a) he)
      simp [lookup, hne, ih hl he]

/-- Later pairs win, so the first pair from the back gives the value. -/
theorem find_ofList (l : List (κ × α)) (k : κ) :
    (ofList l).find? k = (l.reverse.find? fun e => (compare k e.1).isEq).map (·.2) := by
  have hfold (m : SortedMap κ α) : (l.foldl (fun m e => m.insert e.1 e.2) m).find? k =
      ((l.reverse.find? fun e => (compare k e.1).isEq).map (·.2)).or (m.find? k) := by
    induction l generalizing m with
    | nil => simp
    | cons e l ih =>
      rw [List.foldl_cons, ih, find_insert, List.reverse_cons, List.find?_append]
      cases hf : l.reverse.find? fun e => (compare k e.1).isEq with
      | some x => simp
      | none => by_cases h : compare k e.1 = .eq <;> simp [h]
  rw [ofList, hfold, find_empty, Option.or_none]

/-- The entries of the second map win. -/
theorem find_union (m n : SortedMap κ α) (hn : n.Sorted) (k : κ) :
    (m.union n).find? k = (n.find? k).or (m.find? k) := by
  obtain ⟨l⟩ := n
  change List.Pairwise _ l at hn
  change (l.foldl (fun m e => m.insert e.1 e.2) m).find? k = (lookup k l).or (m.find? k)
  induction l generalizing m with
  | nil => rfl
  | cons e l ih =>
    obtain ⟨hlt, hl⟩ := List.pairwise_cons.mp hn
    rw [List.foldl_cons, ih _ hl, find_insert, lookup]
    by_cases h : compare k e.1 = .eq
    · -- The key is that of the first entry, so none behind it has the key.
      have hnone : lookup k l = none := by
        rw [Option.eq_none_iff_forall_ne_some]
        intro a ha
        obtain ⟨j, hj, hm⟩ := mem_of_find ⟨l⟩ k a ha
        have hej := hlt (j, a) hm
        rw [← TransCmp.congr_left h, hj] at hej
        cases hej
      simp [h, hnone]
    · simp [h]

theorem sorted_union (m n : SortedMap κ α) (h : m.Sorted) : (m.union n).Sorted := by
  obtain ⟨l⟩ := n
  change (l.foldl (fun m e => m.insert e.1 e.2) m).Sorted
  induction l generalizing m with
  | nil => exact h
  | cons e l ih => exact ih _ (sorted_insert m e.1 e.2 h)

theorem mem_of_find_ofList (l : List (κ × α)) (k : κ) (a : α) (h : (ofList l).find? k = some a) :
    ∃ e ∈ l, compare k e.1 = .eq ∧ e.2 = a := by
  rw [find_ofList] at h
  obtain ⟨e, he, ha⟩ := Option.map_eq_some_iff.mp h
  have hk := List.find?_some he
  refine ⟨e, List.mem_reverse.mp (List.mem_of_find?_eq_some he), ?_, ha⟩
  simpa using hk

theorem contains_ofList (l : List (κ × α)) (k : κ) :
    (ofList l).contains k = true ↔ ∃ e ∈ l, compare k e.1 = .eq := by
  rw [contains, find_ofList, Option.isSome_map, List.find?_isSome]
  simp

theorem sorted_ofList (l : List (κ × α)) : (ofList l).Sorted := by
  have hfold (m : SortedMap κ α) (hm : m.Sorted) :
      (l.foldl (fun m e => m.insert e.1 e.2) m).Sorted := by
    induction l generalizing m with
    | nil => exact hm
    | cons e l ih => exact ih _ (sorted_insert m e.1 e.2 hm)
  exact hfold empty sorted_empty

theorem mem_entries_iff [LawfulEqOrd κ] (m : SortedMap κ α) (k : κ) (a : α) (hs : m.Sorted) :
    (k, a) ∈ m.entries ↔ m.find? k = some a := by
  refine ⟨find_of_mem m k a hs, ?_⟩
  intro h
  obtain ⟨j, hj, hm⟩ := mem_of_find m k a h
  rwa [LawfulEqOrd.eq_of_compare hj]

theorem mem_values_iff [LawfulEqOrd κ] (m : SortedMap κ α) (a : α) (hs : m.Sorted) :
    a ∈ m.values ↔ ∃ k, m.find? k = some a := by
  simp only [values, List.mem_map, Prod.exists, exists_eq_right]
  exact exists_congr fun k => mem_entries_iff m k a hs

omit [TransOrd κ] in
theorem mem_keys_iff [LawfulEqOrd κ] (m : SortedMap κ α) (k : κ) :
    k ∈ m.keys ↔ m.contains k = true := by
  obtain ⟨l⟩ := m
  change k ∈ l.map (·.1) ↔ (lookup k l).isSome = true
  induction l with
  | nil => simp [lookup]
  | cons e l ih =>
    rw [List.map_cons, List.mem_cons, ih, lookup]
    by_cases h : k = e.1 <;> simp [h]

/-- A map lists its keys in one order, so maps with the same keys list them alike. -/
theorem keys_ext [LawfulEqOrd κ] (m n : SortedMap κ α) (hm : m.Sorted) (hn : n.Sorted)
    (h : ∀ k, m.contains k = true ↔ n.contains k = true) : m.keys = n.keys := by
  have hpair (m : SortedMap κ α) (hm : m.Sorted) :
      m.keys.Pairwise fun j k => compare j k = .lt := List.pairwise_map.mpr hm
  have hnodup (m : SortedMap κ α) (hm : m.Sorted) : m.keys.Nodup :=
    (hpair m hm).imp fun hlt heq => by
      rw [LawfulEqOrd.compare_eq_iff_eq.mpr heq] at hlt
      cases hlt
  have hperm : m.keys.Perm n.keys := by
    rw [List.perm_ext_iff_of_nodup (hnodup m hm) (hnodup n hn)]
    intro k
    rw [mem_keys_iff, mem_keys_iff, h]
  refine List.Perm.eq_of_pairwise ?_ (hpair m hm) (hpair n hn) hperm
  intro j k _ _ hjk hkj
  rw [OrientedCmp.gt_of_lt hkj] at hjk
  cases hjk

end SortedMap

namespace SortedSet

variable {α : Type u} [Ord α]

theorem contains_iff (s : SortedSet α) (a : α) :
    s.contains a = true ↔ ∃ b ∈ s.toList, compare a b = .eq := by
  simp [contains]

theorem contains_empty (a : α) : (empty : SortedSet α).contains a = false := rfl

theorem contains_iff_mem [LawfulEqOrd α] (s : SortedSet α) (a : α) :
    s.contains a = true ↔ a ∈ s.toList := by
  simp [contains_iff]

theorem size_insert (s : SortedSet α) (a : α) (h : s.contains a = false) :
    (s.insert a).size = s.size + 1 := by
  obtain ⟨l⟩ := s
  simp only [contains, insert, size] at h ⊢
  induction l with
  | nil => rfl
  | cons c l ih =>
    obtain ⟨hac, hl⟩ := Bool.or_eq_false_iff.mp h
    cases hc : compare a c with
    | lt => simp [insertMember, hc]
    | eq => simp [hc] at hac
    | gt => simp [insertMember, hc, ih hl]

variable [TransOrd α]

theorem contains_insert (s : SortedSet α) (a b : α) :
    (s.insert a).contains b = true ↔ compare b a = .eq ∨ s.contains b = true := by
  obtain ⟨l⟩ := s
  simp only [contains_iff, insert]
  induction l with
  | nil => simp [insertMember]
  | cons c l ih =>
    cases hc : compare a c with
    | lt => simp [insertMember, hc]
    | eq =>
      have hb : compare b a = compare b c := TransCmp.congr_right hc
      simp [insertMember, hc, hb]
    | gt =>
      simp only [insertMember, hc, List.mem_cons, exists_eq_or_imp, ih]
      exact or_left_comm

theorem contains_erase (s : SortedSet α) (a b : α) :
    (s.erase a).contains b = true ↔ compare b a ≠ .eq ∧ s.contains b = true := by
  simp only [contains_iff, erase, List.mem_filter, Bool.not_eq_true', Ordering.isEq_eq_false]
  constructor
  · rintro ⟨c, ⟨hc, hac⟩, hbc⟩
    refine ⟨?_, c, hc, hbc⟩
    intro hba
    exact hac (by rwa [← TransCmp.congr_left hba])
  · rintro ⟨hba, c, hc, hbc⟩
    refine ⟨c, ⟨hc, ?_⟩, hbc⟩
    intro hac
    exact hba (by rwa [TransCmp.congr_right hac])

omit [TransOrd α] in
theorem erase_erase (s : SortedSet α) (a : α) : (s.erase a).erase a = s.erase a := by
  simp [erase, List.filter_filter]

theorem contains_ofList (l : List α) (a : α) :
    (ofList l).contains a = true ↔ ∃ b ∈ l, compare a b = .eq := by
  have hfold (s : SortedSet α) : (l.foldl insert s).contains a = true ↔
      s.contains a = true ∨ ∃ b ∈ l, compare a b = .eq := by
    induction l generalizing s with
    | nil => simp
    | cons b l ih =>
      simp only [List.foldl_cons, ih, contains_insert, List.mem_cons, exists_eq_or_imp]
      exact or_assoc.trans or_left_comm
  rw [ofList, hfold, contains_empty]
  simp

def Sorted (s : SortedSet α) : Prop := s.toList.Pairwise fun a b => compare a b = .lt

omit [TransOrd α] in
theorem mem_of_mem_insert (s : SortedSet α) (a b : α) (h : b ∈ (s.insert a).toList) :
    b = a ∨ b ∈ s.toList := by
  obtain ⟨l⟩ := s
  change b ∈ insertMember a l at h
  change b = a ∨ b ∈ l
  induction l with
  | nil => exact Or.inl (List.mem_singleton.mp h)
  | cons c l ih =>
    rw [insertMember] at h
    split at h
    · exact List.mem_cons.mp h
    · exact Or.inr h
    · rcases List.mem_cons.mp h with rfl | h
      · exact Or.inr List.mem_cons_self
      · exact (ih h).imp id (List.mem_cons_of_mem c)

omit [TransOrd α] in
theorem mem_of_mem_ofList (l : List α) (a : α) (h : a ∈ (ofList l).toList) : a ∈ l := by
  have hfold (l : List α) (s : SortedSet α) (hs : a ∈ (l.foldl insert s).toList) :
      a ∈ s.toList ∨ a ∈ l := by
    induction l generalizing s with
    | nil => exact Or.inl hs
    | cons b l ih =>
      rcases ih (s.insert b) hs with hm | hm
      · rcases mem_of_mem_insert s b a hm with rfl | hm
        · exact Or.inr List.mem_cons_self
        · exact Or.inl hm
      · exact Or.inr (List.mem_cons_of_mem b hm)
  exact (hfold l empty h).resolve_left List.not_mem_nil

theorem sorted_insert (s : SortedSet α) (a : α) (h : s.Sorted) : (s.insert a).Sorted := by
  obtain ⟨l⟩ := s
  change List.Pairwise _ l at h
  change List.Pairwise _ (insertMember a l)
  induction l with
  | nil => exact List.pairwise_singleton _ a
  | cons c l ih =>
    obtain ⟨hlt, hl⟩ := List.pairwise_cons.mp h
    cases hc : compare a c with
    | lt =>
      simp only [insertMember, hc]
      refine List.pairwise_cons.mpr ⟨?_, h⟩
      intro b hb
      rcases List.mem_cons.mp hb with rfl | hb
      · exact hc
      · exact TransCmp.lt_trans hc (hlt b hb)
    | eq =>
      simp only [insertMember, hc]
      exact h
    | gt =>
      simp only [insertMember, hc]
      refine List.pairwise_cons.mpr ⟨?_, ih hl⟩
      intro b hb
      rcases mem_of_mem_insert ⟨l⟩ a b hb with rfl | hb
      · exact OrientedCmp.lt_of_gt hc
      · exact hlt b hb

theorem sorted_ofList (l : List α) : (ofList l).Sorted := by
  have hfold (s : SortedSet α) (hs : s.Sorted) : (l.foldl insert s).Sorted := by
    induction l generalizing s with
    | nil => exact hs
    | cons a l ih => exact ih _ (sorted_insert s a hs)
  exact hfold empty List.Pairwise.nil

end SortedSet

end Retest
