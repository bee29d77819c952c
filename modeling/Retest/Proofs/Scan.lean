import Retest.Proofs.Collection
import Retest.Proofs.ClassSearch

namespace Retest
open Std

namespace SortedSet

universe u

variable {α : Type u} [Ord α] [TransOrd α]

theorem isEmpty_of_forall (s : SortedSet α) (h : ∀ a, s.contains a ≠ true) : s.isEmpty = true := by
  have hnil : s.toList = [] := by
    rw [List.eq_nil_iff_forall_not_mem]
    intro a ha
    exact h a ((contains_iff s a).mpr ⟨a, ha, compare_self⟩)
  simp [isEmpty, hnil]

end SortedSet

namespace SortedMap

universe u v

variable {κ : Type u} {α : Type v} [Ord κ]

theorem mem_keys_insert (m : SortedMap κ α) (k : κ) (a : α) (j : κ) (h : j ∈ (m.insert k a).keys) :
    j = k ∨ j ∈ m.keys := by
  obtain ⟨e, he, rfl⟩ := List.mem_map.mp h
  refine (key_of_mem_insertEntry m.entries k a e he).imp id ?_
  rintro ⟨b, hb⟩
  exact List.mem_map.mpr ⟨_, hb, rfl⟩

/-- A key that is already there stays as it is spelled. -/
theorem mem_keys_insert_of_mem (m : SortedMap κ α) (k : κ) (a : α) (j : κ) (h : j ∈ m.keys) :
    j ∈ (m.insert k a).keys := by
  obtain ⟨l⟩ := m
  change j ∈ l.map (·.1) at h
  change j ∈ (insertEntry k a l).map (·.1)
  induction l with
  | nil => exact absurd h List.not_mem_nil
  | cons e l ih =>
    rw [insertEntry]
    rw [List.map_cons, List.mem_cons] at h
    split
    · exact List.mem_cons_of_mem _ (List.mem_cons.mpr h)
    · exact List.mem_cons.mpr h
    · exact List.mem_cons.mpr (h.imp id ih)

theorem mem_keys_foldl_erase (m : SortedMap κ α) (l : List κ) (j : κ) :
    j ∈ (l.foldl SortedMap.erase m).keys ↔ j ∈ m.keys ∧ ∀ k ∈ l, compare k j ≠ .eq := by
  induction l generalizing m with
  | nil => simp
  | cons k l ih =>
    rw [List.foldl_cons, ih]
    simp only [keys, erase, List.mem_map, List.mem_filter, Bool.not_eq_true', List.mem_cons,
      forall_eq_or_imp, Ordering.isEq_eq_false]
    constructor
    · rintro ⟨⟨e, ⟨he, hk⟩, rfl⟩, hl⟩
      exact ⟨⟨e, he, rfl⟩, hk, hl⟩
    · rintro ⟨⟨e, he, rfl⟩, hk, hl⟩
      exact ⟨⟨e, ⟨he, hk⟩, rfl⟩, hl⟩

theorem find_foldl_erase [TransOrd κ] (m : SortedMap κ α) (l : List κ) (j : κ)
    (h : ∀ k ∈ l, compare j k ≠ .eq) : (l.foldl SortedMap.erase m).find? j = m.find? j := by
  induction l generalizing m with
  | nil => rfl
  | cons k l ih =>
    rw [List.foldl_cons, ih _ fun i hi => h i (List.mem_cons_of_mem k hi), find_erase,
      if_neg (h k List.mem_cons_self)]

end SortedMap

namespace Watchlist

/-- However a path is spelled, it comes with one time. -/
def OneTime (l : List (Path × Timestamp)) : Prop :=
  ∀ d ∈ l, ∀ e ∈ l, compare d.1 e.1 = .eq → d.2 = e.2

theorem OneTime.of_cons {e : Path × Timestamp} {l : List (Path × Timestamp)}
    (h : OneTime (e :: l)) : OneTime l :=
  fun c hc d hd => h c (List.mem_cons_of_mem e hc) d (List.mem_cons_of_mem e hd)

section Note

variable (l : List (Path × Timestamp)) (m : SortedMap Path Timestamp) (c : SortedSet Path)

/-- What is seen is noted with its time, and the rest stays noted as it was. -/
theorem find_foldl_note (h : OneTime l) (p : Path) : (l.foldl note (m, c)).1.find? p =
    ((l.find? fun e => (compare p e.1).isEq).map (·.2)).or (m.find? p) := by
  induction l generalizing m c with
  | nil => rfl
  | cons e l ih =>
    have hinsert := SortedMap.find_insert m p e.1 e.2
    rw [List.foldl_cons, note, ih _ _ h.of_cons, hinsert]
    by_cases hp : compare p e.1 = .eq
    · rw [if_pos hp, List.find?_cons_of_pos (by simp [hp])]
      cases hf : l.find? fun e => (compare p e.1).isEq with
      | none => rfl
      | some d =>
        -- It is seen again later on, but with the same time.
        have hpd : compare p d.1 = .eq := by simpa using List.find?_some hf
        have hde : compare d.1 e.1 = .eq := TransCmp.eq_trans (OrientedCmp.eq_symm hpd) hp
        have htime := h d (List.mem_cons_of_mem e (List.mem_of_find?_eq_some hf)) e
          List.mem_cons_self hde
        simp [htime]
    · rw [if_neg hp, List.find?_cons_of_neg (by simpa using hp)]

theorem contains_foldl_note (h : OneTime l) (p : Path) :
    (l.foldl note (m, c)).2.contains p = true ↔
      c.contains p = true ∨ ∃ e ∈ l, compare p e.1 = .eq ∧ m.find? e.1 ≠ some e.2 := by
  induction l generalizing m c with
  | nil => simp
  | cons e l ih =>
    have hchanged : (if m.find? e.1 = some e.2 then c else c.insert e.1).contains p = true ↔
        c.contains p = true ∨ compare p e.1 = .eq ∧ m.find? e.1 ≠ some e.2 := by
      by_cases hm : m.find? e.1 = some e.2
      · simp [hm]
      · simp [hm, SortedSet.contains_insert, or_comm]
    -- A later entry of the same path has the time that was just noted.
    have hlater : (∃ d ∈ l, compare p d.1 = .eq ∧ (m.insert e.1 e.2).find? d.1 ≠ some d.2) ∨
        (compare p e.1 = .eq ∧ m.find? e.1 ≠ some e.2) ↔
          (∃ d ∈ l, compare p d.1 = .eq ∧ m.find? d.1 ≠ some d.2) ∨
            (compare p e.1 = .eq ∧ m.find? e.1 ≠ some e.2) := by
      constructor
      · rintro (⟨d, hd, hpd, hne⟩ | he)
        · rw [SortedMap.find_insert] at hne
          split at hne
          · next hde =>
            have htime := h d (List.mem_cons_of_mem e hd) e List.mem_cons_self hde
            exact absurd (by rw [htime]) hne
          · exact Or.inl ⟨d, hd, hpd, hne⟩
        · exact Or.inr he
      · rintro (⟨d, hd, hpd, hne⟩ | he)
        · by_cases hde : compare d.1 e.1 = .eq
          · refine Or.inr ⟨TransCmp.eq_trans hpd hde, ?_⟩
            rw [← SortedMap.find_congr m d.1 e.1 hde,
              ← h d (List.mem_cons_of_mem e hd) e List.mem_cons_self hde]
            exact hne
          · refine Or.inl ⟨d, hd, hpd, ?_⟩
            rw [SortedMap.find_insert, if_neg hde]
            exact hne
        · exact Or.inr he
    rw [List.foldl_cons, note, ih _ _ h.of_cons, hchanged, or_assoc, or_comm (b := ∃ e ∈ l, _),
      hlater]
    simp only [List.mem_cons, exists_eq_or_imp]
    rw [or_comm (a := ∃ e ∈ l, _)]

theorem mem_keys_foldl_note (p : Path) (h : p ∈ (l.foldl note (m, c)).1.keys) :
    p ∈ l.map (·.1) ∨ p ∈ m.keys := by
  induction l generalizing m c with
  | nil => exact Or.inr h
  | cons e l ih =>
    rw [List.foldl_cons, note] at h
    rcases ih _ _ h with h | h
    · exact Or.inl (List.mem_cons_of_mem _ h)
    · rcases SortedMap.mem_keys_insert m e.1 e.2 p h with rfl | h
      · exact Or.inl List.mem_cons_self
      · exact Or.inr h

theorem mem_keys_foldl_note_of_mem (p : Path) (h : p ∈ m.keys) :
    p ∈ (l.foldl note (m, c)).1.keys := by
  induction l generalizing m c with
  | nil => exact h
  | cons e l ih => exact ih _ _ (SortedMap.mem_keys_insert_of_mem m e.1 e.2 p h)

end Note

section Scan

variable (w : Watchlist) (t : FileTree) (opens : Path → Bool)

def noted : SortedMap Path Timestamp × SortedSet Path :=
  (w.visible t opens).foldl note (w.tracked, .empty)

def gone : List Path :=
  let seen : SortedSet Path := .ofList ((w.visible t opens).map (·.1))
  (w.noted t opens).1.keys.filter fun p => !seen.contains p && !t.pathExists p

theorem scan_eq : w.scan t opens =
    ({ w with tracked := (w.gone t opens).foldl SortedMap.erase (w.noted t opens).1 },
      { changed := (w.noted t opens).2, removed := .ofList (w.gone t opens) }) := rfl

theorem oneTime_visible (ht : t.root.Tidy) : OneTime (w.visible t opens) :=
  fun d hd e he h => w.visible_unique t opens ht d e hd he h

theorem mem_gone (p : Path) : p ∈ w.gone t opens ↔ p ∈ (w.noted t opens).1.keys ∧
    (∀ e ∈ w.visible t opens, compare p e.1 ≠ .eq) ∧ t.pathExists p = false := by
  have hseen : (SortedSet.ofList ((w.visible t opens).map (·.1))).contains p = false ↔
      ∀ e ∈ w.visible t opens, compare p e.1 ≠ .eq := by
    rw [← Bool.not_eq_true, SortedSet.contains_ofList]
    simp
  simp only [gone, List.mem_filter, Bool.and_eq_true, Bool.not_eq_true', hseen]

/-- Only what was tracked before can be gone. -/
theorem mem_gone_iff (p : Path) : p ∈ w.gone t opens ↔ p ∈ w.tracked.keys ∧
    (∀ e ∈ w.visible t opens, compare p e.1 ≠ .eq) ∧ t.pathExists p = false := by
  rw [mem_gone]
  refine ⟨fun h => ⟨?_, h.2⟩, fun h => ⟨mem_keys_foldl_note_of_mem _ _ _ p h.1, h.2⟩⟩
  refine (mem_keys_foldl_note _ _ _ p h.1).resolve_left fun hseen => ?_
  obtain ⟨e, he, rfl⟩ := List.mem_map.mp hseen
  exact h.2.1 e he compare_self

/-- A file counts as changed if it is seen with another time than before, or for the first time. -/
theorem contains_changed_scan (hone : OneTime (w.visible t opens)) (p : Path) :
    (w.scan t opens).2.changed.contains p = true ↔
      ∃ e ∈ w.visible t opens, compare p e.1 = .eq ∧ w.tracked.find? e.1 ≠ some e.2 := by
  rw [scan_eq]
  change (w.noted t opens).2.contains p = true ↔ _
  rw [noted, contains_foldl_note _ _ _ hone, SortedSet.contains_empty]
  simp

/-- What is seen is tracked with its time from then on. -/
theorem find_tracked_scan (hone : OneTime (w.visible t opens)) (e : Path × Timestamp)
    (he : e ∈ w.visible t opens) : (w.scan t opens).1.tracked.find? e.1 = some e.2 := by
  have hkept : ∀ p ∈ w.gone t opens, compare e.1 p ≠ .eq := by
    intro p hp hep
    exact ((w.mem_gone t opens p).mp hp).2.1 e he (OrientedCmp.eq_symm hep)
  rw [scan_eq]
  change ((w.gone t opens).foldl SortedMap.erase (w.noted t opens).1).find? e.1 = some e.2
  rw [SortedMap.find_foldl_erase _ _ _ hkept, noted, find_foldl_note _ _ _ hone]
  cases hf : (w.visible t opens).find? fun d => (compare e.1 d.1).isEq with
  | none =>
    have hself := List.find?_eq_none.mp hf e he
    simp [compare_self] at hself
  | some d =>
    have hed : compare e.1 d.1 = .eq := by simpa using List.find?_some hf
    simp [hone e he d (List.mem_of_find?_eq_some hf) hed]

/-- What is tracked after a scan was seen, or it was tracked before and is still there. -/
theorem of_mem_keys_scan (p : Path) (h : p ∈ (w.scan t opens).1.tracked.keys) :
    (∃ e ∈ w.visible t opens, compare p e.1 = .eq) ∨
      p ∈ w.tracked.keys ∧ t.pathExists p = true := by
  rw [scan_eq] at h
  obtain ⟨hkey, hkept⟩ := (SortedMap.mem_keys_foldl_erase _ _ _).mp h
  by_cases hseen : ∃ e ∈ w.visible t opens, compare p e.1 = .eq
  · exact Or.inl hseen
  · refine Or.inr ⟨?_, ?_⟩
    · refine (mem_keys_foldl_note _ _ _ p hkey).resolve_left fun hp => ?_
      obtain ⟨e, he, rfl⟩ := List.mem_map.mp hp
      exact hseen ⟨e, he, compare_self⟩
    · rw [← Bool.not_eq_false]
      intro hno
      have hgone : p ∈ w.gone t opens :=
        (w.mem_gone t opens p).mpr ⟨hkey, fun e he hpe => hseen ⟨e, he, hpe⟩, hno⟩
      exact hkept p hgone compare_self

structure Untouched (w : Watchlist) (t t' : FileTree) (opens : Path → Bool := FileTree.fits) :
    Prop where
  visible : ∀ e, e ∈ w.visible t' opens ↔ e ∈ w.visible t opens
  present : ∀ p ∈ w.tracked.keys, t.pathExists p = true → t'.pathExists p = true

/-- A second look at files that nobody touched finds nothing. -/
theorem isEmpty_scan_again (t' : FileTree) (ht : t.root.Tidy) (h : w.Untouched t t' opens) :
    ((w.scan t opens).1.scan t' opens).2.isEmpty = true := by
  have hone := w.oneTime_visible t opens ht
  have hroots : (w.scan t opens).1.visible t' opens = w.visible t' opens := rfl
  have hone' : OneTime ((w.scan t opens).1.visible t' opens) := by
    rw [hroots]
    exact fun d hd e he => hone d ((h.visible d).mp hd) e ((h.visible e).mp he)
  have hchanged : ((w.scan t opens).1.scan t' opens).2.changed.isEmpty = true := by
    apply SortedSet.isEmpty_of_forall
    intro p hp
    obtain ⟨e, he, -, hne⟩ := ((w.scan t opens).1.contains_changed_scan t' opens hone' p).mp hp
    rw [hroots] at he
    exact hne (w.find_tracked_scan t opens hone e ((h.visible e).mp he))
  have hgone : (w.scan t opens).1.gone t' opens = [] := by
    rw [List.eq_nil_iff_forall_not_mem]
    intro p hp
    obtain ⟨hkey, hunseen, hno⟩ := ((w.scan t opens).1.mem_gone_iff t' opens p).mp hp
    rw [hroots] at hunseen
    -- What is tracked was seen now, or it was tracked before and is still there.
    rcases w.of_mem_keys_scan t opens p hkey with ⟨e, he, hpe⟩ | ⟨htracked, hthere⟩
    · exact hunseen e ((h.visible e).mpr he) hpe
    · rw [h.present p htracked hthere] at hno
      cases hno
  rw [Changes.isEmpty, hchanged, Bool.true_and, scan_eq, hgone]
  rfl

end Scan

end Watchlist

end Retest
