import Retest.Path

namespace Retest.Path

structure IsName (name : String) : Prop where
  nonempty : name.toList ≠ []
  noDot : name.toList ≠ ['.']
  noDots : name.toList ≠ ['.', '.']
  noSlash : '/' ∉ name.toList

instance (name : String) : Decidable (IsName name) :=
  decidable_of_iff (name.toList ≠ [] ∧ name.toList ≠ ['.'] ∧ name.toList ≠ ['.', '.'] ∧
    '/' ∉ name.toList) ⟨fun h => ⟨h.1, h.2.1, h.2.2.1, h.2.2.2⟩, fun h => ⟨h.1, h.2, h.3, h.4⟩⟩

theorem IsName.head_ne_slash {name : String} (h : IsName name) : name.toList.head? ≠ some '/' :=
  fun hh => h.noSlash (List.mem_of_mem_head? (Option.mem_def.mpr hh))

theorem pieces_ne_nil (l : List Char) : pieces l ≠ [] := by
  cases l with
  | nil => simp [pieces]
  | cons c l =>
    simp only [pieces]
    split
    · simp
    · split <;> simp

theorem pieces_append_slash (l m : List Char) : pieces (l ++ '/' :: m) = pieces l ++ pieces m := by
  induction l with
  | nil => simp [pieces]
  | cons c l ih =>
    by_cases hc : c = '/'
    · simp [pieces, hc, ih]
    · cases hp : pieces l with
      | nil => exact absurd hp (pieces_ne_nil l)
      | cons piece more => simp [pieces, hc, ih, hp]

theorem pieces_of_no_slash (l : List Char) (h : '/' ∉ l) : pieces l = [l] := by
  induction l with
  | nil => rfl
  | cons c l ih =>
    have hc : c ≠ '/' := fun e => h (by simp [e])
    have hl : '/' ∉ l := fun hm => h (List.mem_cons_of_mem c hm)
    simp [pieces, hc, ih hl]

/-- An absolute text begins with an empty piece. -/
theorem pieces_of_isAbsolute (p : Path) (h : p.isAbsolute = true) :
    ∃ rest, pieces p.text.toList = [] :: rest := by
  cases hl : p.text.toList with
  | nil => simp [isAbsolute, hl] at h
  | cons c l =>
    have hc : c = '/' := by simpa [isAbsolute, hl] using h
    exact ⟨pieces l, by rw [pieces, if_pos hc]⟩

theorem component_of_isName (name : String) (h : IsName name) :
    component? name.toList = some (.normal name) := by
  simp [component?, h.nonempty, h.noDot, h.noDots]

theorem not_mem_slash_of_mem_pieces (l piece : List Char) (h : piece ∈ pieces l) : '/' ∉ piece := by
  induction l generalizing piece with
  | nil =>
    rw [List.mem_singleton.mp h]
    exact List.not_mem_nil
  | cons c l ih =>
    by_cases hc : c = '/'
    · rw [pieces, if_pos hc] at h
      rcases List.mem_cons.mp h with rfl | h
      · exact List.not_mem_nil
      · exact ih piece h
    · cases hp : pieces l with
      | nil => exact absurd hp (pieces_ne_nil l)
      | cons first more =>
        simp only [pieces, hc, if_false, hp] at h
        rw [hp] at ih
        rcases List.mem_cons.mp h with rfl | h
        · intro hs
          rcases List.mem_cons.mp hs with hs | hs
          · exact hc hs.symm
          · exact ih first List.mem_cons_self hs
        · exact ih piece (List.mem_cons_of_mem first h)

/-- A name among the components of a path can stand in a path. -/
theorem isName_of_component (piece : List Char) (hs : '/' ∉ piece) (name : String)
    (h : component? piece = some (.normal name)) : IsName name := by
  rw [component?] at h
  split at h
  · cases h
  · next h1 =>
    split at h
    · cases h
    · next h2 =>
      have hname : piece = name.toList := by
        have heq : String.ofList piece = name := by simpa using h
        rw [← heq, String.toList_ofList]
      rw [hname] at h1 h2 hs
      exact ⟨fun hn => h1 (Or.inl hn), fun hn => h1 (Or.inr hn), h2, hs⟩

def componentsOf (absolute : Bool) : List (List Char) → List Component
  | [] => []
  | head :: rest =>
    (if absolute then [.root] else if head = ['.'] then [.current] else (component? head).toList) ++
      rest.filterMap component?

theorem components_eq (p : Path) :
    p.components = componentsOf p.isAbsolute (pieces p.text.toList) := by
  rw [components]
  split <;> simp [componentsOf, *]

theorem componentsOf_append (absolute : Bool) (l m : List (List Char)) (h : l ≠ []) :
    componentsOf absolute (l ++ m) = componentsOf absolute l ++ m.filterMap component? := by
  cases l with
  | nil => exact absurd rfl h
  | cons head rest => simp [componentsOf]

theorem text_join_ne_empty (dir : Path) (name : String) (h : IsName name) :
    (dir.join name).text.toList ≠ [] := by
  have hn := h.nonempty
  rw [join]
  split
  · exact hn
  · split <;> simp [hn]

/-- Joining a relative path appends its components. A dot in front of it, which would count if it
stood alone, says nothing then. -/
theorem components_join_relative (dir : Path) (tail : String) (hd : dir.text.toList ≠ [])
    (h : tail.toList.head? ≠ some '/') :
    (dir.join tail).components = dir.components ++ (pieces tail.toList).filterMap component? := by
  rw [join, if_neg h]
  obtain ⟨c, l, hl⟩ : ∃ c l, dir.text.toList = c :: l := List.exists_cons_of_ne_nil hd
  by_cases hslash : dir.text.toList.getLast? = some '/'
  · -- The text before the last slash has the same components as the whole.
    rw [if_pos (Or.inr hslash)]
    obtain ⟨front, hfront⟩ := List.getLast?_eq_some_iff.mp hslash
    have habsolute : (⟨dir.text ++ tail⟩ : Path).isAbsolute = dir.isAbsolute := by
      simp [isAbsolute, hl]
    have hempty : (pieces []).filterMap component? = [] := by simp [pieces, component?]
    rw [components_eq, components_eq, habsolute, String.toList_append, hfront, List.append_assoc,
      List.singleton_append, pieces_append_slash, pieces_append_slash,
      componentsOf_append _ _ _ (pieces_ne_nil front),
      componentsOf_append _ _ _ (pieces_ne_nil front), hempty, List.append_nil]
  · have hno : ¬(dir.text.toList = [] ∨ dir.text.toList.getLast? = some '/') :=
      fun hor => hor.elim hd hslash
    rw [if_neg hno]
    have htext : (dir.text ++ "/" ++ tail).toList = dir.text.toList ++ '/' :: tail.toList := by
      simp
    have habsolute : (⟨dir.text ++ "/" ++ tail⟩ : Path).isAbsolute = dir.isAbsolute := by
      simp [isAbsolute, hl]
    rw [components_eq, components_eq, habsolute, htext, pieces_append_slash,
      componentsOf_append _ _ _ (pieces_ne_nil _)]

theorem components_join (dir : Path) (name : String) (hd : dir.text.toList ≠ []) (h : IsName name) :
    (dir.join name).components = dir.components ++ [.normal name] := by
  rw [components_join_relative dir name hd h.head_ne_slash, pieces_of_no_slash _ h.noSlash,
    List.filterMap_cons_some (component_of_isName name h)]
  rfl

def below (dir : Path) (names : List String) : Path := names.foldl join dir

theorem below_append_singleton (dir : Path) (names : List String) (name : String) :
    dir.below (names ++ [name]) = (dir.below names).join name := by
  simp [below]

theorem components_below (dir : Path) (names : List String) (hd : dir.text.toList ≠ [])
    (h : ∀ name ∈ names, IsName name) :
    (dir.below names).components = dir.components ++ names.map .normal := by
  induction names generalizing dir with
  | nil => exact (List.append_nil _).symm
  | cons name names ih =>
    obtain ⟨hname, hnames⟩ := List.forall_mem_cons.mp h
    calc (dir.below (name :: names)).components
        = (dir.join name).components ++ names.map Component.normal :=
          ih (dir.join name) (text_join_ne_empty dir name hname) hnames
      _ = dir.components ++ (name :: names).map Component.normal := by
          rw [components_join dir name hd hname, List.append_assoc]
          rfl

end Retest.Path
