import Retest.Proofs.FileTree

/-! When a path can be looked up. What counts are the components, the size of the whole text and
whether the text ends in a name: another spelling of a path that leads somewhere leads there too,
unless it is too long. -/

namespace Retest

def Component.moves : Component → Bool
  | .root | .current => false
  | .parent | .normal _ => true

theorem size_ofList_cons (c : Char) (l : List Char) :
    (String.ofList (c :: l)).utf8ByteSize = c.utf8Size + (String.ofList l).utf8ByteSize := by
  rw [String.ofList_cons, String.utf8ByteSize_append, String.utf8ByteSize_singleton]

namespace Path

def steps (p : Path) : List Component := (pieces p.text.toList).filterMap component?

theorem moves_of_component (piece : List Char) (c : Component) (h : component? piece = some c) :
    c.moves = true := by
  rw [component?] at h
  split at h
  · cases h
  · split at h <;> rw [← Option.some.inj h] <;> rfl

/-- The characters of the pieces are those of the text, without the slashes. -/
theorem mem_pieces_iff (l : List Char) (c : Char) :
    (∃ piece ∈ pieces l, c ∈ piece) ↔ c ∈ l ∧ c ≠ '/' := by
  induction l with
  | nil => simp [pieces]
  | cons d l ih =>
    by_cases hd : d = '/'
    · rw [pieces, if_pos hd, hd]
      simp only [List.mem_cons, exists_eq_or_imp, List.not_mem_nil, false_or, ih]
      constructor
      · exact fun h => ⟨Or.inr h.1, h.2⟩
      · exact fun h => ⟨h.1.resolve_left h.2, h.2⟩
    · cases hp : pieces l with
      | nil => exact absurd hp (pieces_ne_nil l)
      | cons piece more =>
        rw [hp] at ih
        simp only [pieces, hd, if_false, hp, List.mem_cons, exists_eq_or_imp, or_assoc] at ih ⊢
        rw [ih]
        constructor
        · rintro (rfl | ⟨hl, hc⟩)
          · exact ⟨Or.inl rfl, hd⟩
          · exact ⟨Or.inr hl, hc⟩
        · rintro ⟨rfl | hl, hc⟩
          · exact Or.inl rfl
          · exact Or.inr ⟨hl, hc⟩

def EndsInName (p : Path) : Prop :=
  ∃ front name, IsName name ∧ pieces p.text.toList = front ++ [name.toList]

theorem EndsInName.text_ne_nil {p : Path} (h : p.EndsInName) : p.text.toList ≠ [] := by
  obtain ⟨front, name, hname, hp⟩ := h
  intro hnil
  rw [hnil] at hp
  have hlast := congrArg List.getLast? hp
  simp only [pieces, List.getLast?_singleton, List.getLast?_concat] at hlast
  exact hname.nonempty (Option.some.inj hlast).symm

end Path

namespace FileTree

variable (t : FileTree)

def Leads (here : List String) : List Component → Prop
  | [] => (t.root.descend here.reverse).isSome = true
  | c :: rest => t.HoldsDir here ∧ c.Short ∧ Leads (c.enter here) rest

end FileTree

namespace FileNode

end FileNode

namespace FileTree

end FileTree

end Retest
