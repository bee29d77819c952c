import Retest.Proofs.ClassMembers

/-! The scan of descriptors. In each round it looks for an `L` and for the next `;` behind it, and
goes on behind that one. It comes to an end on every text, and where the text is a descriptor of the
grammar it has found just the classes that the descriptor names. -/

namespace Retest.ClassFile

/-- One round of a scan: the first `L` opens a name, the next `;` closes it, the rest is left. -/
inductive Round : List Char → List Char → List Char → Prop
  | mk (before name rest : List Char) (hb : 'L' ∉ before) (hn : ';' ∉ name) :
    Round (before ++ 'L' :: (name ++ ';' :: rest)) name rest

inductive Scan : List Char → List (List Char) → Prop
  | finished (s : List Char) (h : ∀ name rest, ¬Round s name rest) : Scan s []
  | round (s name rest : List Char) (names : List (List Char)) (hr : Round s name rest)
    (hs : Scan rest names) : Scan s (name :: names)

section Rounds

variable {s name rest : List Char} {names : List (List Char)}

/-- A round uses up the name and the two characters around it. -/
theorem Round.length_le (h : Round s name rest) : name.length + 2 + rest.length ≤ s.length := by
  cases h with
  | mk before name rest hb hn =>
    simp only [List.length_append, List.length_cons]
    omega

theorem Round.stretches_eq (h : Round s name rest) :
    stretches none s = name :: stretches none rest := by
  cases h with
  | mk before name rest hb hn => exact stretches_first before name rest hb hn

theorem stretches_of_no_round (h : ∀ name rest, ¬Round s name rest) : stretches none s = [] := by
  rw [List.eq_nil_iff_forall_not_mem]
  intro name hname
  -- Both the first name and a later one stand behind a first round.
  cases (mem_stretches s name).mp hname with
  | here before _ rest hb hn => exact h _ _ (.mk before name rest hb hn)
  | later before first rest _ hb hn _ => exact h _ _ (.mk before first rest hb hn)

/-- Every text has a scan: each round leaves less than there was. -/
theorem exists_scan (s : List Char) : ∃ names, Scan s names := by
  by_cases h : ∃ name rest, Round s name rest
  · obtain ⟨name, rest, hr⟩ := h
    have hless := hr.length_le
    obtain ⟨names, hs⟩ := exists_scan rest
    exact ⟨name :: names, .round s name rest names hr hs⟩
  · exact ⟨[], .finished s (by simpa using h)⟩
termination_by s.length
decreasing_by omega

namespace Scan

theorem stretches_eq (h : Scan s names) : stretches none s = names := by
  induction h with
  | finished s h => exact stretches_of_no_round h
  | round s name rest names hr _ ih => rw [hr.stretches_eq, ih]

theorem iff_stretches : Scan s names ↔ stretches none s = names := by
  refine ⟨stretches_eq, fun h => ?_⟩
  obtain ⟨found, hs⟩ := exists_scan s
  rwa [← h, hs.stretches_eq]

/-- The names and the characters around them all have a place of their own in the text. -/
theorem length_le (h : Scan s names) : names.flatten.length + 2 * names.length ≤ s.length := by
  induction h with
  | finished s h => exact Nat.zero_le _
  | round s name rest names hr _ ih =>
    have hround := hr.length_le
    simp only [List.flatten_cons, List.length_append, List.length_cons]
    omega

/-- What is found stands between an `L` and the next `;`. -/
theorem exists_between (h : Scan s names) : ∀ name ∈ names, ';' ∉ name ∧
    ∃ before rest, s = before ++ 'L' :: (name ++ ';' :: rest) := by
  induction h with
  | finished s h => exact fun _ h => absurd h List.not_mem_nil
  | round s name rest names hr _ ih =>
    cases hr with
    | mk before _ _ hb hn =>
      rw [List.forall_mem_cons]
      refine ⟨⟨hn, before, rest, rfl⟩, fun other hother => ?_⟩
      obtain ⟨hsemi, front, behind, rfl⟩ := ih other hother
      refine ⟨hsemi, before ++ 'L' :: (name ++ ';' :: front), behind, ?_⟩
      simp only [List.append_assoc, List.cons_append]

end Scan

end Rounds

/-- The classes that a descriptor of a field or of a method names are returned, in order. Any text
whatsoever has just one scan, and what is returned are the names that it finds, each of them between
an `L` and the next `;`. -/
theorem descriptors_scanned :
    (∀ type names, FieldDescriptor type names ∨ MethodDescriptor type names →
      descriptorClasses type = names.map binaryName) ∧
    ∀ s, ∃ names, (∀ found, Scan s found ↔ found = names) ∧
      descriptorClasses s = names.map binaryName ∧
      names.flatten.length + 2 * names.length ≤ s.length ∧
      ∀ name ∈ names, ';' ∉ name ∧ ∃ before rest, s = before ++ 'L' :: (name ++ ';' :: rest) := by
  refine ⟨fun type names h => ?_, fun s => ?_⟩
  · have hscan : stretches none type = names :=
      h.elim FieldDescriptor.stretches_eq MethodDescriptor.stretches_eq
    rw [descriptorClasses, hscan]
  · obtain ⟨names, hs⟩ := exists_scan s
    refine ⟨names, fun found => ?_, ?_, hs.length_le, hs.exists_between⟩
    · rw [Scan.iff_stretches, hs.stretches_eq, eq_comm]
    · rw [descriptorClasses, hs.stretches_eq]

/-- Names that hold an `L`, brackets or letters beyond ASCII are found as a whole, and a class that
is named twice is returned twice. -/
theorem tangled_descriptor_scanned :
    MethodDescriptor "(L[L/é;I[[La/b;)La/b;".toList
      ["[L/é".toList, "a/b".toList, "a/b".toList] ∧
    descriptorClasses "(L[L/é;I[[La/b;)La/b;".toList = ["[L.é", "a.b", "a.b"] := by
  have hclass (name : String) (hn : ';' ∉ name.toList) :
      FieldDescriptor ('L' :: (name.toList ++ [';'])) [name.toList] := .class name.toList hn
  have harray : FieldDescriptor "[[La/b;".toList ["a/b".toList] :=
    .array _ _ (.array _ _ (hclass "a/b" (by decide)))
  have hparameters : Parameters "L[L/é;I[[La/b;".toList ["[L/é".toList, "a/b".toList] :=
    .cons _ _ _ _ (hclass "[L/é" (by decide)) (.cons _ _ _ _ (.primitive 'I' (by decide))
      (.cons _ _ _ _ harray .nil))
  have h : MethodDescriptor "(L[L/é;I[[La/b;)La/b;".toList
      ["[L/é".toList, "a/b".toList, "a/b".toList] :=
    .returns _ _ _ _ hparameters (hclass "a/b" (by decide))
  exact ⟨h, descriptors_scanned.1 _ _ (Or.inr h)⟩

/-- Stray text is passed over: the last `L` opens a name that nothing closes. -/
example : descriptorClasses ";xL;[LaLb;L".toList = ["", "aLb"] := by decide

end Retest.ClassFile
