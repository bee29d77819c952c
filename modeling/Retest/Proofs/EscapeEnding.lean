import Retest.Proofs.PatternText

/-! Reading a text that a closing parenthesis follows. A reader that does not get as far as the
parenthesis reads what it would read without it. Here are the smallest readers: those of blanks, of
numbers and names, and of escapes. -/

namespace Retest.Regex

def Extends (u t : List Char) : Prop := u = [] ∨ u = t ++ [')']

def ExtendsBehind {α : Type} (v v' : α × List Char) : Prop :=
  v.2 = [] ∨ v = (v'.1, v'.2 ++ [')'])

theorem ExtendsBehind.of_extends {α : Type} (f : List Char → α × List Char) {u t : List Char}
    {v' : α × List Char} (hu : Extends u t) (hnil : (f []).2 = [])
    (h : ExtendsBehind (f (t ++ [')'])) v') : ExtendsBehind (f u) v' := by
  cases hu with
  | inl hu =>
    rw [hu]
    exact Or.inl hnil
  | inr hu => rwa [hu]

/-- What a reader returns where a closing parenthesis follows, and what it returns without one. The
values agree, and so does what is left but for the parenthesis, unless nothing is left, or the value
and what is left of the text are an exception. -/
def TrimsUnless {α : Type} (E : α → List Char → Prop)
    (r r' : Except SyntaxError (α × List Char)) : Prop :=
  ∀ a rest, r = .ok (a, rest) → rest = [] ∨
    ∃ t, rest = t ++ [')'] ∧ (r' = .ok (a, t) ∨ E a t)

abbrev Trims {α : Type} (r r' : Except SyntaxError (α × List Char)) : Prop :=
  TrimsUnless (fun _ _ => False) r r'

namespace TrimsUnless

variable {α β : Type} {E : α → List Char → Prop} {E' : β → List Char → Prop}
  {P : α → Prop} {u t : List Char} {r r' : Except SyntaxError (α × List Char)}

theorem error {e : SyntaxError} : TrimsUnless E (.error e) r' := by
  intro a rest h
  cases h

theorem ok {a : α} : TrimsUnless E (.ok (a, t ++ [')'])) (.ok (a, t)) := by
  intro b rest h
  cases h
  exact Or.inr ⟨t, rfl, Or.inl rfl⟩

theorem except {a : α} (h : E a t) : TrimsUnless E (.ok (a, t ++ [')'])) r' := by
  intro b rest hr
  cases hr
  exact Or.inr ⟨t, rfl, Or.inr h⟩

theorem mono (h : Trims r r') : TrimsUnless E r r' := by
  intro a rest hr
  obtain hrest | ⟨t, hrest, hr' | hexcept⟩ := h a rest hr
  · exact Or.inl hrest
  · exact Or.inr ⟨t, hrest, Or.inl hr'⟩
  · exact hexcept.elim

/-- From the empty text nothing is left. -/
theorem of_reads_nil (h : Reads [] P r) : TrimsUnless E r r' := by
  intro a rest hr
  exact Or.inl (List.suffix_nil.mp (h a rest hr).2)

/-- The reader took the parenthesis, too. -/
theorem gone {a : α} : TrimsUnless E (.ok (a, [])) r' := by
  intro b rest h
  cases h
  exact Or.inl rfl

/-- A reader may start where the longer text has been used up. -/
theorem of_extends (f : List Char → Except SyntaxError (α × List Char)) (hu : Extends u t)
    (hnil : Reads [] P (f [])) (h : TrimsUnless E (f (t ++ [')'])) r') :
    TrimsUnless E (f u) r' := by
  cases hu with
  | inl hu =>
    rw [hu]
    exact of_reads_nil hnil
  | inr hu => rwa [hu]

theorem ok_extends {a : α} (hu : Extends u t) : TrimsUnless E (.ok (a, u)) (.ok (a, t)) := by
  cases hu with
  | inl hu =>
    rw [hu]
    exact gone
  | inr hu =>
    rw [hu]
    exact ok

variable {f f' : α × List Char → Except SyntaxError (β × List Char)}

theorem bind_unless (hr : TrimsUnless E r r')
    (hnil : ∀ a, Reads [] (fun _ => True) (f (a, [])))
    (hE : ∀ a t, E a t → TrimsUnless E' (f (a, t ++ [')'])) (r' >>= f'))
    (hf : ∀ a t, r' = .ok (a, t) → TrimsUnless E' (f (a, t ++ [')'])) (f' (a, t))) :
    TrimsUnless E' (r >>= f) (r' >>= f') := by
  cases r with
  | error e => exact error
  | ok v =>
    obtain ⟨a, rest⟩ := v
    obtain hrest | ⟨t, hrest, hr' | hexcept⟩ := hr a rest rfl
    · rw [hrest]
      exact of_reads_nil (hnil a)
    · rw [hrest, hr']
      exact hf a t hr'
    · rw [hrest]
      exact hE a t hexcept

theorem bind (hr : Trims r r') (hnil : ∀ a, Reads [] (fun _ => True) (f (a, [])))
    (hf : ∀ a t, r' = .ok (a, t) → TrimsUnless E' (f (a, t ++ [')'])) (f' (a, t))) :
    TrimsUnless E' (r >>= f) (r' >>= f') :=
  hr.bind_unless hnil (fun _ _ h => h.elim) hf

/-- The same for a value that takes nothing from the text. -/
theorem bind_value {x : Except SyntaxError α} {f f' : α → Except SyntaxError (β × List Char)}
    (hf : ∀ a, x = .ok a → TrimsUnless E' (f a) (f' a)) :
    TrimsUnless E' (x >>= f) (x >>= f') := by
  cases x with
  | error e => exact error
  | ok a => exact hf a rfl

/-- A value comes first that takes nothing from the text. -/
theorem value_left {x : Except SyntaxError β} {f : β → Except SyntaxError (α × List Char)}
    (hf : ∀ b, TrimsUnless E (f b) r') : TrimsUnless E (x >>= f) r' := by
  cases x with
  | error e => exact error
  | ok b => exact hf b

end TrimsUnless

section Readers

variable {u t s rest : List Char}

theorem skipComment_extends (s : List Char) :
    Extends (skipComment (s ++ [')'])) (skipComment s) := by
  fun_induction skipComment s with
  | case1 => exact Or.inl rfl
  | case2 rest => exact Or.inr rfl
  | case3 c rest hc ih => rwa [List.cons_append, skipComment.eq_3 _ _ hc]

theorem skipSpace_nil (fuel : Nat) : skipSpace fuel [] = [] := by
  cases fuel <;> rfl

theorem Mode.skip_nil (m : Mode) : m.skip [] = [] := by
  rw [Mode.skip]
  split <;> rfl

theorem skipSpace_extends {fuel fuel' : Nat} (h : s.length < fuel) (h' : s.length ≤ fuel') :
    Extends (skipSpace fuel (s ++ [')'])) (skipSpace fuel' s) := by
  induction fuel generalizing s fuel' with
  | zero => omega
  | succ fuel ih =>
    cases s with
    | nil =>
      rw [skipSpace_nil]
      exact Or.inr rfl
    | cons c rest =>
      obtain ⟨fuel', rfl⟩ : ∃ k, fuel' = k + 1 := ⟨fuel' - 1, by simp at h'; omega⟩
      simp only [List.length_cons] at h h'
      rw [List.cons_append, skipSpace, skipSpace]
      by_cases hblank : isBlank c = true
      · rw [if_pos hblank, if_pos hblank]
        exact ih (by omega) (by omega)
      rw [if_neg hblank, if_neg hblank]
      by_cases hhash : c = '#'
      · rw [if_pos hhash, if_pos hhash]
        have hlength := (skipComment_suffix rest).length_le
        cases skipComment_extends rest with
        | inl hgone =>
          rw [hgone, skipSpace_nil]
          exact Or.inl rfl
        | inr hleft =>
          rw [hleft]
          exact ih (by omega) (by omega)
      · rw [if_neg hhash, if_neg hhash]
        exact Or.inr rfl

theorem Mode.skip_extends (m : Mode) (s : List Char) :
    Extends (m.skip (s ++ [')'])) (m.skip s) := by
  rw [Mode.skip, Mode.skip]
  split
  · exact skipSpace_extends (by simp) (Nat.le_refl _)
  · exact Or.inr rfl

variable (m : Mode)

theorem trims_hexFixed (count n : Nat) (s : List Char) :
    Trims (hexFixed m count n (s ++ [')'])) (hexFixed m count n s) := by
  induction count generalizing n s with
  | zero => exact .ok
  | succ count ih =>
    cases s with
    | nil => exact .error
    | cons c rest =>
      rw [List.cons_append, hexFixed, hexFixed]
      cases hexValue? c with
      | none => exact .error
      | some d =>
        exact .of_extends (hexFixed m count _) (m.skip_extends rest) (reads_hexFixed m _ _ _)
          (ih _ _)

theorem trims_hexBraced {fuel fuel' : Nat} (n : Option Nat) (h : s.length < fuel') :
    Trims (hexBraced m fuel n (s ++ [')'])) (hexBraced m fuel' n s) := by
  induction fuel generalizing n s fuel' with
  | zero => exact .error
  | succ fuel ih =>
    cases s with
    | nil => exact .error
    | cons c rest =>
      obtain ⟨fuel', rfl⟩ : ∃ k, fuel' = k + 1 := ⟨fuel' - 1, by omega⟩
      have hlength := (m.skip_suffix rest).length_le
      simp only [List.length_cons] at h
      by_cases hc : c = '}'
      · cases n with
        | none =>
          rw [List.cons_append, hexBraced, if_pos hc]
          exact .error
        | some v =>
          rw [List.cons_append, hexBraced, hexBraced, if_pos hc, if_pos hc]
          exact .ok_extends (m.skip_extends rest)
      · simp only [List.cons_append, hexBraced, if_neg hc]
        cases hexValue? c with
        | none => exact .error
        | some d =>
          exact .of_extends (hexBraced m fuel _) (m.skip_extends rest) (reads_hexBraced m _ _ _)
            (ih _ (by omega))

theorem trims_bracedText {fuel fuel' : Nat} (acc : List Char) (h : s.length < fuel') :
    Trims (bracedText m fuel acc (s ++ [')'])) (bracedText m fuel' acc s) := by
  induction fuel generalizing acc s fuel' with
  | zero => exact .error
  | succ fuel ih =>
    obtain ⟨fuel', rfl⟩ : ∃ k, fuel' = k + 1 := ⟨fuel' - 1, by omega⟩
    cases s with
    | nil =>
      have hstep : bracedText m (fuel + 1) acc [')'] = bracedText m fuel (')' :: acc) [] := by
        rw [bracedText, if_neg (by decide), Mode.skip_nil]
      rw [List.nil_append, hstep]
      exact .of_reads_nil (reads_bracedText m _ _ _)
    | cons c rest =>
      have hlength := (m.skip_suffix rest).length_le
      simp only [List.length_cons] at h
      rw [List.cons_append, bracedText, bracedText]
      by_cases hc : c = '}'
      · rw [if_pos hc, if_pos hc]
        exact .ok
      · rw [if_neg hc, if_neg hc]
        exact .of_extends (bracedText m fuel _) (m.skip_extends rest) (reads_bracedText m _ _ _)
          (ih _ (by omega))

/-- What an escape with digits ends with: the character of a number, if it is the number of one. -/
def digitsEnd (atom : Char → Atom) (n : Nat) (s : List Char) :
    Except SyntaxError (Atom × List Char) :=
  match charOfCode? n with
  | none => .error .badEscape
  | some c => .ok (atom c, s)

theorem trims_digitsEnd (atom : Char → Atom) (n : Nat) (t : List Char) :
    Trims (digitsEnd atom n (t ++ [')'])) (digitsEnd atom n t) := by
  unfold digitsEnd
  cases charOfCode? n with
  | none => exact .error
  | some c => exact .ok

theorem reads_digitsEnd (atom : Char → Atom) (n : Nat) (s : List Char) :
    Reads s (fun _ => True) (digitsEnd atom n s) := by
  unfold digitsEnd
  cases charOfCode? n with
  | none => exact .error
  | some c => exact .ok trivial List.suffix_rfl

theorem trims_hexEscape (count : Nat) (s : List Char) :
    Trims (hexEscape m (count + 1) (s ++ [')'])) (hexEscape m (count + 1) s) := by
  unfold hexEscape
  cases m.skip_extends s with
  | inl hs =>
    rw [hs]
    exact .error
  | inr hs =>
    rw [hs]
    cases m.skip s with
    | nil => exact .error
    | cons c rest =>
      rw [List.cons_append]
      by_cases hbrace : c = '{'
      · subst hbrace
        have hbraced : Trims (hexBraced m ((m.skip (rest ++ [')'])).length + 1) none
            (m.skip (rest ++ [')']))) (hexBraced m ((m.skip rest).length + 1) none (m.skip rest)) :=
          .of_extends (fun u => hexBraced m (u.length + 1) none u) (m.skip_extends rest)
            (reads_hexBraced m _ _ _) (trims_hexBraced m none (Nat.lt_succ_self _))
        exact hbraced.bind (fun n => reads_digitsEnd .literal n []) fun n t _ =>
          trims_digitsEnd .literal n t
      · split
        · contradiction
        · next hc =>
          cases hc
          exact absurd rfl hbrace
        · next hc =>
          cases hc
          have hfixed := trims_hexFixed m (count + 1) 0 (c :: rest)
          exact hfixed.bind (fun n => reads_digitsEnd _ n []) fun n t _ => trims_digitsEnd _ n t

theorem trims_propertyEscape (negated : Bool) (s : List Char) :
    Trims (propertyEscape m negated (s ++ [')'])) (propertyEscape m negated s) := by
  unfold propertyEscape
  cases m.skip_extends s with
  | inl hs =>
    rw [hs]
    exact .error
  | inr hs =>
    rw [hs]
    cases m.skip s with
    | nil =>
      rw [List.nil_append]
      change Trims (namedSet [')'] >>= fun r => .ok (.property r.1 negated, m.skip [])) _
      rw [Mode.skip_nil]
      exact .of_reads_nil
        (Reads.bind_value (Q := fun _ => True) fun set _ => .ok trivial List.suffix_rfl)
    | cons c rest =>
      rw [List.cons_append]
      by_cases hbrace : c = '{'
      · subst hbrace
        have htext : Trims (bracedText m ((m.skip (rest ++ [')'])).length + 1) []
            (m.skip (rest ++ [')']))) (bracedText m ((m.skip rest).length + 1) [] (m.skip rest)) :=
          .of_extends (fun u => bracedText m (u.length + 1) [] u) (m.skip_extends rest)
            (reads_bracedText m _ _ _) (trims_bracedText m [] (Nat.lt_succ_self _))
        refine htext.bind ?_ ?_
        · intro text
          exact .bind_value fun set _ => .ok trivial List.suffix_rfl
        · intro text t _
          exact .bind_value fun set _ => .ok
      · split
        · contradiction
        · next hc =>
          cases hc
          exact absurd rfl hbrace
        · next hc =>
          cases hc
          split
          · exact .error
          · exact .bind_value fun set _ => .ok_extends (m.skip_extends rest)

theorem boundaryName_nil (fuel : Nat) (acc : List Char) :
    boundaryName m fuel acc [] = (acc.reverse, []) := by
  cases fuel <;> rfl

/-- A name ends where nothing is left, or where it ends without the parenthesis. -/
theorem boundaryName_extends {fuel fuel' : Nat} (acc : List Char) (h : s.length < fuel)
    (h' : s.length ≤ fuel') :
    ExtendsBehind (boundaryName m fuel acc (s ++ [')'])) (boundaryName m fuel' acc s) := by
  induction fuel generalizing acc s fuel' with
  | zero => omega
  | succ fuel ih =>
    cases s with
    | nil =>
      rw [boundaryName_nil]
      exact Or.inr rfl
    | cons c rest =>
      obtain ⟨fuel', rfl⟩ : ∃ k, fuel' = k + 1 := ⟨fuel' - 1, by simp at h'; omega⟩
      have hlength := (m.skip_suffix rest).length_le
      simp only [List.length_cons] at h h'
      rw [List.cons_append, boundaryName, boundaryName]
      by_cases hc : isBoundaryNameChar c = true
      · rw [if_pos hc, if_pos hc]
        exact .of_extends (boundaryName m fuel _) (m.skip_extends rest)
          (by rw [boundaryName_nil]) (ih _ (by omega) (by omega))
      · rw [if_neg hc, if_neg hc]
        exact Or.inr rfl

def LoneBrace (m : Mode) (t : List Char) : Prop := ∃ r, t = '{' :: r ∧ m.skip r = []

theorem boundaryEscape_of_ne {c : Char} (h : c ≠ '{') (rest : List Char) :
    boundaryEscape m (c :: rest) = .ok (.assertion (.wordBoundary m.wide), c :: rest) := by
  unfold boundaryEscape
  split
  · next hc =>
    cases hc
    exact absurd rfl h
  · rfl

def namedBoundary (m : Mode) : List Char × List Char → Except SyntaxError (Atom × List Char)
  | (name, '}' :: rest) =>
    match String.ofList name with
    | "start" => .ok (.assertion (.wordStart m.wide), rest)
    | "end" => .ok (.assertion (.wordEnd m.wide), rest)
    | "start-half" => .ok (.assertion (.wordStartHalf m.wide), rest)
    | "end-half" => .ok (.assertion (.wordEndHalf m.wide), rest)
    | _ => .error .badEscape
  | _ => .error .badEscape

theorem boundaryEscape_brace (rest : List Char) : boundaryEscape m ('{' :: rest) =
    match m.skip rest with
    | [] => .error .unexpectedEnd
    | c :: more =>
      if !isBoundaryNameChar c then .ok (.assertion (.wordBoundary m.wide), '{' :: rest)
      else namedBoundary m (boundaryName m (more.length + 1) [] (c :: more)) := rfl

theorem namedBoundary_of_ne {c : Char} (h : c ≠ '}') (name t : List Char) :
    namedBoundary m (name, c :: t) = .error .badEscape := by
  unfold namedBoundary
  split
  · next hpair =>
    cases hpair
    exact absurd rfl h
  · rfl

theorem trims_namedBoundary {v v' : List Char × List Char} (h : ExtendsBehind v v') :
    Trims (namedBoundary m v) (namedBoundary m v') := by
  obtain ⟨name, t⟩ := v'
  cases h with
  | inl hgone =>
    obtain ⟨name', u⟩ := v
    cases hgone
    exact .error
  | inr hleft =>
    rw [hleft]
    cases t with
    | nil => exact .error
    | cons c t =>
      by_cases hc : c = '}'
      · subst hc
        simp only [namedBoundary, List.cons_append]
        split
        case h_5 => exact .error
        all_goals exact .ok
      · rw [List.cons_append, namedBoundary_of_ne m hc, namedBoundary_of_ne m hc]
        exact .error

/-- The exception is a word boundary with a brace behind it that opens no name, for the parenthesis
follows. Without the parenthesis the text ends where a name might. -/
theorem trims_boundaryEscape (s : List Char) :
    TrimsUnless (fun x t => (∃ a, x = .assertion a) ∧ LoneBrace m t)
      (boundaryEscape m (s ++ [')'])) (boundaryEscape m s) := by
  cases s with
  | nil => exact .ok
  | cons c rest =>
    by_cases hbrace : c = '{'
    · subst hbrace
      rw [List.cons_append, boundaryEscape_brace, boundaryEscape_brace]
      cases m.skip_extends rest with
      | inl hs =>
        rw [hs]
        exact .error
      | inr hs =>
        rw [hs]
        cases ht : m.skip rest with
        | nil =>
          have hloose : (!isBoundaryNameChar ')') = true := by decide
          dsimp only [List.nil_append]
          rw [if_pos hloose]
          exact .except (t := '{' :: rest) ⟨⟨_, rfl⟩, rest, rfl, ht⟩
        | cons c more =>
          have hname : ExtendsBehind
              (boundaryName m ((more ++ [')']).length + 1) [] (c :: (more ++ [')'])))
              (boundaryName m (more.length + 1) [] (c :: more)) :=
            boundaryName_extends m [] (s := c :: more) (by simp) (by simp)
          simp only [List.cons_append]
          split
          · exact .ok (t := '{' :: rest)
          · exact (trims_namedBoundary m hname).mono
    · rw [List.cons_append, boundaryEscape_of_ne m hbrace, boundaryEscape_of_ne m hbrace]
      exact .ok (t := c :: rest)

theorem trims_escape (s : List Char) :
    TrimsUnless (fun x t => (∃ a, x = .assertion a) ∧ LoneBrace m t)
      (escape m (s ++ [')'])) (escape m s) := by
  cases s with
  | nil => exact .gone
  | cons c rest =>
    unfold escape
    dsimp only [List.cons_append]
    split
    · exact .error
    split
    · exact .ok
    split
    case h_1 | h_2 | h_3 => exact (trims_hexEscape m _ rest).mono
    case h_4 | h_5 => exact (trims_propertyEscape m _ rest).mono
    case h_20 => exact trims_boundaryEscape m rest
    case h_24 => exact .error
    all_goals exact .ok

end Readers

end Retest.Regex
