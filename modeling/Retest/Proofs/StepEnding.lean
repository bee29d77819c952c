import Retest.Proofs.BracketEnding

/-! Reading the start of a group, the counts of a repetition and whole steps where a closing
parenthesis follows the text. -/

namespace Retest.Regex

section Readers

variable {u t s rest : List Char} (m : Mode)

theorem readFlags_trims {used used' : List Char} {off dangling : Bool} {m' : Mode} {e : FlagsEnd}
    (h : readFlags m used off dangling (s ++ [')']) = .ok (m', used', e, rest)) :
    rest = [] ∨ ∃ t, rest = t ++ [')'] ∧
      readFlags m used off dangling s = .ok (m', used', e, t) := by
  induction s generalizing m used off dangling with
  | nil =>
    rw [List.nil_append, readFlags, if_pos (Or.inr rfl)] at h
    split at h
    · cases h
    · cases h
      exact Or.inl rfl
  | cons c s ih =>
    rw [List.cons_append, readFlags] at h
    rw [readFlags]
    by_cases hend : c = ':' ∨ c = ')'
    · rw [if_pos hend] at h ⊢
      split at h
      · cases h
      · next hdangling =>
        cases h
        exact Or.inr ⟨s, rfl, by rw [if_neg hdangling]⟩
    rw [if_neg hend] at h ⊢
    by_cases hhyphen : c = '-'
    · rw [if_pos hhyphen] at h ⊢
      split at h
      · cases h
      · next hoff =>
        rw [if_neg hoff]
        exact ih m h
    rw [if_neg hhyphen] at h ⊢
    cases hflag : m.setFlag? (!off) c with
    | none =>
      rw [hflag] at h
      cases h
    | some m₁ =>
      rw [hflag] at h
      dsimp only at h ⊢
      split at h
      · cases h
      · next hused =>
        rw [if_neg hused]
        exact ih m₁ h

theorem trims_groupName (acc s : List Char) :
    Trims (groupName acc (s ++ [')'])) (groupName acc s) := by
  induction s generalizing acc with
  | nil =>
    simp only [List.nil_append, groupName]
    rw [if_neg (by decide)]
    split
    · exact .error
    · exact .error
  | cons c s ih =>
    rw [List.cons_append, groupName, groupName]
    split
    · split
      · exact .error
      · exact .ok
    · split
      · exact ih _
      · exact .error

theorem trims_namedGroup (g : Progress) (s : List Char) :
    Trims (namedGroup g (s ++ [')'])) (namedGroup g s) := by
  unfold namedGroup
  refine (trims_groupName [] s).bind ?_ ?_
  · intro name
    dsimp only
    split
    · exact .error
    · exact .ok trivial List.suffix_rfl
  · intro name t _
    dsimp only
    split
    · exact .error
    · exact .ok

def flagGroup (g : Progress) (s : List Char) : Except SyntaxError (Progress × List Char) := do
  let (mode, used, ending, more) ← readFlags g.mode [] false false s
  match ending with
  | .group => return (g.openGroup mode false, more)
  | .alone =>
    if used = [] then .error .nothingToRepeat
    else return ({ g with mode := mode }.add ⟨.empty, 0, false⟩, more)

theorem trims_flagGroup (g : Progress) (s : List Char) :
    Trims (flagGroup g (s ++ [')'])) (flagGroup g s) := by
  unfold flagGroup
  cases hflags : readFlags g.mode [] false false (s ++ [')']) with
  | error e => exact .error
  | ok v =>
    obtain ⟨mode, used, ending, more⟩ := v
    obtain hmore | ⟨t, hmore, hown⟩ := readFlags_trims g.mode hflags
    · rw [hmore]
      cases ending with
      | group => exact .gone
      | alone =>
        simp only [bind, Except.bind]
        split
        · exact .error
        · exact .gone
    · rw [hmore, hown]
      cases ending with
      | group => exact .ok
      | alone =>
        simp only [bind, Except.bind]
        split
        · exact .error
        · exact .ok

def markedGroup (g : Progress) : List Char → Except SyntaxError (Progress × List Char)
  | '=' :: _ | '!' :: _ | '<' :: '=' :: _ | '<' :: '!' :: _ => .error .lookAround
  | 'P' :: '<' :: rest => namedGroup g rest
  | '<' :: rest => namedGroup g rest
  | s => flagGroup g s

theorem readGroup_eq (g : Progress) (s : List Char) : readGroup g s =
    match g.mode.skip s with
    | '?' :: rest => markedGroup g rest
    | s => .ok (g.openGroup g.mode true, s) := by
  unfold readGroup
  generalize g.mode.skip s = t
  split
  · rfl
  · rfl
  · rfl
  · rfl
  · rfl
  · simp only [markedGroup]
  · simp only [markedGroup]
    rfl
  · next hmark =>
    split
    · exact absurd rfl (hmark _)
    · rfl

theorem markedGroup_of_ne (g : Progress) {s : List Char}
    (h : ∀ c ∈ ['=', '!', '<'], s.head? ≠ some c) (hname : ∀ rest, s ≠ 'P' :: '<' :: rest) :
    markedGroup g s = flagGroup g s := by
  unfold markedGroup
  split
  · exact absurd rfl (h '=' (by simp))
  · exact absurd rfl (h '!' (by simp))
  · exact absurd rfl (h '<' (by simp))
  · exact absurd rfl (h '<' (by simp))
  · exact absurd rfl (hname _)
  · exact absurd rfl (h '<' (by simp))
  · rfl

theorem trims_markedGroup (g : Progress) (s : List Char) :
    Trims (markedGroup g (s ++ [')'])) (markedGroup g s) := by
  cases s with
  | nil => exact trims_flagGroup g []
  | cons c t =>
    by_cases hlook : c = '=' ∨ c = '!'
    · obtain rfl | rfl := hlook <;> exact .error
    obtain ⟨hequal, hmark⟩ := not_or.mp hlook
    by_cases hangle : c = '<'
    · subst hangle
      cases t with
      | nil => exact trims_namedGroup g []
      | cons d t =>
        by_cases hbehind : d = '=' ∨ d = '!'
        · obtain rfl | rfl := hbehind <;> exact .error
        obtain ⟨hequal, hmark⟩ := not_or.mp hbehind
        have hnamed (v : List Char) : markedGroup g ('<' :: d :: v) = namedGroup g (d :: v) := by
          simp only [markedGroup, List.cons.injEq, hequal, hmark, false_and, imp_false,
            not_false_eq_true, implies_true]
        rw [List.cons_append, List.cons_append, hnamed, hnamed]
        exact trims_namedGroup g (d :: t)
    have hhead (v : List Char) : ∀ d ∈ ['=', '!', '<'], (c :: v).head? ≠ some d := by
      simp [hequal, hmark, hangle]
    by_cases hname : ∃ rest, c :: t = 'P' :: '<' :: rest
    · obtain ⟨rest, hrest⟩ := hname
      cases hrest
      exact trims_namedGroup g rest
    · have hlonger : ∀ rest, c :: (t ++ [')']) ≠ 'P' :: '<' :: rest := by
        intro rest heq
        cases t with
        | nil => cases heq
        | cons d t =>
          cases heq
          exact hname ⟨t, rfl⟩
      rw [List.cons_append, markedGroup_of_ne g (hhead _) hlonger,
        markedGroup_of_ne g (hhead _) fun rest heq => hname ⟨rest, heq⟩]
      exact trims_flagGroup g (c :: t)

theorem trims_readGroup (g : Progress) (s : List Char) :
    Trims (readGroup g (s ++ [')'])) (readGroup g s) := by
  rw [readGroup_eq, readGroup_eq]
  cases g.mode.skip_extends s with
  | inl hs =>
    rw [hs]
    exact .gone
  | inr hs =>
    rw [hs]
    cases g.mode.skip s with
    | nil => exact .ok (t := [])
    | cons c t =>
      by_cases hmark : c = '?'
      · subst hmark
        exact trims_markedGroup g t
      · simp only [List.cons_append, List.cons.injEq, hmark, false_and, imp_false,
          not_false_eq_true, implies_true]
        exact .ok (t := c :: t)

theorem decimalLoop_nil (fuel : Nat) (n : Option Nat) : decimalLoop m fuel n [] = (n, []) := by
  cases fuel <;> rfl

theorem decimalLoop_extends {fuel fuel' : Nat} (n : Option Nat) (h : s.length < fuel)
    (h' : s.length ≤ fuel') :
    ExtendsBehind (decimalLoop m fuel n (s ++ [')'])) (decimalLoop m fuel' n s) := by
  induction fuel generalizing n s fuel' with
  | zero => omega
  | succ fuel ih =>
    cases s with
    | nil =>
      rw [decimalLoop_nil]
      exact Or.inr rfl
    | cons c rest =>
      obtain ⟨fuel', rfl⟩ : ∃ k, fuel' = k + 1 := ⟨fuel' - 1, by simp at h'; omega⟩
      have hlength := (m.skip_suffix rest).length_le
      simp only [List.length_cons] at h h'
      rw [List.cons_append, decimalLoop, decimalLoop]
      by_cases hc : c.isDigit = true
      · rw [if_pos hc, if_pos hc]
        exact .of_extends (decimalLoop m fuel _) (m.skip_extends rest)
          (by rw [decimalLoop_nil]) (ih _ (by omega) (by omega))
      · rw [if_neg hc, if_neg hc]
        exact Or.inr rfl

def behindCount (m : Mode) (s : List Char) : List Char :=
  if m.spaced then m.skip (s.dropWhile isBlank) else s.dropWhile isBlank

def countValue : Option Nat → Except SyntaxError Nat
  | none => .error .badRepetition
  | some k => if k < 0x100000000 then .ok k else .error .badRepetition

theorem countOf_eq (s : List Char) : countOf m s =
    (countValue (decimalLoop m ((s.dropWhile isBlank).length + 1) none (s.dropWhile isBlank)).1,
      behindCount m
        (decimalLoop m ((s.dropWhile isBlank).length + 1) none (s.dropWhile isBlank)).2) := by
  unfold countOf
  dsimp only
  generalize decimalLoop m ((s.dropWhile isBlank).length + 1) none (s.dropWhile isBlank) = v
  obtain ⟨n, t⟩ := v
  cases n <;> rfl

theorem behindCount_nil : behindCount m [] = [] := by
  rw [behindCount, List.dropWhile_nil, Mode.skip_nil, ite_self]

theorem behindCount_extends (s : List Char) :
    Extends (behindCount m (s ++ [')'])) (behindCount m s) := by
  unfold behindCount
  rw [dropWhile_isBlank_append]
  split
  · exact m.skip_extends _
  · exact Or.inr rfl

theorem countOf_extends (s : List Char) :
    ExtendsBehind (countOf m (s ++ [')'])) (countOf m s) := by
  have hdigits : ExtendsBehind
      (decimalLoop m ((s.dropWhile isBlank ++ [')']).length + 1) none
        (s.dropWhile isBlank ++ [')']))
      (decimalLoop m ((s.dropWhile isBlank).length + 1) none (s.dropWhile isBlank)) :=
    decimalLoop_extends m none (by rw [List.length_append]; omega) (by omega)
  rw [countOf_eq, countOf_eq, dropWhile_isBlank_append]
  cases hdigits with
  | inl hgone =>
    rw [hgone, behindCount_nil]
    exact Or.inl rfl
  | inr hleft =>
    rw [hleft]
    cases behindCount_extends m
        (decimalLoop m ((s.dropWhile isBlank).length + 1) none (s.dropWhile isBlank)).2 with
    | inl hgone => exact Or.inl hgone
    | inr hend => exact Or.inr (Prod.ext rfl hend)

def secondCount (m : Mode) (first : Except SyntaxError Nat) (s : List Char) :
    Except SyntaxError ((Nat × Option Nat) × List Char) :=
  match countOf m s with
  | (second, '}' :: rest) => do
    let low ← first
    let high ← second
    if high < low then .error .badRepetition else return ((low, some high), rest)
  | _ => .error .badRepetition

def countsHere (m : Mode) (s : List Char) : Except SyntaxError ((Nat × Option Nat) × List Char) :=
  match countOf m s with
  | (first, ',' :: rest) =>
    match m.skip rest with
    | '}' :: rest => do return ((← first, none), rest)
    | [] => .error .badRepetition
    | rest => secondCount m first rest
  | (first, '}' :: rest) => do
    let n ← first
    return ((n, some n), rest)
  | _ => .error .badRepetition

theorem readCounts_eq (s : List Char) : readCounts m s =
    match m.skip s with
    | [] => .error .badRepetition
    | s => countsHere m s := by
  unfold readCounts countsHere secondCount
  cases m.skip s <;> rfl

theorem secondCount_of_not_mem (first : Except SyntaxError Nat) {s : List Char} (h : '}' ∉ s) :
    secondCount m first s = .error .badRepetition := by
  have hsuffix := countOf_suffix m s
  unfold secondCount
  split
  · next second rest hcount =>
    rw [hcount] at hsuffix
    exact absurd (hsuffix.subset List.mem_cons_self) h
  · rfl

theorem countsHere_of_not_mem {s : List Char} (hcomma : ',' ∉ s) (hbrace : '}' ∉ s) :
    countsHere m s = .error .badRepetition := by
  have hsuffix := countOf_suffix m s
  unfold countsHere
  split
  · next first rest hcount =>
    rw [hcount] at hsuffix
    exact absurd (hsuffix.subset List.mem_cons_self) hcomma
  · next first rest hcount =>
    rw [hcount] at hsuffix
    exact absurd (hsuffix.subset List.mem_cons_self) hbrace
  · rfl

theorem trims_secondCount (first : Except SyntaxError Nat) (s : List Char) :
    Trims (secondCount m first (s ++ [')'])) (secondCount m first s) := by
  unfold secondCount
  cases countOf_extends m s with
  | inl hgone =>
    split
    · next second rest hcount =>
      rw [hcount] at hgone
      cases hgone
    · exact .error
  | inr hleft =>
    rw [hleft]
    generalize countOf m s = v
    obtain ⟨second, t⟩ := v
    cases t with
    | nil => exact .error
    | cons c t =>
      by_cases hc : c = '}'
      · subst hc
        refine .bind_value fun low _ => .bind_value fun high _ => ?_
        split
        · exact .error
        · exact .ok
      · split
        · next heq =>
          cases heq
          exact absurd rfl hc
        · exact .error

theorem trims_countsHere (s : List Char) :
    Trims (countsHere m (s ++ [')'])) (countsHere m s) := by
  unfold countsHere
  cases countOf_extends m s with
  | inl hgone =>
    split
    · next first rest hcount =>
      rw [hcount] at hgone
      cases hgone
    · next first rest hcount =>
      rw [hcount] at hgone
      cases hgone
    · exact .error
  | inr hleft =>
    rw [hleft]
    generalize countOf m s = v
    obtain ⟨first, t⟩ := v
    cases t with
    | nil => exact .error
    | cons c t =>
      by_cases hcomma : c = ','
      · subst hcomma
        simp only [List.cons_append]
        cases m.skip_extends t with
        | inl hs =>
          rw [hs]
          exact .error
        | inr hs =>
          rw [hs]
          cases m.skip t with
          | nil =>
            change Trims (secondCount m first [')']) _
            rw [secondCount_of_not_mem m first (by decide)]
            exact .error
          | cons d t =>
            by_cases hend : d = '}'
            · subst hend
              exact .bind_value fun low _ => .ok
            · simp only [List.cons_append, List.cons.injEq, hend, false_and, imp_false,
                not_false_eq_true, implies_true]
              exact trims_secondCount m first (d :: t)
      by_cases hbrace : c = '}'
      · subst hbrace
        exact .bind_value fun n _ => .ok
      · split
        · next heq =>
          cases heq
          exact absurd rfl hcomma
        · next heq =>
          cases heq
          exact absurd rfl hbrace
        · exact .error

/-- A repetition does not end where nothing but the parenthesis follows. -/
theorem readCounts_lone {s : List Char} (h : m.skip s = []) :
    readCounts m (s ++ [')']) = .error .badRepetition := by
  rw [readCounts_eq]
  cases m.skip_extends s with
  | inl hs => rw [hs]
  | inr hs =>
    rw [hs, h]
    exact countsHere_of_not_mem m (by decide) (by decide)

theorem trims_readCounts (s : List Char) :
    Trims (readCounts m (s ++ [')'])) (readCounts m s) := by
  cases ht : m.skip s with
  | nil =>
    rw [readCounts_lone m ht]
    exact .error
  | cons c t =>
    rw [readCounts_eq, readCounts_eq]
    cases m.skip_extends s with
    | inl hs =>
      rw [hs]
      exact .error
    | inr hs =>
      rw [hs, ht]
      exact trims_countsHere m (c :: t)

theorem skipPreference_extends (h : Extends u t) :
    Extends (skipPreference u) (skipPreference t) := by
  cases h with
  | inl hu =>
    rw [hu]
    exact Or.inl rfl
  | inr hu =>
    rw [hu]
    cases t with
    | nil => exact Or.inr rfl
    | cons c t =>
      by_cases hc : c = '?'
      · subst hc
        exact Or.inr rfl
      · simp only [List.cons_append, skipPreference, List.cons.injEq, hc, false_and, imp_false,
          not_false_eq_true, implies_true]
        exact Or.inr rfl

/-- The exception is a word boundary with a brace behind it that would open a name. -/
theorem trims_readStep (g : Progress) {c : Char} (hc : c ≠ ')') (s : List Char) :
    TrimsUnless (fun g' t => g'.mode = g.mode ∧ LoneBrace g.mode t)
      (readStep g c (s ++ [')'])) (readStep g c s) := by
  have hsame : Extends (s ++ [')']) s := Or.inr rfl
  unfold readStep
  split
  · exact (trims_readGroup g s).mono
  · exact absurd rfl hc
  · exact .ok
  · refine (trims_bracketClass g.mode s).bind ?_ ?_
    · exact fun n => .ok trivial List.suffix_rfl
    · exact fun n t _ => .ok
  · exact .bind_value fun g' _ => .ok_extends (skipPreference_extends hsame)
  · exact .bind_value fun g' _ => .ok_extends (skipPreference_extends hsame)
  · exact .bind_value fun g' _ => .ok_extends (skipPreference_extends hsame)
  · split
    · exact .error
    · refine (trims_readCounts g.mode s).bind ?_ ?_
      · intro counts
        dsimp only
        rw [Mode.skip_nil]
        exact .bind_value fun g' _ => .ok trivial List.suffix_rfl
      · intro counts t _
        exact .bind_value fun g' _ => .ok_extends (skipPreference_extends (g.mode.skip_extends t))
  · refine (trims_escape g.mode s).bind_unless ?_ ?_ ?_
    · intro atom
      exact .bind_value fun p _ => .ok trivial List.suffix_rfl
    · intro atom t hexcept
      exact .value_left fun p => .except ⟨rfl, hexcept.2⟩
    · intro atom t _
      exact .bind_value fun p _ => .ok
  · exact .bind_value fun p _ => .ok

end Readers

end Retest.Regex
