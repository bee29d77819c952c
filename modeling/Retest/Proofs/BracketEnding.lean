import Retest.Proofs.EscapeEnding

/-! Reading a class in brackets that a closing parenthesis follows. The parenthesis could be a
member of the class, but then the class would not end. -/

namespace Retest.Regex

variable {s rest : List Char} (m : Mode)

theorem leadingHyphens_nil (fuel : Nat) (b : OpenBracket) :
    leadingHyphens m fuel b [] = (b, []) := by
  cases fuel <;> rfl

theorem leadingHyphens_extends {fuel fuel' : Nat} (b : OpenBracket) (h : s.length < fuel)
    (h' : s.length ≤ fuel') :
    ExtendsBehind (leadingHyphens m fuel b (s ++ [')'])) (leadingHyphens m fuel' b s) := by
  induction fuel generalizing b s fuel' with
  | zero => omega
  | succ fuel ih =>
    cases s with
    | nil =>
      rw [leadingHyphens_nil]
      exact Or.inr rfl
    | cons c rest =>
      obtain ⟨fuel', rfl⟩ : ∃ k, fuel' = k + 1 := ⟨fuel' - 1, by simp at h'; omega⟩
      have hlength := (m.skip_suffix rest).length_le
      simp only [List.length_cons] at h h'
      by_cases hc : c = '-'
      · subst hc
        rw [List.cons_append, leadingHyphens, leadingHyphens]
        exact .of_extends (leadingHyphens m fuel _) (m.skip_extends rest)
          (by rw [leadingHyphens_nil]) (ih _ (by omega) (by omega))
      · have hstop (k : Nat) (t : List Char) :
            leadingHyphens m (k + 1) b (c :: t) = (b, c :: t) := by
          rw [leadingHyphens]
          intro rest heq
          cases heq
          exact hc rfl
        rw [List.cons_append, hstop, hstop]
        exact Or.inr rfl

def openMembers (m : Mode) (negated : Bool) (s : List Char) :
    Except SyntaxError (OpenBracket × List Char) :=
  let (b, s) := leadingHyphens m (s.length + 1) ⟨negated, none, []⟩ s
  match s with
  | [] => .error .badClass
  | ']' :: rest =>
    if b.members = [] then
      match m.skip rest with
      | [] => .error .badClass
      | s => .ok (b.add ⟨.single ']', 0⟩, s)
    else .ok (b, ']' :: rest)
  | s => .ok (b, s)

theorem openBracket_eq (s : List Char) : openBracket m s =
    match m.skip s with
    | '^' :: rest => openMembers m true (m.skip rest)
    | s => openMembers m false s := by
  unfold openBracket
  generalize m.skip s = t
  cases t with
  | nil => rfl
  | cons c rest =>
    by_cases hcaret : c = '^'
    · subst hcaret
      rfl
    · simp only [List.cons.injEq, hcaret, false_and, imp_false, not_false_eq_true, implies_true]
      rfl

/-- The exception is a bracket whose first member would be the parenthesis. -/
theorem trims_openMembers (negated : Bool) (s : List Char) :
    TrimsUnless (fun _ t => t = []) (openMembers m negated (s ++ [')']))
      (openMembers m negated s) := by
  have hyphens : ExtendsBehind
      (leadingHyphens m ((s ++ [')']).length + 1) ⟨negated, none, []⟩ (s ++ [')']))
      (leadingHyphens m (s.length + 1) ⟨negated, none, []⟩ s) :=
    leadingHyphens_extends m _ (by rw [List.length_append]; omega) (Nat.le_succ _)
  unfold openMembers
  cases hyphens with
  | inl hgone =>
    split
    next b rest hb =>
    rw [hb] at hgone
    cases hgone
    exact .error
  | inr hleft =>
    rw [hleft]
    generalize leadingHyphens m (s.length + 1) ⟨negated, none, []⟩ s = v
    obtain ⟨b, t⟩ := v
    cases t with
    | nil => exact .except (t := []) rfl
    | cons c rest =>
      simp only [List.cons_append]
      by_cases hbracket : c = ']'
      · subst hbracket
        simp only
        split
        · cases m.skip_extends rest with
          | inl hs =>
            rw [hs]
            exact .error
          | inr hs =>
            rw [hs]
            cases m.skip rest with
            | nil => exact .except (t := []) rfl
            | cons c more => exact .ok (t := c :: more)
        · exact .ok (t := ']' :: rest)
      · simp only [List.cons.injEq, hbracket, false_and, imp_false, not_false_eq_true, implies_true]
        exact .ok (t := c :: rest)

theorem trims_openBracket (s : List Char) :
    TrimsUnless (fun _ t => t = []) (openBracket m (s ++ [')'])) (openBracket m s) := by
  have hnil : openMembers m true [] = .error .badClass := rfl
  rw [openBracket_eq, openBracket_eq]
  cases m.skip_extends s with
  | inl hs =>
    rw [hs]
    exact .error
  | inr hs =>
    rw [hs]
    cases m.skip s with
    | nil => exact .except (t := []) rfl
    | cons c rest =>
      simp only [List.cons_append]
      by_cases hcaret : c = '^'
      · subst hcaret
        cases m.skip_extends rest with
        | inl hs =>
          simp only [hs, hnil]
          exact .error
        | inr hs =>
          simp only [hs]
          exact trims_openMembers m true _
      · simp only [List.cons.injEq, hcaret, false_and, imp_false, not_false_eq_true, implies_true]
        exact trims_openMembers m false (c :: rest)

/-- Cutting a text behind its first characters of some kind. -/
theorem dropWhile_append_cases (q : Char → Bool) (hq : q ')' = true) (s : List Char) :
    s.dropWhile q = [] ∧ (s ++ [')']).dropWhile q = [] ∨
      ∃ c t, s.dropWhile q = c :: t ∧ (s ++ [')']).dropWhile q = c :: (t ++ [')']) ∧
        (s ++ [')']).takeWhile q = s.takeWhile q := by
  induction s with
  | nil => simp [hq]
  | cons c s ih =>
    by_cases hc : q c = true
    · rw [List.cons_append, List.dropWhile_cons_of_pos hc, List.dropWhile_cons_of_pos hc,
        List.takeWhile_cons_of_pos hc, List.takeWhile_cons_of_pos hc]
      obtain hnil | ⟨d, t, hs, hs', ht⟩ := ih
      · exact Or.inl hnil
      · exact Or.inr ⟨d, t, hs, hs', by rw [ht]⟩
    · rw [List.cons_append, List.dropWhile_cons_of_neg hc, List.dropWhile_cons_of_neg hc,
        List.takeWhile_cons_of_neg hc, List.takeWhile_cons_of_neg hc]
      exact Or.inr ⟨c, s, rfl, rfl, rfl⟩

def classRest? (m : Mode) (negated : Bool) (s : List Char) :
    Option (Except SyntaxError Nested × List Char) :=
  match s.dropWhile (· ≠ ':') with
  | ':' :: ']' :: more =>
    (asciiClass? (s.takeWhile (· ≠ ':'))).map fun set =>
      (if negated && !m.wide then .error .notAscii
        else .ok ⟨(m.fold set).negateIf negated, 0⟩, more)
  | _ => none

theorem namedClass_eq (s : List Char) : namedClass? m ('[' :: ':' :: s) =
    match s with
    | '^' :: rest => classRest? m true rest
    | s => classRest? m false s := by
  cases s with
  | nil => rfl
  | cons c s =>
    by_cases hc : c = '^'
    · subst hc
      rfl
    · simp only [namedClass?, List.cons.injEq, hc, false_and, imp_false, not_false_eq_true,
        implies_true]
      rfl

theorem namedClass_of_ne {s : List Char} (h : ∀ r, s ≠ '[' :: ':' :: r) :
    namedClass? m s = none := by
  unfold namedClass?
  split
  · next r => exact absurd rfl (h r)
  · rfl

theorem classRest_append (negated : Bool) (s : List Char) :
    classRest? m negated (s ++ [')']) =
      (classRest? m negated s).map fun r => (r.1, r.2 ++ [')']) := by
  unfold classRest?
  obtain ⟨hs, hs'⟩ | ⟨c, t, hs, hs', ht⟩ :=
    dropWhile_append_cases (· ≠ ':') (by decide) s
  · rw [hs, hs']
    rfl
  · rw [hs, hs', ht]
    have hnone {u : List Char} {γ : Type} (f : List Char → Option γ)
        (h : ∀ more, u ≠ ':' :: ']' :: more) :
        (match u with | ':' :: ']' :: more => f more | _ => none) = none := by
      split
      · next more => exact absurd rfl (h more)
      · rfl
    by_cases hend : ∃ more, c :: t = ':' :: ']' :: more
    · obtain ⟨more, hmore⟩ := hend
      cases hmore
      cases asciiClass? (s.takeWhile (· ≠ ':')) <;> rfl
    · have hend' : ∀ more, c :: (t ++ [')']) ≠ ':' :: ']' :: more := by
        intro more heq
        cases t with
        | nil => cases heq
        | cons d t =>
          cases heq
          exact hend ⟨t, rfl⟩
      rw [hnone _ hend', hnone _ fun more heq => hend ⟨more, heq⟩]
      rfl

/-- A named class has its own end, so it is the same one whatever follows. -/
theorem namedClass_append (s : List Char) :
    namedClass? m (s ++ [')']) = (namedClass? m s).map fun r => (r.1, r.2 ++ [')']) := by
  by_cases hs : ∃ r, s = '[' :: ':' :: r
  · obtain ⟨r, rfl⟩ := hs
    rw [List.cons_append, List.cons_append, namedClass_eq, namedClass_eq]
    cases r with
    | nil => exact classRest_append m false []
    | cons c r =>
      by_cases hc : c = '^'
      · subst hc
        exact classRest_append m true r
      · have hplain (v : List Char) : (match c :: v with
            | '^' :: rest => classRest? m true rest
            | s => classRest? m false s) = classRest? m false (c :: v) := by
          split
          · next heq =>
            cases heq
            exact absurd rfl hc
          · rfl
        rw [List.cons_append, hplain, hplain]
        exact classRest_append m false (c :: r)
  · have hs' : ∀ r, s ++ [')'] ≠ '[' :: ':' :: r := by
      intro r heq
      match s with
      | [] => cases heq
      | [_] => cases heq
      | c :: d :: s =>
        cases heq
        exact hs ⟨s, rfl⟩
    rw [namedClass_of_ne m hs', namedClass_of_ne m fun r heq => hs ⟨r, heq⟩]
    rfl

theorem classRest_length {negated : Bool} {r : Except SyntaxError Nested}
    (h : classRest? m negated s = some (r, rest)) : rest.length < s.length := by
  unfold classRest? at h
  split at h
  · next more hmore =>
    have hsuffix := (List.dropWhile_suffix (l := s) (· ≠ ':')).length_le
    obtain ⟨set, -, hset⟩ := Option.map_eq_some_iff.mp h
    cases hset
    rw [hmore, List.length_cons, List.length_cons] at hsuffix
    omega
  · cases h

theorem namedClass_length {r : Except SyntaxError Nested} (h : namedClass? m s = some (r, rest)) :
    rest.length < s.length := by
  by_cases hs : ∃ v, s = '[' :: ':' :: v
  · obtain ⟨v, rfl⟩ := hs
    rw [namedClass_eq] at h
    rw [List.length_cons, List.length_cons]
    split at h
    · have hlength := classRest_length m h
      rw [List.length_cons]
      omega
    · have hlength := classRest_length m h
      omega
  · rw [namedClass_of_ne m fun v hv => hs ⟨v, hv⟩] at h
    cases h

theorem head_ne_of_dropWhile {c : Char} (h : isBlank c = false) {s : List Char}
    (hs : s.dropWhile isBlank = [] ∨ ∃ d t, s.dropWhile isBlank = d :: t ∧ d ≠ c) :
    s.head? ≠ some c := by
  cases s with
  | nil => simp
  | cons d s =>
    intro hd
    obtain rfl : d = c := Option.some.inj hd
    rw [List.dropWhile_cons_of_neg (by simp [h])] at hs
    obtain hs | ⟨e, t, hs, he⟩ := hs
    · cases hs
    · cases hs
      exact he rfl

/-- The parenthesis is no blank. -/
theorem dropWhile_isBlank_append (s : List Char) :
    (s ++ [')']).dropWhile isBlank = s.dropWhile isBlank ++ [')'] := by
  induction s with
  | nil => decide
  | cons c s ih =>
    rw [List.cons_append]
    by_cases hc : isBlank c = true
    · rw [List.dropWhile_cons_of_pos hc, List.dropWhile_cons_of_pos hc, ih]
    · rw [List.dropWhile_cons_of_neg hc, List.dropWhile_cons_of_neg hc, List.cons_append]

/-- What decides over a hyphen is seen alike: the parenthesis counts as little as the end. -/
theorem peekBehind_append {c : Char} (hblank : isBlank c = false) (hhash : c ≠ '#')
    (hparen : c ≠ ')') (s : List Char) :
    peekBehind m (s ++ [')']) = some c ↔ peekBehind m s = some c := by
  have hclose : ¬some ')' = some c := fun h => hparen (Option.some.inj h).symm
  unfold peekBehind
  split
  · rw [dropWhile_isBlank_append]
    cases hs : s.dropWhile isBlank with
    | nil => exact iff_of_false hclose (head_ne_of_dropWhile hblank (Or.inl hs))
    | cons d t =>
      by_cases hd : d = '#'
      · subst hd
        have hown := head_ne_of_dropWhile hblank (Or.inr ⟨'#', t, hs, hhash.symm⟩)
        simp only [List.cons_append, dropWhile_isBlank_append]
        cases t.dropWhile isBlank with
        | nil => exact iff_of_false hclose hown
        | cons e v => rfl
      · simp only [List.cons_append]
  · cases s with
    | nil => exact iff_of_false hclose (by simp)
    | cons d s => rfl

theorem trims_bracketAtom (s : List Char) :
    TrimsUnless (fun x t => (∃ a, x = .assertion a) ∧ LoneBrace m t)
      (bracketAtom m (s ++ [')'])) (bracketAtom m s) := by
  cases s with
  | nil => exact .gone
  | cons c rest =>
    by_cases hc : c = '\\'
    · subst hc
      exact trims_escape m rest
    · rw [List.cons_append]
      simp only [bracketAtom]
      exact .ok

theorem setOp_of_ne {s : List Char} (h : ∀ c ∈ ['&', '-', '~'], ∀ r, s ≠ c :: c :: r) :
    setOp? s = none := by
  unfold setOp?
  split
  · next r => exact absurd rfl (h '&' (by simp) r)
  · next r => exact absurd rfl (h '-' (by simp) r)
  · next r => exact absurd rfl (h '~' (by simp) r)
  · rfl

theorem setOp_length {op : SetOp} (h : setOp? s = some (op, rest)) : rest.length < s.length := by
  unfold setOp? at h
  split at h <;> cases h <;> simp only [List.length_cons] <;> omega

/-- Neither half of an operation is a parenthesis. -/
theorem setOp_append (s : List Char) :
    setOp? (s ++ [')']) = (setOp? s).map fun r => (r.1, r.2 ++ [')']) := by
  by_cases h : ∃ c ∈ ['&', '-', '~'], ∃ r, s = c :: c :: r
  · obtain ⟨c, hc, r, rfl⟩ := h
    simp only [List.mem_cons, List.not_mem_nil, or_false] at hc
    obtain rfl | rfl | rfl := hc <;> rfl
  · have hown : ∀ c ∈ ['&', '-', '~'], ∀ r, s ≠ c :: c :: r :=
      fun c hc r hs => h ⟨c, hc, r, hs⟩
    have hlonger : ∀ c ∈ ['&', '-', '~'], ∀ r, s ++ [')'] ≠ c :: c :: r := by
      intro c hc r hs
      match s with
      | [] => simp at hs
      | [_] =>
        cases hs
        simp at hc
      | d :: e :: s =>
        cases hs
        exact hown c hc s rfl
    rw [setOp_of_ne hown, setOp_of_ne hlonger]
    rfl

theorem Mode.skip_cons {c : Char} (hblank : isBlank c = false) (hhash : c ≠ '#')
    (s : List Char) : m.skip (c :: s) = c :: s := by
  rw [Mode.skip]
  split
  · rw [List.length_cons, skipSpace, if_neg (by simp [hblank]), if_neg hhash]
  · rfl

theorem LoneBrace.skip {t : List Char} (h : LoneBrace m t) :
    ∃ r, m.skip (t ++ [')']) = '{' :: (r ++ [')']) ∧ m.skip r = [] := by
  obtain ⟨r, rfl, hr⟩ := h
  exact ⟨r, m.skip_cons (by decide) (by decide) _, hr⟩

def rangeBetween (m : Mode) (low high : Atom) (s : List Char) :
    Except SyntaxError (Nested × List Char) :=
  match low.char?, high.char? with
  | some a, some b =>
    if b < a then .error .badRange
    else if !m.wide && 0x80 ≤ b.toNat then .error .notAscii
    else .ok (⟨.range a.toNat b.toNat, 0⟩, s)
  | _, _ => .error .badRange

def memberEnd (m : Mode) (low : Atom) (s : List Char) : Except SyntaxError (Nested × List Char) :=
  match m.skip s with
  | [] => .error .badClass
  | '-' :: rest =>
    if peekBehind m rest = some ']' ∨ peekBehind m rest = some '-' then do
      return (⟨← low.member m, 0⟩, '-' :: rest)
    else do
      let (high, s) ← bracketAtom m (m.skip rest)
      rangeBetween m low high s
  | s => do return (⟨← low.member m, 0⟩, s)

theorem bracketMember_eq (s : List Char) :
    bracketMember m s = bracketAtom m s >>= fun v => memberEnd m v.1 v.2 := rfl

theorem trims_rangeBetween {E : Nested → List Char → Prop} (low high : Atom) (t : List Char) :
    TrimsUnless E (rangeBetween m low high (t ++ [')'])) (rangeBetween m low high t) := by
  unfold rangeBetween
  split
  · split
    · exact .error
    split
    · exact .error
    · exact .ok
  · exact .error

theorem reads_rangeBetween (low high : Atom) (s : List Char) :
    Reads s (fun _ => True) (rangeBetween m low high s) := by
  unfold rangeBetween
  split
  · split
    · exact .error
    split
    · exact .error
    · exact .ok trivial List.suffix_rfl
  · exact .error

/-- An assertion is no end of a range. -/
theorem rangeBetween_assertion (low : Atom) (a : Assertion) (s : List Char) :
    rangeBetween m low (.assertion a) s = .error .badRange := by
  unfold rangeBetween
  split
  · next hnone => cases hnone
  · rfl

/-- The exception is a member that nothing follows but the parenthesis. -/
theorem trims_memberEnd (low : Atom) (t : List Char) :
    TrimsUnless (fun _ t => t = []) (memberEnd m low (t ++ [')'])) (memberEnd m low t) := by
  unfold memberEnd
  cases m.skip_extends t with
  | inl hs =>
    rw [hs]
    exact .error
  | inr hs =>
    rw [hs]
    cases m.skip t with
    | nil => exact .value_left fun n => .except (t := []) rfl
    | cons c rest =>
      by_cases hc : c = '-'
      · subst hc
        simp only [List.cons_append]
        have hpeek : (peekBehind m (rest ++ [')']) = some ']' ∨
            peekBehind m (rest ++ [')']) = some '-') ↔
            (peekBehind m rest = some ']' ∨ peekBehind m rest = some '-') :=
          or_congr (peekBehind_append m (by decide) (by decide) (by decide) rest)
            (peekBehind_append m (by decide) (by decide) (by decide) rest)
        by_cases hend : peekBehind m rest = some ']' ∨ peekBehind m rest = some '-'
        · rw [if_pos hend, if_pos (hpeek.mpr hend)]
          exact .bind_value fun n _ => .ok (t := '-' :: rest)
        · rw [if_neg hend, if_neg (mt hpeek.mp hend)]
          have hhigh : TrimsUnless (fun x t => (∃ a, x = .assertion a) ∧ LoneBrace m t)
              (bracketAtom m (m.skip (rest ++ [')']))) (bracketAtom m (m.skip rest)) :=
            .of_extends (bracketAtom m) (m.skip_extends rest) (reads_bracketAtom m [])
              (trims_bracketAtom m _)
          refine hhigh.bind_unless ?_ ?_ ?_
          · exact fun high => reads_rangeBetween m low high []
          · intro high t hexcept
            obtain ⟨⟨a, rfl⟩, -⟩ := hexcept
            dsimp only
            rw [rangeBetween_assertion]
            exact .error
          · exact fun high t _ => trims_rangeBetween m low high t
      · rw [List.cons_append]
        simp only [List.cons.injEq, hc, false_and, imp_false, not_false_eq_true, implies_true]
        exact .bind_value fun n _ => .ok (t := c :: rest)

theorem trims_bracketMember (s : List Char) :
    TrimsUnless (fun _ t => t = []) (bracketMember m (s ++ [')'])) (bracketMember m s) := by
  rw [bracketMember_eq, bracketMember_eq]
  refine (trims_bracketAtom m s).bind_unless ?_ ?_ ?_
  · intro low
    dsimp only
    rw [memberEnd, Mode.skip_nil]
    exact .error
  · intro low t hexcept
    obtain ⟨⟨a, rfl⟩, hbrace⟩ := hexcept
    obtain ⟨r, hr, -⟩ := hbrace.skip
    dsimp only
    rw [memberEnd, hr]
    exact .error
  · intro low t _
    exact trims_memberEnd m low t

theorem reads_memberEnd (low : Atom) (s : List Char) :
    Reads s (fun _ => True) (memberEnd m low s) := by
  have hskip := m.skip_suffix s
  unfold memberEnd
  split
  · exact .error
  · next rest hs =>
    rw [hs] at hskip
    split
    · exact .bind_value fun n _ => .ok trivial hskip
    · have hrest := (m.skip_suffix rest).trans (suffix_of_cons hskip)
      refine ((reads_bracketAtom m _).mono hrest).bind fun high more _ hmore => ?_
      exact (reads_rangeBetween m low high more).mono hmore
  · exact .bind_value fun n _ => .ok trivial hskip

/-- A member takes at least one character. -/
theorem reads_bracketMember_cons (c : Char) (s : List Char) :
    Reads s (fun _ => True) (bracketMember m (c :: s)) := by
  have hatom : Reads s (fun _ => True) (bracketAtom m (c :: s)) := by
    by_cases hc : c = '\\'
    · subst hc
      exact (reads_escape m s).imp fun _ _ => trivial
    · simp only [bracketAtom]
      exact .ok trivial List.suffix_rfl
  rw [bracketMember_eq]
  exact hatom.bind fun low more _ hmore => (reads_memberEnd m low more).mono hmore

/-- A parenthesis is no member that a bracket could end with. -/
theorem readBracket_parenthesis (fuel : Nat) (b : OpenBracket) (outer : List OpenBracket)
    (hs : m.skip s = [')']) : ∃ e, readBracket m fuel b outer s = .error e := by
  cases fuel with
  | zero => exact ⟨_, rfl⟩
  | succ fuel =>
    have hmember : bracketMember m [')'] = .error .badClass := by
      rw [bracketMember_eq]
      change memberEnd m (.literal ')') [] = _
      rw [memberEnd, Mode.skip_nil]
    refine ⟨.badClass, ?_⟩
    rw [readBracket, hs]
    change (bracketMember m [')'] >>= fun v => readBracket m fuel (b.add v.1) outer v.2) = _
    rw [hmember]
    rfl

/-- Where a member is expected, the parenthesis alone will not do. -/
theorem trims_readBracket_parenthesis (fuel : Nat) (b : OpenBracket) (outer : List OpenBracket)
    {r' : Except SyntaxError (Nested × List Char)} :
    Trims (readBracket m fuel b outer [')']) r' := by
  obtain ⟨e, he⟩ := readBracket_parenthesis m fuel b outer
    (m.skip_cons (c := ')') (by decide) (by decide) [])
  rw [he]
  exact .error

theorem trims_readBracket {fuel fuel' : Nat} (b : OpenBracket) (outer : List OpenBracket)
    (h : s.length < fuel') :
    Trims (readBracket m fuel b outer (s ++ [')'])) (readBracket m fuel' b outer s) := by
  induction fuel generalizing b outer s fuel' with
  | zero => exact .error
  | succ fuel ih =>
    obtain ⟨fuel', rfl⟩ : ∃ k, fuel' = k + 1 := ⟨fuel' - 1, by omega⟩
    cases m.skip_extends s with
    | inl hs =>
      rw [readBracket, hs]
      exact .error
    | inr hs =>
      have hlength := (m.skip_suffix s).length_le
      cases ht : m.skip s with
      | nil =>
        rw [ht] at hs
        obtain ⟨e, he⟩ := readBracket_parenthesis m (fuel + 1) b outer hs
        rw [he]
        exact .error
      | cons c rest =>
        rw [ht, List.length_cons] at hlength
        rw [readBracket, readBracket, hs, ht, List.cons_append]
        by_cases hclose : c = ']'
        · subst hclose
          refine .bind_value fun n _ => ?_
          cases outer with
          | nil => exact .ok
          | cons o more => exact ih _ _ (by omega)
        by_cases hopen : c = '['
        · subst hopen
          have hnamed := namedClass_append m ('[' :: rest)
          rw [List.cons_append] at hnamed
          simp only [hnamed]
          cases hn : namedClass? m ('[' :: rest) with
          | some r =>
            obtain ⟨n, more⟩ := r
            have hmore := namedClass_length m hn
            rw [List.length_cons] at hmore
            exact .bind_value fun n _ => ih (s := more) _ _ (by omega)
          | none =>
            simp only [Option.map_none]
            refine (trims_openBracket m rest).bind_unless ?_ ?_ ?_
            · exact fun inner => reads_readBracket m fuel inner (b :: outer) []
            · intro inner t hexcept
              rw [hexcept]
              exact trims_readBracket_parenthesis m fuel inner (b :: outer)
            · intro inner t ht
              have hmore := (reads_openBracket m rest inner t ht).2.length_le
              exact ih _ _ (by omega)
        · have hop := setOp_append (c :: rest)
          rw [List.cons_append] at hop
          simp only [List.cons.injEq, hclose, hopen, false_and, imp_false, not_false_eq_true,
            implies_true, hop]
          cases hn : setOp? (c :: rest) with
          | some r =>
            obtain ⟨op, more⟩ := r
            have hmore := setOp_length hn
            rw [List.length_cons] at hmore
            exact ih (s := more) _ _ (by omega)
          | none =>
            simp only [Option.map_none]
            refine (trims_bracketMember m (c :: rest)).bind_unless ?_ ?_ ?_
            · exact fun n => reads_readBracket m fuel (b.add n) outer []
            · intro n t hexcept
              rw [hexcept]
              exact trims_readBracket_parenthesis m fuel (b.add n) outer
            · intro n t ht
              have hmore := (reads_bracketMember_cons m c rest n t ht).2.length_le
              exact ih _ _ (by omega)

theorem trims_bracketClass (s : List Char) :
    Trims (bracketClass m (s ++ [')'])) (bracketClass m s) := by
  unfold bracketClass
  refine (trims_openBracket m s).bind_unless ?_ ?_ ?_
  · exact fun b => reads_readBracket m _ b [] []
  · intro b t hexcept
    rw [hexcept]
    exact trims_readBracket_parenthesis m _ b []
  · exact fun b t _ => trims_readBracket m b [] (Nat.lt_succ_self _)

end Retest.Regex
