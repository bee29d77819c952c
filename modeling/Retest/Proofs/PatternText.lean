import Mathlib.Data.List.Infix
import Retest.Regex.Syntax

/-! Where the assertions of a pattern come from. Every reader leaves an end of the text that it was
given, so each assertion that is read is spelled somewhere in the whole. -/

namespace Retest.Regex

namespace Assertion

/-- How an assertion is spelled. A name in braces can follow the first letter of a word boundary. -/
def spellings : Assertion → List (List Char)
  | .textStart => [['^'], ['\\', 'A']]
  | .lineStart | .wideLineStart => [['^']]
  | .textEnd => [['$'], ['\\', 'z']]
  | .lineEnd | .wideLineEnd => [['$']]
  | .wordBoundary _ | .wordStartHalf _ | .wordEndHalf _ => [['\\', 'b']]
  | .notWordBoundary _ => [['\\', 'B']]
  | .wordStart _ => [['\\', 'b'], ['\\', '<']]
  | .wordEnd _ => [['\\', 'b'], ['\\', '>']]

def SpelledIn (a : Assertion) (s : List Char) : Prop := ∃ w ∈ a.spellings, w <:+: s

end Assertion

def Pattern.AssertsOnly (Q : Assertion → Prop) : Pattern → Prop
  | .empty | .oneOf _ => True
  | .assertion a => Q a
  | .group _ p | .times p _ _ => p.AssertsOnly Q
  | .seq p q | .alt p q => p.AssertsOnly Q ∧ q.AssertsOnly Q

theorem Pattern.AssertsOnly.imp {Q R : Assertion → Prop} (hQR : ∀ a, Q a → R a) {p : Pattern}
    (h : p.AssertsOnly Q) : p.AssertsOnly R := by
  induction p with
  | empty | oneOf => trivial
  | assertion a => exact hQR a h
  | group _ p ih | times p _ _ ih => exact ih h
  | seq p q ihp ihq | alt p q ihp ihq => exact ⟨ihp h.1, ihq h.2⟩

section Readers

def Reads {α : Type} (s : List Char) (P : α → Prop) (r : Except SyntaxError (α × List Char)) :
    Prop :=
  ∀ a rest, r = .ok (a, rest) → P a ∧ rest <:+ s

variable {α β : Type} {s t rest : List Char} {P : α → Prop} {Q : β → Prop}

theorem Reads.error {e : SyntaxError} : Reads s P (.error e) := by
  intro a rest h
  cases h

theorem Reads.ok {a : α} (ha : P a) (h : rest <:+ s) : Reads s P (.ok (a, rest)) := by
  intro b rest' hb
  cases hb
  exact ⟨ha, h⟩

theorem Reads.bind {r : Except SyntaxError (α × List Char)}
    {f : α × List Char → Except SyntaxError (β × List Char)} (hr : Reads s P r)
    (hf : ∀ a rest, P a → rest <:+ s → Reads s Q (f (a, rest))) : Reads s Q (r >>= f) := by
  cases r with
  | error e => exact .error
  | ok v =>
    obtain ⟨ha, hrest⟩ := hr v.1 v.2 rfl
    exact hf v.1 v.2 ha hrest

/-- The same for a value that takes nothing from the text. -/
theorem Reads.bind_value {x : Except SyntaxError α} {f : α → Except SyntaxError (β × List Char)}
    (hf : ∀ a, x = .ok a → Reads s Q (f a)) : Reads s Q (x >>= f) := by
  cases x with
  | error e => exact .error
  | ok a => exact hf a rfl

theorem Reads.mono {r : Except SyntaxError (α × List Char)} (h : Reads s P r) (hst : s <:+ t) :
    Reads t P r := by
  intro a rest hr
  obtain ⟨ha, hrest⟩ := h a rest hr
  exact ⟨ha, hrest.trans hst⟩

theorem Reads.imp {P' : α → Prop} {r : Except SyntaxError (α × List Char)} (h : Reads s P r)
    (hP : ∀ a, P a → P' a) : Reads s P' r := by
  intro a rest hr
  exact (h a rest hr).imp_left (hP a)

theorem suffix_of_cons {c : Char} (h : c :: rest <:+ s) : rest <:+ s :=
  (List.suffix_cons c rest).trans h

theorem skipComment_suffix (s : List Char) : skipComment s <:+ s := by
  fun_induction skipComment s with
  | case1 => exact List.suffix_refl _
  | case2 rest => exact List.suffix_cons _ rest
  | case3 c rest _ ih => exact ih.trans (List.suffix_cons c rest)

theorem skipSpace_suffix (fuel : Nat) (s : List Char) : skipSpace fuel s <:+ s := by
  fun_induction skipSpace fuel s with
  | case1 | case2 | case5 => exact List.suffix_refl _
  | case3 fuel c rest _ ih => exact ih.trans (List.suffix_cons c rest)
  | case4 fuel rest _ ih =>
    exact ih.trans ((skipComment_suffix rest).trans (List.suffix_cons _ rest))

theorem Mode.skip_suffix (m : Mode) (s : List Char) : m.skip s <:+ s := by
  rw [Mode.skip]
  split
  · exact skipSpace_suffix _ s
  · exact List.suffix_refl s

/-- What follows the first character behind blanks and comments. -/
theorem Mode.suffix_of_skip {m : Mode} {c : Char} (h : m.skip s = c :: rest) : rest <:+ s :=
  suffix_of_cons (h ▸ m.skip_suffix s)

variable (m : Mode)

theorem reads_hexFixed (count n : Nat) (s : List Char) :
    Reads s (fun _ => True) (hexFixed m count n s) := by
  fun_induction hexFixed m count n s with
  | case1 n s => exact .ok trivial (List.suffix_refl s)
  | case2 | case3 => exact .error
  | case4 count n c rest d _ ih =>
    exact ih.mono ((m.skip_suffix rest).trans (List.suffix_cons c rest))

theorem reads_hexBraced (fuel : Nat) (n : Option Nat) (s : List Char) :
    Reads s (fun _ => True) (hexBraced m fuel n s) := by
  fun_induction hexBraced m fuel n s with
  | case1 | case2 | case3 | case5 => exact .error
  | case4 fuel rest v =>
    exact .ok trivial ((m.skip_suffix rest).trans (List.suffix_cons _ rest))
  | case6 fuel n c rest _ d _ ih =>
    exact ih.mono ((m.skip_suffix rest).trans (List.suffix_cons c rest))

theorem reads_bracedText (fuel : Nat) (acc s : List Char) :
    Reads s (fun _ => True) (bracedText m fuel acc s) := by
  fun_induction bracedText m fuel acc s with
  | case1 | case2 => exact .error
  | case3 fuel acc rest => exact .ok trivial (List.suffix_cons _ rest)
  | case4 fuel acc c rest _ ih =>
    exact ih.mono ((m.skip_suffix rest).trans (List.suffix_cons c rest))

def Atom.Inert (x : Atom) : Prop := ∀ a, x ≠ .assertion a

theorem reads_hexEscape (count : Nat) (s : List Char) :
    Reads s Atom.Inert (hexEscape m count s) := by
  rw [hexEscape]
  split
  · exact .error
  · next rest hs =>
    have hrest : m.skip rest <:+ s := (m.skip_suffix rest).trans (Mode.suffix_of_skip hs)
    refine ((reads_hexBraced m _ _ _).mono hrest).bind fun n more _ hmore => ?_
    dsimp only
    split
    · exact .error
    · exact .ok (fun a => Atom.noConfusion) hmore
  · next c rest _ hs =>
    have hrest : c :: rest <:+ s := hs ▸ m.skip_suffix s
    refine ((reads_hexFixed m _ _ _).mono hrest).bind fun n more _ hmore => ?_
    dsimp only
    split
    · exact .error
    · refine .ok (fun a => ?_) hmore
      split <;> exact Atom.noConfusion

theorem reads_propertyEscape (negated : Bool) (s : List Char) :
    Reads s Atom.Inert (propertyEscape m negated s) := by
  rw [propertyEscape]
  split
  · exact .error
  · next rest hs =>
    have hrest : m.skip rest <:+ s := (m.skip_suffix rest).trans (Mode.suffix_of_skip hs)
    refine ((reads_bracedText m _ _ _).mono hrest).bind fun text more _ hmore => ?_
    exact .bind_value fun set _ => .ok (fun a => Atom.noConfusion) hmore
  · next c rest _ hs =>
    have hrest : m.skip rest <:+ s := (m.skip_suffix rest).trans (Mode.suffix_of_skip hs)
    split
    · exact .error
    · exact .bind_value fun set _ => .ok (fun a => Atom.noConfusion) hrest

theorem boundaryName_suffix (fuel : Nat) (acc s : List Char) :
    (boundaryName m fuel acc s).2 <:+ s := by
  fun_induction boundaryName m fuel acc s with
  | case1 | case2 | case4 => exact List.suffix_refl _
  | case3 fuel acc c rest _ ih =>
    exact ih.trans ((m.skip_suffix rest).trans (List.suffix_cons c rest))

theorem reads_boundaryEscape (s : List Char) :
    Reads s (fun x => ∃ a, x = .assertion a ∧ ['\\', 'b'] ∈ a.spellings) (boundaryEscape m s) := by
  unfold boundaryEscape
  split
  · next rest =>
    split
    · exact .error
    · next c more hs =>
      split
      -- What the brace opens is no name. It is left for the repetition that it must be.
      · exact .ok ⟨_, rfl, List.mem_cons_self⟩ (List.suffix_refl _)
      · have hname := boundaryName_suffix m (more.length + 1) [] (c :: more)
        split
        · next name rest' hn =>
          rw [hn, ← hs] at hname
          have hrest : rest' <:+ '{' :: rest :=
            (suffix_of_cons hname).trans ((m.skip_suffix rest).trans (List.suffix_cons _ rest))
          split
          · exact .ok ⟨_, rfl, List.mem_cons_self⟩ hrest
          · exact .ok ⟨_, rfl, List.mem_cons_self⟩ hrest
          · exact .ok ⟨_, rfl, List.mem_cons_self⟩ hrest
          · exact .ok ⟨_, rfl, List.mem_cons_self⟩ hrest
          · exact .error
        · exact .error
  · exact .ok ⟨_, rfl, List.mem_cons_self⟩ (List.suffix_refl _)

def Atom.SpelledIn (x : Atom) (s : List Char) : Prop := ∀ a, x = .assertion a → a.SpelledIn s

theorem Atom.Inert.spelledIn {x : Atom} (hx : x.Inert) (s : List Char) : x.SpelledIn s :=
  fun a ha => absurd ha (hx a)

/-- An assertion is spelled where its letter follows a backslash. -/
theorem Assertion.spelledIn_escaped {a : Assertion} {c : Char} (h : ['\\', c] ∈ a.spellings)
    (rest : List Char) : (Atom.assertion a).SpelledIn ('\\' :: c :: rest) := by
  rintro b ⟨⟩
  exact ⟨_, h, [], rest, rfl⟩

theorem reads_escape (s : List Char) :
    Reads s (Atom.SpelledIn · ('\\' :: s)) (escape m s) := by
  have hinert {x : Atom} {c : Char} {rest : List Char} (hx : x.Inert) :
      Reads (c :: rest) (Atom.SpelledIn · ('\\' :: c :: rest)) (.ok (x, rest)) :=
    .ok (hx.spelledIn _) (List.suffix_cons c rest)
  have hassertion {a : Assertion} {c : Char} {rest : List Char} (h : ['\\', c] ∈ a.spellings) :
      Reads (c :: rest) (Atom.SpelledIn · ('\\' :: c :: rest)) (.ok (.assertion a, rest)) :=
    .ok (Assertion.spelledIn_escaped h rest) (List.suffix_cons c rest)
  unfold escape
  split
  · exact .error
  next c rest =>
  split
  · exact .error
  split
  · exact hinert fun a h => by cases h
  split
  case h_1 | h_2 | h_3 =>
    exact ((reads_hexEscape m _ rest).imp fun x hx => hx.spelledIn _).mono (List.suffix_cons _ rest)
  case h_4 | h_5 =>
    exact ((reads_propertyEscape m _ rest).imp fun x hx => hx.spelledIn _).mono
      (List.suffix_cons _ rest)
  case h_18 | h_19 | h_21 | h_22 | h_23 => exact hassertion (by simp [Assertion.spellings])
  case h_20 =>
    refine ((reads_boundaryEscape m rest).imp ?_).mono (List.suffix_cons _ rest)
    rintro x ⟨a, rfl, ha⟩
    exact Assertion.spelledIn_escaped ha rest
  case h_24 => exact .error
  -- The other letters stand for a character or a class of characters.
  all_goals exact hinert fun a h => by cases h

theorem spelled_plainAtom {c : Char} {a : Assertion} (h : plainAtom m c = .assertion a) :
    [c] ∈ a.spellings := by
  unfold plainAtom at h
  split at h
  · cases h
  split at h
  · next hc =>
    subst hc
    cases h
    split
    · split <;> exact List.mem_cons_self
    · exact List.mem_cons_self
  split at h
  · next hc =>
    subst hc
    cases h
    split
    · split <;> exact List.mem_cons_self
    · exact List.mem_cons_self
  · cases h

theorem assertsOnly_pattern {x : Atom} {p : Pattern} {R : Assertion → Prop}
    (hx : ∀ a, x = .assertion a → R a) (h : x.pattern m = .ok p) : p.AssertsOnly R := by
  cases x with
  | assertion a =>
    cases h
    exact hx a rfl
  | literal c =>
    cases h
    trivial
  | byte | dot | shorthand | property =>
    rw [Atom.pattern] at h
    split at h <;> cases h
    trivial

theorem readFlags_suffix {m' : Mode} {used used' : List Char} {off dangling : Bool}
    {e : FlagsEnd} (h : readFlags m used off dangling s = .ok (m', used', e, rest)) :
    rest <:+ s := by
  fun_induction readFlags m used off dangling s with
  | case1 | case2 | case4 | case6 | case7 => cases h
  | case3 m used off dangling c more =>
    cases h
    exact List.suffix_cons c _
  | case5 m used off dangling more _ _ ih => exact (ih h).trans (List.suffix_cons _ more)
  | case8 m used off dangling c more _ _ _ _ _ ih => exact (ih h).trans (List.suffix_cons c more)

theorem reads_groupName (acc s : List Char) : Reads s (fun _ => True) (groupName acc s) := by
  fun_induction groupName acc s with
  | case1 | case2 | case5 => exact .error
  | case3 acc rest => exact .ok trivial (List.suffix_cons _ rest)
  | case4 acc c rest _ _ ih => exact ih.mono (List.suffix_cons c rest)

theorem decimalLoop_suffix (fuel : Nat) (n : Option Nat) (s : List Char) :
    (decimalLoop m fuel n s).2 <:+ s := by
  fun_induction decimalLoop m fuel n s with
  | case1 | case2 | case4 => exact List.suffix_refl _
  | case3 fuel n c rest _ ih =>
    exact ih.trans ((m.skip_suffix rest).trans (List.suffix_cons c rest))

theorem countOf_suffix (s : List Char) : (countOf m s).2 <:+ s := by
  have hdigits : (decimalLoop m ((s.dropWhile isBlank).length + 1) none (s.dropWhile isBlank)).2 <:+
      s := (decimalLoop_suffix m _ _ _).trans (List.dropWhile_suffix _)
  have hblanks := (List.dropWhile_suffix isBlank).trans hdigits
  have hend (t : List Char) (ht : t <:+ s) : (if m.spaced then m.skip t else t) <:+ s := by
    split
    · exact (m.skip_suffix t).trans ht
    · exact ht
  unfold countOf
  dsimp only
  split <;> exact hend _ hblanks

theorem skipPreference_suffix (s : List Char) : skipPreference s <:+ s := by
  unfold skipPreference
  split
  · exact List.suffix_cons _ _
  · exact List.suffix_refl _

theorem reads_readCounts (s : List Char) : Reads s (fun _ => True) (readCounts m s) := by
  have hskip := m.skip_suffix s
  unfold readCounts
  split
  · exact .error
  · next s' hs =>
    have hcount := (countOf_suffix m (m.skip s)).trans hskip
    split
    · next first rest hfirst =>
      rw [hfirst] at hcount
      have hrest : m.skip rest <:+ s := (m.skip_suffix rest).trans (suffix_of_cons hcount)
      split
      · next more hmore =>
        rw [hmore] at hrest
        exact .bind_value fun low _ => .ok trivial (suffix_of_cons hrest)
      · exact .error
      · have hcount' := (countOf_suffix m (m.skip rest)).trans hrest
        split
        · next second more hsecond =>
          rw [hsecond] at hcount'
          refine .bind_value fun low _ => .bind_value fun high _ => ?_
          split
          · exact .error
          · exact .ok trivial (suffix_of_cons hcount')
        · exact .error
    · next first rest hfirst =>
      rw [hfirst] at hcount
      exact .bind_value fun n _ => .ok trivial (suffix_of_cons hcount)
    · exact .error

theorem leadingHyphens_suffix (fuel : Nat) (b : OpenBracket) (s : List Char) :
    (leadingHyphens m fuel b s).2 <:+ s := by
  fun_induction leadingHyphens m fuel b s with
  | case1 | case3 => exact List.suffix_refl _
  | case2 fuel b rest ih => exact ih.trans ((m.skip_suffix rest).trans (List.suffix_cons _ rest))

theorem reads_openBracket (s : List Char) : Reads s (fun _ => True) (openBracket m s) := by
  unfold openBracket
  extract_lets start
  have hskip : start <:+ s := m.skip_suffix s
  -- All that matters about the start is that it lies in the text.
  clear_value start
  split
  next negated behind hbehind =>
  have hs : behind <:+ s := by
    split at hbehind <;> cases hbehind
    · exact (m.skip_suffix _).trans (suffix_of_cons hskip)
    · exact hskip
  have hyphens := (leadingHyphens_suffix m (behind.length + 1) ⟨negated, none, []⟩ behind).trans hs
  split
  next b more hmore =>
  rw [hmore] at hyphens
  split
  · exact .error
  · next rest =>
    split
    · split
      · exact .error
      · exact .ok trivial ((m.skip_suffix rest).trans (suffix_of_cons hyphens))
    · exact .ok trivial hyphens
  · exact .ok trivial hyphens

theorem reads_bracketAtom (s : List Char) : Reads s (fun _ => True) (bracketAtom m s) := by
  fun_cases bracketAtom m s with
  | case1 => exact .error
  | case2 rest =>
    exact ((reads_escape m rest).imp fun _ _ => trivial).mono (List.suffix_cons _ rest)
  | case3 c rest => exact .ok trivial (List.suffix_cons c rest)

theorem reads_bracketMember (s : List Char) : Reads s (fun _ => True) (bracketMember m s) := by
  unfold bracketMember
  refine (reads_bracketAtom m s).bind fun low more _ hmore => ?_
  have hskip := (m.skip_suffix more).trans hmore
  dsimp only
  split
  · exact .error
  · next rest hs =>
    rw [hs] at hskip
    split
    · exact .bind_value fun n _ => .ok trivial hskip
    · have hrest := (m.skip_suffix rest).trans (suffix_of_cons hskip)
      refine ((reads_bracketAtom m _).mono hrest).bind fun high more' _ hmore' => ?_
      dsimp only
      split
      · split
        · exact .error
        split
        · exact .error
        · exact .ok trivial hmore'
      · exact .error
  · exact .bind_value fun n _ => .ok trivial hskip

theorem setOp_suffix {op : SetOp} (h : setOp? s = some (op, rest)) : rest <:+ s := by
  unfold setOp? at h
  split at h <;> cases h <;> exact ⟨[_, _], rfl⟩

theorem namedClass_suffix {r : Except SyntaxError Nested} (h : namedClass? m s = some (r, rest)) :
    rest <:+ s := by
  unfold namedClass? at h
  split at h
  · next inner =>
    split at h
    next negated name hname =>
    have hinner : name <:+ '[' :: ':' :: inner := by
      refine List.IsSuffix.trans ?_ ⟨['[', ':'], rfl⟩
      split at hname <;> cases hname
      · exact List.suffix_cons _ _
      · exact List.suffix_refl _
    extract_lets text at h
    split at h
    · next more hmore =>
      have hrest := List.dropWhile_suffix (l := name) (· ≠ ':')
      obtain ⟨set, -, hset⟩ := Option.map_eq_some_iff.mp h
      cases hset
      rw [hmore] at hrest
      exact (suffix_of_cons (suffix_of_cons hrest)).trans hinner
    · cases h
  · cases h

theorem reads_readBracket (fuel : Nat) (b : OpenBracket) (outer : List OpenBracket)
    (s : List Char) : Reads s (fun _ => True) (readBracket m fuel b outer s) := by
  induction fuel generalizing b outer s with
  | zero => exact .error
  | succ fuel ih =>
    have hskip := m.skip_suffix s
    unfold readBracket
    split
    · exact .error
    · next rest hs =>
      rw [hs] at hskip
      refine .bind_value fun n _ => ?_
      split
      · exact .ok trivial (suffix_of_cons hskip)
      · exact (ih _ _ _).mono (suffix_of_cons hskip)
    · next rest hs =>
      rw [hs] at hskip
      split
      · next n more hn =>
        exact .bind_value fun n _ => (ih _ _ _).mono ((namedClass_suffix m hn).trans hskip)
      · refine ((reads_openBracket m rest).mono (suffix_of_cons hskip)).bind fun _ _ _ hmore => ?_
        exact (ih _ _ _).mono hmore
    · split
      · next op more hop => exact (ih _ _ _).mono ((setOp_suffix hop).trans hskip)
      · refine ((reads_bracketMember m _).mono hskip).bind fun _ _ _ hmore => ?_
        exact (ih _ _ _).mono hmore

theorem reads_bracketClass (s : List Char) : Reads s (fun _ => True) (bracketClass m s) :=
  (reads_openBracket m s).bind fun b _ _ hrest => (reads_readBracket m _ b [] _).mono hrest

end Readers

section Progress

variable {Q : Assertion → Prop}

theorem assertsOnly_sequence {l : List Piece} (h : ∀ p ∈ l, p.pattern.AssertsOnly Q) :
    (sequence l).pattern.AssertsOnly Q := by
  have hfold (ps : List Piece) (acc : Pattern) (hacc : acc.AssertsOnly Q)
      (hps : ∀ p ∈ ps, p.pattern.AssertsOnly Q) :
      (ps.foldl (fun acc p => .seq p.pattern acc) acc).AssertsOnly Q :=
    List.foldlRecOn (motive := fun acc : Pattern => acc.AssertsOnly Q) _ _ hacc
      fun acc hacc p hp => ⟨hps p hp, hacc⟩
  unfold sequence
  split
  · trivial
  · exact h _ List.mem_cons_self
  · exact hfold _ .empty trivial h

structure Alternatives.AssertsOnly (Q : Assertion → Prop) (a : Alternatives) : Prop where
  complete : ∀ p ∈ a.complete, p.pattern.AssertsOnly Q
  pieces : ∀ p ∈ a.pieces, p.pattern.AssertsOnly Q

namespace Alternatives.AssertsOnly

variable {a : Alternatives}

theorem empty : ({} : Alternatives).AssertsOnly Q where
  complete := by simp
  pieces := by simp

theorem add (h : a.AssertsOnly Q) {p : Piece} (hp : p.pattern.AssertsOnly Q) :
    (a.add p).AssertsOnly Q where
  complete := h.complete
  pieces := List.forall_mem_cons.mpr ⟨hp, h.pieces⟩

theorem next (h : a.AssertsOnly Q) : a.next.AssertsOnly Q where
  complete := List.forall_mem_cons.mpr ⟨assertsOnly_sequence h.pieces, h.complete⟩
  pieces := by simp [Alternatives.next]

theorem close (h : a.AssertsOnly Q) : a.close.pattern.AssertsOnly Q := by
  have hlast := assertsOnly_sequence h.pieces
  have hcomplete := h.complete
  unfold Alternatives.close
  dsimp only
  split
  · exact hlast
  · next hps =>
    exact List.foldlRecOn (motive := fun acc : Pattern => acc.AssertsOnly Q) _ _ hlast
      fun acc hacc p hp => ⟨hcomplete p hp, hacc⟩

end Alternatives.AssertsOnly

structure Progress.AssertsOnly (Q : Assertion → Prop) (g : Progress) : Prop where
  here : g.here.AssertsOnly Q
  groups : ∀ o ∈ g.groups, o.outside.AssertsOnly Q

namespace Progress.AssertsOnly

variable {g : Progress} {t s : List Char}

theorem add (h : g.AssertsOnly Q) {p : Piece} (hp : p.pattern.AssertsOnly Q) :
    (g.add p).AssertsOnly Q where
  here := h.here.add hp
  groups := h.groups

theorem openGroup (h : g.AssertsOnly Q) (inside : Mode) (captures : Bool) :
    (g.openGroup inside captures).AssertsOnly Q where
  here := .empty
  groups := List.forall_mem_cons.mpr ⟨h.here, h.groups⟩

theorem closeGroup (h : g.AssertsOnly Q) {g' : Progress} (hg : g.closeGroup = .ok g') :
    g'.AssertsOnly Q := by
  have hgroups := h.groups
  unfold Progress.closeGroup at hg
  split at hg
  · cases hg
  · next o more ho =>
    rw [ho] at hgroups
    obtain ⟨houtside, hmore⟩ := List.forall_mem_cons.mp hgroups
    cases hg
    exact ⟨houtside.add h.here.close, hmore⟩

theorem repeatLast (h : g.AssertsOnly Q) {min : Nat} {max : Option Nat} {g' : Progress}
    (hg : g.repeatLast min max = .ok g') : g'.AssertsOnly Q := by
  have hpieces := h.here.pieces
  unfold Progress.repeatLast at hg
  split at hg
  · cases hg
  · next p more hp =>
    rw [hp] at hpieces
    split at hg <;> cases hg
    exact ⟨⟨h.here.complete, List.forall_mem_cons.mpr (List.forall_mem_cons.mp hpieces)⟩, h.groups⟩

theorem namedGroup (h : g.AssertsOnly Q) (s : List Char) :
    Reads s (Progress.AssertsOnly Q) (namedGroup g s) := by
  unfold Regex.namedGroup
  refine (reads_groupName [] s).bind fun name rest _ hrest => ?_
  dsimp only
  split
  · exact .error
  · have hnames : Progress.AssertsOnly Q { g with names := name :: g.names } := ⟨h.here, h.groups⟩
    exact .ok (hnames.openGroup _ _) hrest

theorem readGroup (h : g.AssertsOnly Q) (s : List Char) :
    Reads s (Progress.AssertsOnly Q) (readGroup g s) := by
  have hskip := g.mode.skip_suffix s
  unfold Regex.readGroup
  split
  · exact .error
  · exact .error
  · exact .error
  · exact .error
  · next rest hs =>
    rw [hs] at hskip
    exact (h.namedGroup rest).mono (suffix_of_cons (suffix_of_cons (suffix_of_cons hskip)))
  · next rest _ _ hs =>
    rw [hs] at hskip
    exact (h.namedGroup rest).mono (suffix_of_cons (suffix_of_cons hskip))
  · next rest _ _ _ _ _ _ hs =>
    rw [hs] at hskip
    cases hflags : readFlags g.mode [] false false rest with
    | error e => exact .error
    | ok v =>
      obtain ⟨mode, used, ending, more⟩ := v
      have hmore := (readFlags_suffix _ hflags).trans (suffix_of_cons hskip)
      cases ending with
      | group => exact .ok (h.openGroup mode false) hmore
      | alone =>
        -- Flags without a group change the mode and leave an empty piece.
        have hmode : Progress.AssertsOnly Q { g with mode := mode } := ⟨h.here, h.groups⟩
        simp only [bind, Except.bind]
        split
        · exact .error
        · exact .ok (hmode.add trivial) hmore
  · exact .ok (h.openGroup _ _) hskip

/-- One step reads only assertions that are spelled where it stands. -/
theorem readStep {c : Char} (h : g.AssertsOnly (·.SpelledIn t)) (hs : c :: s <:+ t) :
    Reads t (Progress.AssertsOnly (·.SpelledIn t)) (readStep g c s) := by
  have htail := suffix_of_cons hs
  unfold Regex.readStep
  split
  · exact (h.readGroup s).mono htail
  · exact .bind_value fun g' hg => .ok (h.closeGroup hg) htail
  · exact .ok ⟨h.here.next, h.groups⟩ htail
  · refine ((reads_bracketClass g.mode s).mono htail).bind fun n rest _ hrest => ?_
    exact .ok (h.add trivial) hrest
  · exact .bind_value fun g' hg => .ok (h.repeatLast hg) ((skipPreference_suffix s).trans htail)
  · exact .bind_value fun g' hg => .ok (h.repeatLast hg) ((skipPreference_suffix s).trans htail)
  · exact .bind_value fun g' hg => .ok (h.repeatLast hg) ((skipPreference_suffix s).trans htail)
  · split
    · exact .error
    · refine ((reads_readCounts g.mode s).mono htail).bind fun counts rest _ hrest => ?_
      refine .bind_value fun g' hg => .ok (h.repeatLast hg) ?_
      exact (skipPreference_suffix _).trans ((g.mode.skip_suffix rest).trans hrest)
  · refine ((reads_escape g.mode s).mono htail).bind fun atom rest hatom hrest => ?_
    refine .bind_value fun p hp => .ok (h.add ?_) hrest
    refine assertsOnly_pattern g.mode (fun a ha => ?_) hp
    -- The spelling begins with the backslash in front of the tail.
    obtain ⟨w, hw, hin⟩ := hatom a ha
    exact ⟨w, hw, hin.trans hs.isInfix⟩
  · refine .bind_value fun p hp => .ok (h.add ?_) htail
    refine assertsOnly_pattern g.mode (fun a ha => ?_) hp
    exact ⟨[c], spelled_plainAtom g.mode ha, List.IsInfix.trans ⟨[], s, rfl⟩ hs.isInfix⟩

theorem readAll {fuel : Nat} {g' : Progress} (h : g.AssertsOnly (·.SpelledIn t)) (hs : s <:+ t)
    (hg : readAll fuel g s = .ok g') : g'.AssertsOnly (·.SpelledIn t) := by
  induction fuel generalizing g s with
  | zero =>
    cases hg
    exact h
  | succ fuel ih =>
    have hskip := (g.mode.skip_suffix s).trans hs
    unfold Regex.readAll at hg
    split at hg
    · cases hg
      exact h
    · next c rest hc =>
      rw [hc] at hskip
      cases hstep : Regex.readStep g c rest with
      | error e =>
        rw [hstep] at hg
        cases hg
      | ok v =>
        obtain ⟨hnext, hrest⟩ := h.readStep hskip v.1 v.2 hstep
        rw [hstep] at hg
        exact ih hnext hrest hg

end Progress.AssertsOnly

/-- Every assertion of a pattern is spelled in the text of the pattern. -/
theorem Pattern.spelled_of_ofText {s : List Char} {p : Pattern} (h : Pattern.ofText s = .ok p) :
    p.AssertsOnly (·.SpelledIn s) := by
  unfold Pattern.ofText at h
  cases hg : readAll (s.length + 1) {} s with
  | error e =>
    rw [hg] at h
    cases h
  | ok g =>
    have hstart : ({} : Progress).AssertsOnly (·.SpelledIn s) := ⟨.empty, by simp⟩
    have hread := (hstart.readAll (List.suffix_refl s) hg).here.close
    simp only [hg, bind, Except.bind] at h
    split at h
    · cases h
    split at h
    · cases h
    split at h
    · cases h
      exact hread
    · cases h

end Progress

end Retest.Regex
