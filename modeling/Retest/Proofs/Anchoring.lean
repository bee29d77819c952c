import Retest.Proofs.StepEnding
import Retest.Proofs.CatchAll

/-! Rules are anchored at the start of a name. The source stands in a group behind an assertion of
the start, so the rule matches where the pattern of the source matches a leading part of the name,
unless a parenthesis of the source closes that group. -/

namespace Retest

namespace Regex

section Within

variable {g g' : Progress} {o : OpenGroup} {s rest : List Char}

def Progress.within (g : Progress) (o : OpenGroup) : Progress :=
  { g with groups := g.groups ++ [o] }

@[simp]
theorem Progress.mode_within (g : Progress) (o : OpenGroup) : (g.within o).mode = g.mode := rfl

@[simp]
theorem Progress.here_within (g : Progress) (o : OpenGroup) : (g.within o).here = g.here := rfl

theorem Progress.within_groups_ne (g : Progress) (o : OpenGroup) : (g.within o).groups ≠ [] := by
  simp [within]

theorem readGroup_within (g : Progress) (o : OpenGroup) (s : List Char) :
    readGroup (g.within o) s = (readGroup g s).map fun r => (r.1.within o, r.2) := by
  have hnamed (t : List Char) :
      namedGroup (g.within o) t = (namedGroup g t).map fun r => (r.1.within o, r.2) := by
    unfold namedGroup
    cases groupName [] t with
    | error e => rfl
    | ok v =>
      change (if g.names.contains v.1 then _ else _) =
        Except.map _ (if g.names.contains v.1 then _ else _)
      split <;> rfl
  have hflags (t : List Char) :
      flagGroup (g.within o) t = (flagGroup g t).map fun r => (r.1.within o, r.2) := by
    unfold flagGroup
    change (readFlags g.mode [] false false t >>= _) = _
    cases readFlags g.mode [] false false t with
    | error e => rfl
    | ok v =>
      obtain ⟨mode, used, ending, more⟩ := v
      cases ending with
      | group => rfl
      | alone =>
        simp only [bind, Except.bind]
        split <;> rfl
  have hmarked (t : List Char) :
      markedGroup (g.within o) t = (markedGroup g t).map fun r => (r.1.within o, r.2) := by
    fun_cases markedGroup g t
    · rfl
    · rfl
    · rfl
    · rfl
    · next rest => exact hnamed rest
    · simp only [markedGroup]
      exact hnamed _
    · simp only [markedGroup]
      exact hflags _
  rw [readGroup_eq, readGroup_eq, Progress.mode_within]
  cases g.mode.skip s with
  | nil => rfl
  | cons c t =>
    by_cases hmark : c = '?'
    · subst hmark
      exact hmarked t
    · simp only [List.cons.injEq, hmark, false_and, imp_false, not_false_eq_true, implies_true]
      rfl

/-- What a step does does not depend on the outermost group unless it closes a group. -/
theorem readStep_within (g : Progress) (o : OpenGroup) {c : Char} (hc : c ≠ ')') (s : List Char) :
    readStep (g.within o) c s = (readStep g c s).map fun r => (r.1.within o, r.2) := by
  have hrepeat (min : Nat) (max : Option Nat) :
      (g.within o).repeatLast min max = (g.repeatLast min max).map (·.within o) := by
    unfold Progress.repeatLast
    rw [Progress.here_within]
    cases g.here.pieces with
    | nil => rfl
    | cons p more =>
      dsimp only
      split <;> rfl
  unfold readStep
  simp only [Progress.mode_within, Progress.here_within, hrepeat]
  split
  · exact readGroup_within g o s
  · exact absurd rfl hc
  · rfl
  · cases bracketClass g.mode s <;> rfl
  · cases g.repeatLast 0 (some 1) <;> rfl
  · cases g.repeatLast 0 none <;> rfl
  · cases g.repeatLast 1 none <;> rfl
  · cases g.here.pieces with
    | nil => rfl
    | cons p more =>
      cases readCounts g.mode s with
      | error e => rfl
      | ok v =>
        dsimp only [bind, Except.bind]
        cases g.repeatLast v.1.1 v.1.2 <;> rfl
  · cases escape g.mode s with
    | error e => rfl
    | ok v =>
      dsimp only [bind, Except.bind]
      cases v.1.pattern g.mode <;> rfl
  · cases (plainAtom g.mode c).pattern g.mode <;> rfl

/-- A parenthesis that closes the outermost group. -/
theorem closeGroup_within_last (hg : g.groups = []) (o : OpenGroup) :
    (g.within o).closeGroup = .ok
      { g with
        mode := o.mode
        here := o.outside.add
          ⟨.group o.captures g.here.close.pattern, 1 + g.here.close.depth, true⟩
        groups := [] } := by
  rw [Progress.closeGroup, Progress.within, hg]
  rfl

theorem closeGroup_within (hg : g.groups ≠ []) (o : OpenGroup) :
    (g.within o).closeGroup = g.closeGroup.map (·.within o) := by
  rw [Progress.closeGroup, Progress.closeGroup, Progress.within]
  cases hgroups : g.groups with
  | nil => exact absurd hgroups hg
  | cons o' more => rfl

theorem readAll_nil (fuel : Nat) (g : Progress) : readAll fuel g [] = .ok g := by
  cases fuel with
  | zero => rfl
  | succ fuel => rw [readAll, Mode.skip_nil]

theorem Pattern.assertsOnly_true (p : Pattern) : p.AssertsOnly fun _ => True := by
  induction p with
  | empty | oneOf | assertion => trivial
  | group _ p ih | times p _ _ ih => exact ih
  | seq p q ihp ihq | alt p q ihp ihq => exact ⟨ihp, ihq⟩

theorem Progress.assertsOnly_true (g : Progress) : g.AssertsOnly fun _ => True := by
  have halternatives (a : Alternatives) : a.AssertsOnly fun _ => True :=
    ⟨fun p _ => p.pattern.assertsOnly_true, fun p _ => p.pattern.assertsOnly_true⟩
  exact ⟨halternatives g.here, fun o _ => halternatives o.outside⟩

theorem reads_readStep (g : Progress) (c : Char) (s : List Char) :
    Reads s (fun _ => True) (readStep g c s) := by
  unfold readStep
  split
  · exact (g.assertsOnly_true.readGroup s).imp fun _ _ => trivial
  · exact .bind_value fun g' _ => .ok trivial List.suffix_rfl
  · exact .ok trivial List.suffix_rfl
  · exact (reads_bracketClass g.mode s).bind fun n rest _ hrest => .ok trivial hrest
  · exact .bind_value fun g' _ => .ok trivial (skipPreference_suffix s)
  · exact .bind_value fun g' _ => .ok trivial (skipPreference_suffix s)
  · exact .bind_value fun g' _ => .ok trivial (skipPreference_suffix s)
  · split
    · exact .error
    · refine (reads_readCounts g.mode s).bind fun counts rest _ hrest => ?_
      refine .bind_value fun g' _ => .ok trivial ?_
      exact (skipPreference_suffix _).trans ((g.mode.skip_suffix rest).trans hrest)
  · refine (reads_escape g.mode s).bind fun atom rest _ hrest => ?_
    exact .bind_value fun p _ => .ok trivial hrest
  · exact .bind_value fun p _ => .ok trivial List.suffix_rfl

/-- A reader that gets to the end inside the group has not closed it. -/
theorem groups_ne_of_readAll_nil {fuel : Nat} (h : readAll fuel (g.within o) [] = .ok g') :
    g'.groups ≠ [] := by
  rw [readAll_nil] at h
  cases h
  exact g.within_groups_ne o

/-- A lone brace cannot be read where a parenthesis follows. -/
theorem readAll_lone {fuel : Nat} (ht : LoneBrace g.mode s)
    (h : readAll fuel (g.within o) (s ++ [')']) = .ok g') : g'.groups ≠ [] := by
  cases fuel with
  | zero =>
    cases h
    exact g.within_groups_ne o
  | succ fuel =>
    obtain ⟨r, hskip, hr⟩ := ht.skip
    have hmode : (g.within o).mode = g.mode := rfl
    have hcounts : readCounts (g.within o).mode (r ++ [')']) = .error .badRepetition :=
      readCounts_lone g.mode hr
    rw [readAll, hmode, hskip] at h
    simp only [readStep, hcounts] at h
    split at h <;> cases h

theorem readStep_close (g : Progress) (s : List Char) :
    readStep g ')' s = g.closeGroup.map fun g' => (g', s) := by
  change (g.closeGroup >>= fun g' => .ok (g', s)) = _
  cases g.closeGroup <;> rfl

theorem readAll_cons {c : Char} (hs : g.mode.skip s = c :: rest) (fuel : Nat) :
    readAll (fuel + 1) g s = readStep g c rest >>= fun v => readAll fuel v.1 v.2 := by
  rw [readAll, hs]

/-- A parenthesis inside the group closes a group of the text, if one is open. -/
theorem readAll_close_within (hs : g.mode.skip s = ')' :: rest) (hg : g.groups ≠ []) {fuel : Nat}
    (h : readAll (fuel + 1) (g.within o) s = .ok g') :
    ∃ g₁, g.closeGroup = .ok g₁ ∧ readAll fuel (g₁.within o) rest = .ok g' := by
  rw [readAll_cons (g := g.within o) hs, readStep_close, closeGroup_within hg] at h
  cases hclose : g.closeGroup with
  | error e =>
    rw [hclose] at h
    cases h
  | ok g₁ =>
    rw [hclose] at h
    exact ⟨g₁, rfl, h⟩

/-- The parenthesis behind the text closes the group around it, with what was read inside. -/
theorem readAll_last_within (hs : g.mode.skip s = [')']) {fuel : Nat}
    (h : readAll (fuel + 1) (g.within o) s = .ok g') (hg' : g'.groups = []) :
    g.groups = [] ∧ g'.here = o.outside.add ⟨.group o.captures g.here.close.pattern,
      1 + g.here.close.depth, true⟩ := by
  by_cases hg : g.groups = []
  · rw [readAll_cons (g := g.within o) hs, readStep_close, closeGroup_within_last hg] at h
    change readAll fuel _ [] = .ok g' at h
    rw [readAll_nil] at h
    cases h
    exact ⟨hg, rfl⟩
  -- A group of the text takes the parenthesis, and the one around it is left open.
  · obtain ⟨g₁, -, hread⟩ := readAll_close_within hs hg h
    exact absurd hg' (groups_ne_of_readAll_nil hread)

/-- A text and a parenthesis that closes a group around it, read inside that group. The text by
itself closes a group that it has not opened, or it is read, and the group holds what is read. -/
theorem readAll_within {fuel fuel' : Nat} (hs : s.length < fuel')
    (h : readAll fuel (g.within o) (s ++ [')']) = .ok g') (hg' : g'.groups = []) :
    readAll fuel' g s = .error .groupUnopened ∨
      ∃ inner, readAll fuel' g s = .ok inner ∧ inner.groups = [] ∧
        g'.here = o.outside.add ⟨.group o.captures inner.here.close.pattern,
          1 + inner.here.close.depth, true⟩ := by
  induction fuel generalizing g s fuel' with
  | zero =>
    cases h
    exact absurd hg' (g.within_groups_ne o)
  | succ fuel ih =>
    obtain ⟨fuel', rfl⟩ : ∃ k, fuel' = k + 1 := ⟨fuel' - 1, by omega⟩
    have hlength := (g.mode.skip_suffix s).length_le
    cases g.mode.skip_extends s with
    | inl hskip =>
      rw [readAll, Progress.mode_within, hskip] at h
      cases h
      exact absurd hg' (g.within_groups_ne o)
    | inr hskip =>
      cases ht : g.mode.skip s with
      | nil =>
        rw [ht] at hskip
        obtain ⟨hgroups, hhere⟩ := readAll_last_within hskip h hg'
        refine Or.inr ⟨g, ?_, hgroups, hhere⟩
        rw [readAll, ht]
      | cons c rest =>
        rw [ht, List.cons_append] at hskip
        rw [ht, List.length_cons] at hlength
        rw [readAll_cons ht]
        by_cases hc : c = ')'
        · subst hc
          rw [readStep_close]
          by_cases hgroups : g.groups = []
          · apply Or.inl
            rw [Progress.closeGroup, hgroups]
            rfl
          · obtain ⟨g₁, hclose, hread⟩ := readAll_close_within hskip hgroups h
            rw [hclose]
            exact ih (s := rest) (by omega) hread
        · rw [readAll_cons (g := g.within o) hskip, readStep_within g o hc] at h
          cases hstep : readStep g c (rest ++ [')']) with
          | error e =>
            rw [hstep] at h
            cases h
          | ok v =>
            obtain ⟨g₁, u⟩ := v
            rw [hstep] at h
            change readAll fuel (g₁.within o) u = .ok g' at h
            obtain hu | ⟨t, hu, hown | ⟨hmode, hbrace⟩⟩ :=
              trims_readStep g hc rest g₁ u hstep
            · rw [hu] at h
              exact absurd hg' (groups_ne_of_readAll_nil h)
            · have hmore := (reads_readStep g c rest g₁ t hown).2.length_le
              rw [hown]
              rw [hu] at h
              exact ih (Nat.lt_of_le_of_lt hmore (by omega)) h
            · rw [hu] at h
              exact absurd hg' (readAll_lone (hmode ▸ hbrace) h)

end Within

/-- A text writes a pattern down: it is read to its end with no group left open. How deep the
pattern is nested and how much room its program takes does not matter. -/
def Pattern.WrittenBy (p : Pattern) (s : List Char) : Prop :=
  ∃ g, readAll (s.length + 1) {} s = .ok g ∧ g.groups = [] ∧ g.here.close.pattern = p

namespace Pattern

variable {p q : Pattern} {s : List Char}

theorem writtenBy_of_ofText (h : ofText s = .ok p) : p.WrittenBy s := by
  unfold ofText at h
  cases hg : readAll (s.length + 1) {} s with
  | error e =>
    rw [hg] at h
    cases h
  | ok g =>
    simp only [hg, bind, Except.bind] at h
    split at h
    · cases h
    next hgroups =>
    split at h
    · cases h
    split at h
    · cases h
      exact ⟨g, hg, hgroups, rfl⟩
    · cases h

/-- A text that writes a pattern down is compiled to it, unless the pattern is out of bounds. -/
theorem ofText_of_writtenBy (h : p.WrittenBy s) :
    ofText s = .ok p ∨ ofText s = .error .nestedTooDeep ∨ ofText s = .error .tooLarge := by
  obtain ⟨g, hg, hgroups, rfl⟩ := h
  unfold ofText
  simp only [hg, bind, Except.bind, hgroups]
  split
  · exact Or.inr (Or.inl rfl)
  split
  · exact Or.inl rfl
  · exact Or.inr (Or.inr rfl)

/-- Behind a character there is no start. -/
theorem before_onward (c : Char) (text : List Char) :
    ∀ o ∈ Spot.onward (some c) text, o.before.isNone = false := by
  induction text generalizing c with
  | nil => simp [Spot.onward]
  | cons d text ih =>
    rw [Spot.onward]
    exact List.forall_mem_cons.mpr ⟨rfl, ih d⟩

theorem advance_textStart (text : List Char) :
    (Pattern.assertion .textStart).advance (Spot.onward none text) = [Spot.start text] := by
  cases text with
  | nil => rfl
  | cons c text =>
    have hrest : (Spot.onward (some c) text).filter (fun o => o.before.isNone) = [] := by
      rw [List.filter_eq_nil_iff]
      intro o ho
      rw [before_onward c text o ho]
      exact Bool.false_ne_true
    change List.filter (fun o => o.before.isNone)
      (⟨none, c :: text⟩ :: Spot.onward (some c) text) = _
    rw [List.filter_cons_of_pos rfl, hrest]
    rfl

/-- A group behind an assertion of the start matches where its content matches a leading part. -/
theorem matchesIn_anchored (p : Pattern) (text : List Char) :
    (Pattern.seq (.assertion .textStart) (.seq (.group false p) .empty)).matchesIn text =
      p.matchesAtStart text := by
  unfold matchesIn matchesAtStart
  rw [advance, advance_textStart]
  rfl

/-- What an anchored text is compiled to: the pattern of the text in a group behind an assertion of
the start, unless the text closes a group that it has not opened. -/
theorem ofText_anchored (h : ofText (Rule.anchored s) = .ok q) :
    ofText s = .error .groupUnopened ∨
      ∃ p : Pattern, p.WrittenBy s ∧
        q = .seq (.assertion .textStart) (.seq (.group false p) .empty) := by
  let start : Alternatives := { pieces := [⟨.assertion .textStart, 0, true⟩] }
  let o : OpenGroup := ⟨start, {}, false⟩
  have hopen : readAll ((Rule.anchored s).length + 1) {} (Rule.anchored s) =
      readAll (s.length + 4) (({} : Progress).within o) (s ++ [')']) := by
    have hlength : (Rule.anchored s).length + 1 = s.length + 4 + 2 := by simp [Rule.anchored]
    rw [hlength]
    rfl
  obtain ⟨g', hread, hgroups, hq⟩ := writtenBy_of_ofText h
  rw [hopen] at hread
  obtain hown | ⟨inner, hown, hinner, hhere⟩ :=
    readAll_within (Nat.lt_succ_self _) hread hgroups
  · apply Or.inl
    rw [ofText, hown]
    rfl
  · refine Or.inr ⟨inner.here.close.pattern, ⟨inner, hown, hinner, rfl⟩, ?_⟩
    rw [← hq, hhere]
    rfl

end Pattern

end Regex

namespace Rule

variable {r : Rule} {kind : RuleKind} {source : String}

/-- A rule matches a name exactly where the pattern that its source writes down matches a leading
part of it, if and only if the source closes no group that it has not opened. -/
theorem anchored_iff (h : ofSource kind source = .ok r) :
    (∃ p : Regex.Pattern, p.WrittenBy source.toList ∧ ∀ name : String,
      r.pattern.matchesIn name.toList = p.matchesAtStart name.toList ∧
        r.pattern.matchesIn name.toList = r.pattern.matchesAtStart name.toList) ↔
      Regex.Pattern.ofText source.toList ≠ .error .groupUnopened := by
  obtain ⟨-, -, htext⟩ := ofText_of_ofSource h
  constructor
  · intro ⟨p, hp, _⟩ hopen
    have hcases := Regex.Pattern.ofText_of_writtenBy hp
    rw [hopen] at hcases
    obtain hok | hdeep | hlarge := hcases
    · cases hok
    · cases hdeep
    · cases hlarge
  · intro hclosed
    obtain ⟨p, hp, hpattern⟩ := (Regex.Pattern.ofText_anchored htext).resolve_left hclosed
    refine ⟨p, hp, fun name => ?_⟩
    rw [hpattern, Regex.Pattern.matchesIn_anchored]
    exact ⟨rfl, rfl⟩

end Rule

namespace Breakout

def kept : Rule where
  kind := .plain
  source := "a|b"
  pattern := .seq (.assertion .textStart) (.seq (.group false
    (.alt (.oneOf (.single 'a')) (.oneOf (.single 'b')))) .empty)

def broken : Rule where
  kind := .plain
  source := "a)|(b"
  pattern := .alt
    (.seq (.assertion .textStart) (.seq (.group false (.oneOf (.single 'a'))) .empty))
    (.group true (.oneOf (.single 'b')))

end Breakout

namespace Rule

/-- Both alternatives of a source are anchored. -/
theorem alternatives_are_anchored :
    ofSource .plain "a|b" = .ok Breakout.kept ∧
      Breakout.kept.pattern.matchesIn "bx".toList = true ∧
      Breakout.kept.pattern.matchesIn "xb".toList = false ∧
      ∃ p : Regex.Pattern, p.WrittenBy "a|b".toList ∧ ∀ name : String,
        Breakout.kept.pattern.matchesIn name.toList = p.matchesAtStart name.toList ∧
          Breakout.kept.pattern.matchesIn name.toList =
            Breakout.kept.pattern.matchesAtStart name.toList := by
  have hsource : ofSource .plain "a|b" = .ok Breakout.kept := by decide +kernel
  have hclosed : Regex.Pattern.ofText "a|b".toList ≠ .error .groupUnopened := by decide +kernel
  exact ⟨hsource, by decide +kernel, by decide +kernel, (anchored_iff hsource).mpr hclosed⟩

/-- A source that is no pattern by itself makes a rule that matches in the middle of a name only. -/
theorem broken_source_matches_inside :
    ofSource .plain "a)|(b" = .ok Breakout.broken ∧
      Breakout.broken.pattern.matchesIn "xb".toList = true ∧
      Breakout.broken.pattern.matchesAtStart "xb".toList = false ∧
      ¬∃ p : Regex.Pattern, p.WrittenBy "a)|(b".toList ∧
        p.matchesAtStart "xb".toList = true := by
  refine ⟨by decide +kernel, by decide +kernel, by decide +kernel, ?_⟩
  intro ⟨p, ⟨g, hread, _⟩, _⟩
  have hunopened : Regex.readAll ("a)|(b".toList.length + 1) {} "a)|(b".toList =
      .error .groupUnopened := by
    decide +kernel
  rw [hunopened] at hread
  cases hread

end Rule

end Retest
