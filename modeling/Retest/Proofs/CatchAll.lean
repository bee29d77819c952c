import Retest.Proofs.PatternText
import Retest.Select.Selection

/-! Rules that are known to report every name. Such a pattern matches the empty text, and what it
asserts there holds at the start of every text, so it matches the empty part at the start of any
name. -/

namespace Retest

namespace Regex

namespace Assertion

def Steady (a : Assertion) : Prop := a.holds none none = true → ∀ after, a.holds none after = true

/-- The other assertions look behind the spot, and all their spellings are looked for. -/
theorem steady_or_risky (a : Assertion) :
    a.Steady ∨ ∀ w ∈ a.spellings, w ∈ Rule.riskyAssertions := by
  cases a with
  | textStart | lineStart | wideLineStart | wordStartHalf => exact Or.inl fun _ after => rfl
  | wordBoundary | wordStart | wordEnd => exact Or.inl fun h => by cases h
  | textEnd | lineEnd | wideLineEnd | notWordBoundary | wordEndHalf =>
    exact Or.inr (by simp [spellings, Rule.riskyAssertions])

end Assertion

section Spots

variable {q : Spot} {step : List Spot → List Spot}

theorem mem_distinct (l : List Spot) : q ∈ distinct l ↔ q ∈ l := by
  have hfold (l acc : List Spot) :
      q ∈ l.foldl (fun acc p => if acc.contains p then acc else p :: acc) acc ↔
        q ∈ acc ∨ q ∈ l := by
    induction l generalizing acc with
    | nil => simp
    | cons p l ih =>
      rw [List.foldl_cons, ih, List.mem_cons]
      split
      · next hp =>
        rw [List.contains_iff_mem] at hp
        constructor
        · rintro (h | h)
          · exact Or.inl h
          · exact Or.inr (Or.inr h)
        · rintro (h | rfl | h)
          · exact Or.inl h
          · exact Or.inl hp
          · exact Or.inr h
      · rw [List.mem_cons, or_assoc, or_left_comm]
  rw [distinct, List.mem_reverse, hfold]
  simp

theorem mem_spread (rounds : Nat) (seen fresh : List Spot) (h : q ∈ seen) :
    q ∈ spread step rounds seen fresh := by
  fun_induction spread step rounds seen fresh with
  | case1 | case2 => exact h
  | case3 rounds seen fresh _ next ih => exact ih (List.mem_append_left _ h)

theorem spread_nil (rounds : Nat) : spread step rounds [] [] = [] := by
  cases rounds <;> rfl

theorem iterate_nil (n : Nat) : iterate step n [] = [] := by
  cases n <;> rfl

/-- Where something is left after the rounds, the first of them left something. -/
theorem step_ne_nil {n : Nat} {s : List Spot} (hn : 0 < n) (h : iterate step n s ≠ []) :
    step s ≠ [] := by
  intro hnil
  fun_cases iterate step n s with
  | case1 => omega
  | case2 n => exact h (iterate_nil _)
  | case3 n s hs =>
    rw [iterate, hnil, iterate_nil] at h
    · exact h rfl
    · exact hs

/-- A spot that every step keeps stays. -/
theorem mem_iterate (hstep : ∀ s, q ∈ s → q ∈ step s) (n : Nat) (s : List Spot) (h : q ∈ s) :
    q ∈ iterate step n s := by
  fun_induction iterate step n s with
  | case1 => exact h
  | case2 => cases h
  | case3 n s _ ih => exact ih (hstep s h)

/-- What every step keeps of all its spots holds in the end. -/
theorem forall_mem_iterate {P : Spot → Prop}
    (hstep : ∀ s, (∀ p ∈ s, P p) → ∀ p ∈ step s, P p) (n : Nat) (s : List Spot)
    (h : ∀ p ∈ s, P p) : ∀ p ∈ iterate step n s, P p := by
  fun_induction iterate step n s with
  | case1 | case2 => exact h
  | case3 n s _ ih => exact ih (hstep s h)

theorem forall_mem_spread {P : Spot → Prop}
    (hstep : ∀ s, (∀ p ∈ s, P p) → ∀ p ∈ step s, P p) (rounds : Nat) (seen fresh : List Spot)
    (hseen : ∀ p ∈ seen, P p) (hfresh : ∀ p ∈ fresh, P p) :
    ∀ p ∈ spread step rounds seen fresh, P p := by
  fun_induction spread step rounds seen fresh with
  | case1 | case2 => exact hseen
  | case3 rounds seen fresh _ next ih =>
    have hnext : ∀ p ∈ next, P p := fun p hp => hstep fresh hfresh p (List.mem_filter.mp hp).1
    exact ih (List.forall_mem_append.mpr ⟨hseen, hnext⟩) hnext

/-- There is a round for every spot. -/
theorem roundsFor_pos {s : List Spot} (h : s ≠ []) : 0 < roundsFor s := by
  have hfold (s : List Spot) (n : Nat) :
      n ≤ s.foldl (fun n p => max n (p.rest.length + 1)) n := by
    induction s generalizing n with
    | nil => exact Nat.le_refl n
    | cons p s ih => exact (Nat.le_max_left _ _).trans (ih _)
  cases s with
  | nil => exact absurd rfl h
  | cons p s =>
    have hfirst : 0 < max 0 (p.rest.length + 1) := by omega
    exact Nat.lt_of_lt_of_le hfirst (hfold s _)

end Spots

namespace Pattern

theorem advance_nil (p : Pattern) : p.advance [] = [] := by
  induction p with
  | empty | oneOf | assertion => rfl
  | group _ p ih => exact ih
  | seq p q ihp ihq => rw [advance, ihp, ihq]
  | alt p q ihp ihq =>
    rw [advance, ihp, ihq]
    rfl
  | times p min max ih =>
    simp only [advance, iterate_nil, spread_nil]

/-- From the start of the empty text no pattern leads elsewhere. -/
theorem advance_empty_text (p : Pattern) (s : List Spot) (h : ∀ q ∈ s, q = Spot.start []) :
    ∀ q ∈ p.advance s, q = Spot.start [] := by
  induction p generalizing s with
  | empty => exact h
  | oneOf cs =>
    intro q hq
    obtain ⟨o, ho, hread⟩ := List.mem_filterMap.mp hq
    rw [h o ho] at hread
    cases hread
  | assertion a => exact fun q hq => h q (List.mem_filter.mp hq).1
  | group _ p ih => exact ih s h
  | seq p q ihp ihq => exact ihq _ (ihp s h)
  | alt p q ihp ihq =>
    intro o ho
    rcases List.mem_append.mp ((mem_distinct _).mp ho) with ho | ho
    · exact ihp s h o ho
    · exact ihq s h o ho
  | times p min max ih =>
    have hstep (s : List Spot) (h : ∀ q ∈ s, q = Spot.start []) :
        ∀ q ∈ distinct (p.advance s), q = Spot.start [] :=
      fun q hq => ih s h q ((mem_distinct _).mp hq)
    have hfirst := forall_mem_iterate hstep (Nat.min min (roundsFor s)) s h
    exact forall_mem_spread hstep _ _ _ hfirst hfirst

/-- A pattern of steady assertions that matches the empty text matches nothing at the start of any
text. -/
theorem start_mem_advance {p : Pattern} (hp : p.AssertsOnly Assertion.Steady) {s : List Spot}
    (hs : ∀ q ∈ s, q = Spot.start []) (hmatch : p.advance s ≠ []) (text : List Char)
    (t : List Spot) (ht : Spot.start text ∈ t) : Spot.start text ∈ p.advance t := by
  induction p generalizing s t with
  | empty => exact ht
  | oneOf cs =>
    refine absurd ?_ hmatch
    rw [advance, List.filterMap_eq_nil_iff]
    intro q hq
    rw [hs q hq]
    rfl
  | assertion a =>
    obtain ⟨q, hq⟩ := List.exists_mem_of_ne_nil _ hmatch
    obtain ⟨hqs, hholds⟩ := List.mem_filter.mp hq
    rw [hs q hqs] at hholds
    exact List.mem_filter.mpr ⟨ht, hp hholds _⟩
  | group _ p ih => exact ih hp hs hmatch t ht
  | seq p q ihp ihq =>
    have hfirst : p.advance s ≠ [] := by
      intro hnil
      exact hmatch (by rw [advance, hnil, advance_nil])
    exact ihq hp.2 (advance_empty_text p s hs) hmatch _ (ihp hp.1 hs hfirst t ht)
  | alt p q ihp ihq =>
    rw [advance, mem_distinct, List.mem_append]
    obtain ⟨o, ho⟩ := List.exists_mem_of_ne_nil _ hmatch
    rcases List.mem_append.mp ((mem_distinct _).mp ho) with ho | ho
    · exact Or.inl (ihp hp.1 hs (List.ne_nil_of_mem ho) t ht)
    · exact Or.inr (ihq hp.2 hs (List.ne_nil_of_mem ho) t ht)
  | times p min max ih =>
    -- The start is there after the rounds that must be done, and no round that may follow drops it.
    refine mem_spread _ _ _ ?_
    have hrepeated :
        iterate (fun s => distinct (p.advance s)) (Nat.min min (roundsFor s)) s ≠ [] := by
      intro hnil
      simp only [advance, hnil, spread_nil] at hmatch
      exact hmatch rfl
    rcases Nat.eq_zero_or_pos min with rfl | hmin
    · have hzero : Nat.min 0 (roundsFor t) = 0 := Nat.zero_min _
      rwa [hzero]
    -- How often the rounds are repeated depends on the text, but what one of them does to the empty
    -- text is known, and with it that every round on the other text keeps the start.
    · have hs' : s ≠ [] := by
        rintro rfl
        exact hrepeated (iterate_nil _)
      have hrounds : 0 < Nat.min min (roundsFor s) := Nat.lt_min.mpr ⟨hmin, roundsFor_pos hs'⟩
      have hadvance : p.advance s ≠ [] := by
        intro hnil
        exact step_ne_nil hrounds hrepeated (by rw [hnil]; rfl)
      exact mem_iterate (fun u hu => (mem_distinct _).mpr (ih hp hs hadvance u hu)) _ t ht

/-- Such a pattern matches every text. -/
theorem matchesIn_of_empty {p : Pattern} (hp : p.AssertsOnly Assertion.Steady)
    (h : p.matchesIn [] = true) (text : List Char) : p.matchesIn text = true := by
  have hmatch : p.advance [Spot.start []] ≠ [] := by
    simpa [matchesIn, Spot.onward, Spot.start] using h
  have hstart : Spot.start text ∈ Spot.onward none text := by
    cases text <;> exact List.mem_cons_self
  have hmem := start_mem_advance hp (by simp) hmatch text _ hstart
  simpa [matchesIn] using List.ne_nil_of_mem hmem

end Pattern

end Regex

namespace Rule

theorem occursIn_iff (part s : List Char) : occursIn part s = true ↔ part <:+: s := by
  induction s with
  | nil => simp [occursIn]
  | cons c s ih =>
    rw [occursIn, Bool.or_eq_true, List.isPrefixOf_iff_prefix, ih, List.infix_cons_iff]

section Infix

variable {w s : List Char} {c : Char}

theorem infix_of_cons (h : w <:+: c :: s) (hc : c ∉ w) : w <:+: s := by
  rcases List.infix_cons_iff.mp h with ⟨t, ht⟩ | h
  · cases w with
    | nil => exact List.nil_infix
    | cons d w =>
      cases ht
      exact absurd List.mem_cons_self hc
  · exact h

theorem infix_of_concat (h : w <:+: s ++ [c]) (hc : c ∉ w) : w <:+: s := by
  rw [← List.reverse_infix, List.reverse_append] at h
  exact List.reverse_infix.mp (infix_of_cons h (by simpa using hc))

/-- What is put around a source spells none of these assertions, not even together with it. -/
theorem infix_of_anchored (hw : w ∈ riskyAssertions) (h : w <:+: anchored s) : w <:+: s := by
  have hmarks : ∀ w ∈ riskyAssertions, ∀ c ∈ ['^', '(', '?', ':', ')'], c ∉ w := by
    simp [riskyAssertions]
  replace hmarks := hmarks w hw
  have hfront := infix_of_concat h (hmarks ')' (by decide))
  change w <:+: '^' :: '(' :: '?' :: ':' :: s at hfront
  exact infix_of_cons (infix_of_cons (infix_of_cons (infix_of_cons hfront (hmarks '^' (by decide)))
    (hmarks '(' (by decide))) (hmarks '?' (by decide))) (hmarks ':' (by decide))

end Infix

def Compiled (r : Rule) : Prop := ofSource r.kind r.source = .ok r

variable {r : Rule}

theorem ofText_of_ofSource {kind : RuleKind} {source : String} (h : ofSource kind source = .ok r) :
    r.kind = kind ∧ r.source = source ∧
      Regex.Pattern.ofText (anchored source.toList) = .ok r.pattern := by
  rw [ofSource] at h
  cases ht : Regex.Pattern.ofText (anchored source.toList) with
  | error e =>
    rw [ht] at h
    cases h
  | ok p =>
    rw [ht] at h
    cases h
    exact ⟨rfl, rfl, rfl⟩

theorem compiled_of_ofSource {kind : RuleKind} {source : String}
    (h : ofSource kind source = .ok r) : r.Compiled := by
  obtain ⟨rfl, rfl, -⟩ := ofText_of_ofSource h
  exact h

/-- A rule that is known to report every name does so. -/
theorem reports_of_isCatchAll (hr : r.Compiled) (h : r.isCatchAll = true) (name : String) :
    r.reports name = true := by
  obtain ⟨-, -, hpattern⟩ := ofText_of_ofSource hr
  obtain ⟨hkind, hempty, hcalm⟩ : (∀ matched, r.kind.reports matched = matched) ∧
      r.pattern.matchesIn [] = true ∧
        ∀ w ∈ riskyAssertions, occursIn w r.source.toList = false := by
    rw [isCatchAll] at h
    cases hk : r.kind with
    | excludes =>
      rw [hk] at h
      cases h
    | plain | includes =>
      rw [hk] at h
      exact ⟨fun _ => rfl, by simpa using h⟩
  have hsteady : r.pattern.AssertsOnly Regex.Assertion.Steady := by
    refine (Regex.Pattern.spelled_of_ofText hpattern).imp fun a ha => ?_
    refine a.steady_or_risky.resolve_right fun hrisky => ?_
    -- It would be spelled in the source, which is known to spell no such assertion.
    obtain ⟨w, hw, hin⟩ := ha
    have hoccurs := (occursIn_iff w _).mpr (infix_of_anchored (hrisky w hw) hin)
    rw [hcalm w (hrisky w hw)] at hoccurs
    cases hoccurs
  rw [reports, hkind, Regex.Pattern.matchesIn_of_empty hsteady hempty]

end Rule

namespace RuleBook

variable {b : RuleBook}

def Compiled (b : RuleBook) : Prop := ∀ r ∈ b.rules, r.Compiled

theorem compiled_readLines {file : Path} {number : Nat} {lines : List (List Char)}
    {rules : List Rule} (h : readLines file number lines = .ok rules) :
    ∀ r ∈ rules, r.Compiled := by
  induction lines generalizing number rules with
  | nil =>
    cases h
    simp
  | cons line lines ih =>
    unfold readLines at h
    split at h
    · exact ih h
    · cases h
    · next r hr =>
      cases hrest : readLines file (number + 1) lines with
      | error e =>
        rw [hrest] at h
        cases h
      | ok more =>
        rw [hrest] at h
        cases h
        rw [Rule.ofLine] at hr
        split at hr
        · cases hr
        · exact List.forall_mem_cons.mpr
            ⟨Rule.compiled_of_ofSource (Option.some.inj hr), ih hrest⟩

/-- Rules that are read from a file are compiled, too. -/
theorem compiled_reload (h : b.Compiled) (tree : FileTree) : (b.reload tree).1.Compiled := by
  unfold reload
  split
  · exact h
  · next file _ =>
    split
    · next rules hread =>
      unfold readFile at hread
      split at hread
      · cases hread
        simp [Compiled]
      split at hread
      · cases hread
      split at hread
      · cases hread
      · exact compiled_readLines hread
    · simp [Compiled]

/-- Rules that are known to leave nothing leave nothing. -/
theorem reports_of_acceptsNone (hb : b.Compiled) (h : b.acceptsNone = true) (name : String) :
    b.reports name = true := by
  obtain ⟨r, hr, hall⟩ := List.any_eq_true.mp h
  exact List.any_eq_true.mpr ⟨r, hr, Rule.reports_of_isCatchAll (hb r hr) hall name⟩

end RuleBook

namespace Selection

variable (s : Selection) (tree : FileTree) (source : ClassSource) (files : List Path)

/-- The tests that some files call for by the rules in force, without a look at whether these leave
anything. -/
def fullTestsFor : SortedSet String :=
  let (catalog, changed) := s.catalog.update source tree.pathExists files
  { s with catalog }.eligible (changed.union (catalog.dependents changed.keys))

/-- No class is eligible by rules that are known to leave nothing. -/
theorem eligible_of_acceptsNone (h : s.rules.Compiled) (hnone : s.rules.acceptsNone = true)
    (classes : SortedMap String JvmClass) : s.eligible classes = .empty := by
  have hreports := RuleBook.reports_of_acceptsNone h hnone
  have hfiltered : classes.values.filter s.isEligible = [] := by
    rw [List.filter_eq_nil_iff]
    intro c _
    simp [isEligible, hreports]
  rw [eligible, hfiltered]
  rfl

/-- Where the rules are known to leave nothing, they report every name, so the early answers are
those of the full selection. -/
theorem early_answers_sound (h : s.rules.Compiled) :
    (s.rules.acceptsNone = true → ∀ name, s.rules.reports name = true) ∧
      (s.testsFor tree source files).2 = (s.reloadRules tree).2.map
        (fun _ => (s.reloadRules tree).1.fullTestsFor tree source files) ∧
      (s.testsNow tree).2 = (s.reloadRules tree).2.map
        (fun _ => (s.reloadRules tree).1.currentTests) := by
  have hreload : (s.reloadRules tree).1.rules.Compiled := RuleBook.compiled_reload h tree
  refine ⟨RuleBook.reports_of_acceptsNone h, ?_, ?_⟩
  · unfold testsFor
    cases hr : s.reloadRules tree with
    | mk s' result =>
      rw [hr] at hreload
      cases result with
      | error e => rfl
      | ok =>
        dsimp only
        split
        · next hnone =>
          have hfull : s'.fullTestsFor tree source files = .empty :=
            eligible_of_acceptsNone { s' with catalog := _ } hreload hnone _
          exact congrArg Except.ok hfull.symm
        · rfl
  · unfold testsNow
    cases hr : s.reloadRules tree with
    | mk s' result =>
      rw [hr] at hreload
      cases result with
      | error e => rfl
      | ok =>
        dsimp only
        split
        · next hnone =>
          exact congrArg Except.ok (eligible_of_acceptsNone s' hreload hnone _).symm
        · rfl

end Selection

namespace Unbalanced

/-- A parenthesis in the source closes the group that was meant to hold it, so that the second
alternative stands outside of it, in a mode of its own. -/
def rule : Rule where
  kind := .plain
  source := "a)|((?m)^"
  pattern := .alt
    (.seq (.assertion .textStart) (.seq (.group false (.oneOf (.single 'a'))) .empty))
    (.group true (.seq .empty (.seq (.assertion .lineStart) .empty)))

def tree : FileTree :=
  ⟨.directory [("c", .directory [("A.class", .file [] default)])], []⟩

def source : ClassSource where
  parse p := .ofImports "A" [] true (some p)
  resolve := .placeholder

def selection : Selection where
  rules := { rules := [rule] }
  classDirs := [⟨"c"⟩]

theorem compiled_selection : selection.rules.Compiled := by
  intro r hr
  obtain rfl := List.mem_singleton.mp hr
  unfold Rule.Compiled
  decide +kernel

end Unbalanced

namespace Selection

/-- A rule with unbalanced parentheses and a mode for lines reports every name all the same, so that
the test of a listed file is left out. -/
theorem unbalanced_rule_reports_all :
    Unbalanced.selection.rules.Compiled ∧ Unbalanced.selection.rules.acceptsNone = true ∧
      (∀ name, Unbalanced.selection.rules.reports name = true) ∧
      Unbalanced.selection.fullTestsFor Unbalanced.tree Unbalanced.source [⟨"c/A.class"⟩] =
        .empty ∧
      ({ Unbalanced.selection with rules := {} }.fullTestsFor Unbalanced.tree Unbalanced.source
        [⟨"c/A.class"⟩]).toList = ["A"] := by
  have hnone : Unbalanced.selection.rules.acceptsNone = true := by decide +kernel
  obtain ⟨hall, hfull, -⟩ := early_answers_sound Unbalanced.selection Unbalanced.tree
    Unbalanced.source [⟨"c/A.class"⟩] Unbalanced.compiled_selection
  have hearly : (Unbalanced.selection.testsFor Unbalanced.tree Unbalanced.source
      [⟨"c/A.class"⟩]).2 = .ok .empty := by
    unfold testsFor reloadRules RuleBook.reload
    simp only [show Unbalanced.selection.rules.file = none from rfl]
    rw [if_pos hnone]
  exact ⟨Unbalanced.compiled_selection, hnone, hall hnone,
    Except.ok.inj (hfull.symm.trans hearly), by decide +kernel⟩

end Selection

end Retest
