import Mathlib.Data.List.TakeWhile
import Mathlib.Tactic.Common
import Retest.Config.Template
import Retest.Text.Blank

/-! Which texts expand to nothing but characters of one kind, such as white space: those in which
each character that is no part of a reference is of that kind, and each reference stands for such
characters. -/

namespace Retest

/-- What may stand between braces: the name of a variable, alone or with a text that stands in for
it. The first mark that has something before it ends the name. -/
inductive Naming : List Char → List Char → Option (List Char) → Prop
  | alone (name : List Char) (h : [':', '-'] <+: name ∨ ¬[':', '-'] <:+: name) :
    Naming name name none
  | standIn (name text : List Char) (hname : name ≠ []) (h : ¬[':', '-'] <:+: name) :
    Naming (name ++ ':' :: '-' :: text) name (some text)

/-- A reference behind its dollar sign: the name, what stands in for it, and what follows the
reference. A name without braces is as long as it can be. -/
inductive Reference : List Char → List Char → Option (List Char) → List Char → Prop
  | bare (name rest : List Char) (hname : name ≠ [])
    (hfirst : name.head? ≠ some '$' ∧ name.head? ≠ some '\x7b')
    (hchars : ∀ c ∈ name, isVariableChar c = true)
    (hrest : ∀ c, rest.head? = some c → isVariableChar c = false) :
    Reference (name ++ rest) name none rest
  | braced (inside name : List Char) (standIn : Option (List Char)) (rest : List Char)
    (hinside : Naming inside name standIn) (hclosed : '\x7d' ∉ inside) :
    Reference ('\x7b' :: (inside ++ '\x7d' :: rest)) name standIn rest

namespace Environment

variable (env : Environment)

/-- What a reference stands for: the value of the variable, or else what stands in for it. -/
def valueOf? (name : List Char) (standIn : Option (List Char)) : Option (List Char) :=
  ((env.find? (String.ofList name)).map String.toList).or standIn

inductive Yields (p : Char → Bool) : List Char → Prop
  | nil : Yields p []
  | char (c : Char) (rest : List Char) (hdollar : c ≠ '$') (hc : p c = true) (hr : Yields p rest) :
    Yields p (c :: rest)
  | reference (s name : List Char) (standIn : Option (List Char)) (rest value : List Char)
    (hs : Reference s name standIn rest) (hv : env.valueOf? name standIn = some value)
    (hp : value.all p = true) (hr : Yields p rest) : Yields p ('$' :: s)

/-- A text of which nothing but white space comes out. That can be the name of the home directory,
if nothing comes out behind a tilde. -/
inductive Blanks : List Char → Prop
  | plain (s : List Char) (h : env.Yields isBlank s) : Blanks s
  | home (rest : List Char) (dir : String) (hr : env.Yields (fun _ => false) rest)
    (hd : env.home? = some dir) (hb : isBlankText dir = true) : Blanks ('~' :: rest)

end Environment

/-! ## Names between braces -/

theorem cutAt_eq_none_iff (s : List Char) :
    cutAt? [':', '-'] s = none ↔ ¬[':', '-'] <:+: s := by
  induction s with
  | nil => simp [cutAt?]
  | cons c s ih =>
    rw [cutAt?, List.infix_cons_iff, not_or, ← ih, ← List.isPrefixOf_iff_prefix]
    cases [':', '-'].isPrefixOf (c :: s) <;> simp

theorem cutAt_of_not_infix (s rest : List Char) (h : ¬[':', '-'] <:+: s) :
    cutAt? [':', '-'] (s ++ ':' :: '-' :: rest) = some (s, rest) := by
  induction s with
  | nil => simp [cutAt?, List.isPrefixOf]
  | cons c s ih =>
    rw [List.infix_cons_iff, not_or] at h
    -- The mark can not begin within the name and end behind it, since its characters differ.
    have hno : [':', '-'].isPrefixOf (c :: (s ++ ':' :: '-' :: rest)) = false := by
      rw [Bool.eq_false_iff, Ne, List.isPrefixOf_iff_prefix]
      cases s with
      | nil => simp [List.cons_prefix_cons]
      | cons d s => simpa [List.cons_prefix_cons] using h.1
    rw [List.cons_append, cutAt?, hno, ih h.2]
    rfl

theorem of_cutAt_eq_some (s front rest : List Char)
    (h : cutAt? [':', '-'] s = some (front, rest)) :
    s = front ++ ':' :: '-' :: rest ∧ ¬[':', '-'] <:+: front := by
  induction s generalizing front with
  | nil => cases h
  | cons c s ih =>
    rw [cutAt?] at h
    split at h
    · next hmark =>
      rw [List.isPrefixOf_iff_prefix] at hmark
      obtain ⟨t, ht⟩ := hmark
      rw [← ht] at h ⊢
      cases h
      exact ⟨rfl, by simp⟩
    · next hmark =>
      rw [List.isPrefixOf_iff_prefix] at hmark
      obtain ⟨⟨f, r⟩, hcut, hr⟩ := Option.map_eq_some_iff.mp h
      cases hr
      obtain ⟨rfl, hfront⟩ := ih f hcut
      refine ⟨rfl, ?_⟩
      rw [List.infix_cons_iff, not_or]
      exact ⟨fun hf => hmark (hf.trans (List.prefix_append (c :: f) _)), hfront⟩

theorem exists_naming (inside : List Char) : ∃ name standIn, Naming inside name standIn := by
  cases hcut : cutAt? [':', '-'] inside with
  | none => exact ⟨inside, none, .alone inside (Or.inr ((cutAt_eq_none_iff inside).mp hcut))⟩
  | some r =>
    obtain ⟨name, text⟩ := r
    obtain ⟨rfl, hname⟩ := of_cutAt_eq_some inside name text hcut
    by_cases hnil : name = []
    · subst hnil
      exact ⟨_, none, .alone _ (Or.inl (List.prefix_append [':', '-'] text))⟩
    · exact ⟨name, some text, .standIn name text hnil hname⟩

variable {env : Environment}

theorem bracedValue_eq {inside name : List Char} {standIn : Option (List Char)}
    (h : Naming inside name standIn) : bracedValue env inside =
      match env.valueOf? name standIn with
      | some value => .ok value
      | none => .error (String.ofList name) := by
  cases h with
  | alone _ h =>
    obtain ⟨text, rfl⟩ | hnone := h
    · have hcut : cutAt? [':', '-'] ([':', '-'] ++ text) = some ([], text) := rfl
      simp only [bracedValue, hcut, Environment.valueOf?]
      cases env.find? (String.ofList ([':', '-'] ++ text)) <;> rfl
    · simp only [bracedValue, (cutAt_eq_none_iff inside).mpr hnone, Environment.valueOf?]
      cases env.find? (String.ofList inside) <;> rfl
  | standIn name text hname h =>
    simp only [bracedValue, cutAt_of_not_infix name text h, Environment.valueOf?]
    cases name with
    | nil => exact absurd rfl hname
    | cons c name => cases env.find? (String.ofList (c :: name)) <;> rfl

/-! ## Replacing references -/

theorem of_map_eq_ok {ε α β : Type} {f : α → β} {r : Except ε α} {b : β} (h : r.map f = .ok b) :
    ∃ a, r = .ok a ∧ f a = b := by
  cases r with
  | error e => cases h
  | ok a => exact ⟨a, rfl, Except.ok.inj h⟩

/-- What is taken as long as a property holds ends where the property ends. -/
theorem takeWhile_append_of_stop {p : Char → Bool} {front rest : List Char}
    (hfront : ∀ c ∈ front, p c = true) (hrest : ∀ c, rest.head? = some c → p c = false) :
    (front ++ rest).takeWhile p = front ∧ (front ++ rest).dropWhile p = rest := by
  rw [List.takeWhile_append_of_pos hfront, List.dropWhile_append_of_pos hfront]
  cases rest with
  | nil => simp
  | cons c rest => simp [hrest c rfl]

theorem replaceVariables_cons {c : Char} (hc : c ≠ '$') (fuel : Nat) (rest : List Char) :
    replaceVariables env (fuel + 1) (c :: rest) =
      (replaceVariables env fuel rest).map (c :: ·) := by
  rw [replaceVariables]
  exact hc

theorem Reference.length_le {s name rest : List Char} {standIn : Option (List Char)}
    (h : Reference s name standIn rest) : rest.length ≤ s.length := by
  cases h with
  | bare => simp
  | braced => simp; omega

theorem replaceVariables_reference {s name rest : List Char} {standIn : Option (List Char)}
    (h : Reference s name standIn rest) (fuel : Nat) : replaceVariables env (fuel + 1) ('$' :: s) =
      match env.valueOf? name standIn with
      | some value => (replaceVariables env fuel rest).map (value ++ ·)
      | none => .error (String.ofList name) := by
  cases h with
  | bare name rest hname hfirst hchars hrest =>
    obtain ⟨htake, hdrop⟩ := takeWhile_append_of_stop hchars hrest
    obtain ⟨c, name, rfl⟩ := List.exists_cons_of_ne_nil hname
    rw [List.cons_append] at htake hdrop ⊢
    rw [replaceVariables]
    · simp only [htake, hdrop, Environment.valueOf?]
      cases env.find? (String.ofList (c :: name)) <;> rfl
    · rintro _ ⟨⟩
      exact hfirst.1 rfl
    · rintro _ ⟨⟩
      exact hfirst.2 rfl
  | braced inside name standIn rest hinside hclosed =>
    have htake : (inside ++ '\x7d' :: rest).takeWhile (· ≠ '\x7d') = inside := by
      refine (takeWhile_append_of_stop ?_ ?_).1
      · simpa using fun c hc => ne_of_mem_of_not_mem hc hclosed
      · simp
    simp only [replaceVariables, htake, List.drop_left, bracedValue_eq hinside]
    cases env.valueOf? name standIn <;> rfl

theorem Reference.of_name {s : List Char} (hname : s.takeWhile isVariableChar ≠ [])
    (hfirst : s.head? ≠ some '$' ∧ s.head? ≠ some '\x7b') :
    Reference s (s.takeWhile isVariableChar) none (s.dropWhile isVariableChar) := by
  have hhead (c : Char) (hc : s.head? ≠ some c) :
      (s.takeWhile isVariableChar).head? ≠ some c := by
    rw [List.head?_takeWhile]
    exact fun h => hc (Option.eq_some_of_filter_eq_some h)
  have hbare := Reference.bare (s.takeWhile isVariableChar) (s.dropWhile isVariableChar) hname
    ⟨hhead '$' hfirst.1, hhead '\x7b' hfirst.2⟩ (fun c => List.mem_takeWhile_imp) (by
      intro c hc
      simpa [hc] using List.head?_dropWhile_not isVariableChar s)
  rwa [List.takeWhile_append_dropWhile] at hbare

/-- Where no reference begins behind a dollar sign, the sign stands for itself. -/
theorem head_replaceVariables {s t : List Char} {fuel : Nat}
    (hno : ∀ name standIn rest, ¬Reference s name standIn rest)
    (h : replaceVariables env (fuel + 1) ('$' :: s) = .ok t) : t.head? = some '$' := by
  have hkept (front s : List Char)
      (h : (replaceVariables env fuel s).map ('$' :: front ++ ·) = .ok t) : t.head? = some '$' := by
    obtain ⟨u, -, rfl⟩ := of_map_eq_ok h
    rfl
  by_cases hdollar : s.head? = some '$'
  · obtain ⟨rest, rfl⟩ := List.head?_eq_some_iff.mp hdollar
    exact hkept [] rest h
  by_cases hbrace : s.head? = some '\x7b'
  · obtain ⟨rest, rfl⟩ := List.head?_eq_some_iff.mp hbrace
    by_cases hclosed : '\x7d' ∈ rest
    · obtain ⟨inside, after, rfl, hinside⟩ := List.eq_append_cons_of_mem hclosed
      obtain ⟨name, standIn, hnaming⟩ := exists_naming inside
      exact absurd (.braced inside name standIn after hnaming hinside) (hno name standIn after)
    · have htake : rest.takeWhile (· ≠ '\x7d') = rest := by
        rw [List.takeWhile_eq_self_iff]
        simpa using fun c hc => ne_of_mem_of_not_mem hc hclosed
      simp only [replaceVariables, htake, List.drop_length] at h
      exact hkept ['\x7b'] rest h
  by_cases hname : s.takeWhile isVariableChar = []
  · rw [replaceVariables] at h
    · rw [hname] at h
      exact hkept [] s h
    · rintro rest rfl
      exact hdollar rfl
    · rintro rest rfl
      exact hbrace rfl
  · exact absurd (Reference.of_name hname ⟨hdollar, hbrace⟩) (hno _ none _)

variable {p : Char → Bool}

theorem yields_of_all (hp : p '$' = false) {fuel : Nat} {s t : List Char} (hfuel : s.length < fuel)
    (h : replaceVariables env fuel s = .ok t) (ht : t.all p = true) : env.Yields p s := by
  -- The text has no case for a reference, so the induction is on the fuel.
  induction fuel generalizing s t with
  | zero => exact absurd hfuel (Nat.not_lt_zero _)
  | succ fuel ih =>
    cases s with
    | nil => exact .nil
    | cons c s =>
      have hs : s.length < fuel := Nat.lt_of_succ_lt_succ hfuel
      by_cases hdollar : c = '$'
      · subst hdollar
        by_cases href : ∃ name standIn rest, Reference s name standIn rest
        · obtain ⟨name, standIn, rest, href⟩ := href
          rw [replaceVariables_reference href] at h
          cases hv : env.valueOf? name standIn with
          | none => simp [hv] at h
          | some value =>
            rw [hv] at h
            obtain ⟨u, hu, rfl⟩ := of_map_eq_ok h
            rw [List.all_append, Bool.and_eq_true] at ht
            exact .reference s name standIn rest value href hv ht.1
              (ih (Nat.lt_of_le_of_lt href.length_le hs) hu ht.2)
        · -- A dollar sign that comes out has not the property.
          have hhead := head_replaceVariables (by simpa using href) h
          obtain ⟨u, rfl⟩ := List.head?_eq_some_iff.mp hhead
          simp [hp] at ht
      · rw [replaceVariables_cons hdollar] at h
        obtain ⟨u, hu, rfl⟩ := of_map_eq_ok h
        rw [List.all_cons, Bool.and_eq_true] at ht
        exact .char c s hdollar ht.1 (ih hs hu ht.2)

theorem all_of_yields {fuel : Nat} {s t : List Char} (hy : env.Yields p s) (hfuel : s.length < fuel)
    (h : replaceVariables env fuel s = .ok t) : t.all p = true := by
  induction hy generalizing fuel t with
  | nil =>
    cases fuel <;> cases h <;> rfl
  | char c rest hdollar hc _ ih =>
    obtain ⟨fuel, rfl⟩ := Nat.exists_eq_succ_of_ne_zero (Nat.ne_zero_of_lt hfuel)
    rw [replaceVariables_cons hdollar] at h
    obtain ⟨u, hu, rfl⟩ := of_map_eq_ok h
    rw [List.all_cons, hc, Bool.true_and]
    exact ih (Nat.lt_of_succ_lt_succ hfuel) hu
  | reference s name standIn rest value hs hv hp _ ih =>
    obtain ⟨fuel, rfl⟩ := Nat.exists_eq_succ_of_ne_zero (Nat.ne_zero_of_lt hfuel)
    rw [replaceVariables_reference hs, hv] at h
    obtain ⟨u, hu, rfl⟩ := of_map_eq_ok h
    rw [List.all_append, hp, Bool.true_and]
    exact ih (Nat.lt_of_le_of_lt hs.length_le (Nat.lt_of_succ_lt_succ hfuel)) hu

/-- What comes out of a text has a property throughout just when the text yields it. -/
theorem all_replaceVariables_iff (hp : p '$' = false) {s t : List Char}
    (h : replaceVariables env (s.length + 1) s = .ok t) : t.all p = true ↔ env.Yields p s :=
  ⟨yields_of_all hp (Nat.lt_succ_self _) h, fun hy => all_of_yields hy (Nat.lt_succ_self _) h⟩

/-! ## Whole texts -/

/-- The home directory makes a difference to a tilde alone, since anything longer has a slash. -/
theorem all_replaceHome_iff (t : List Char) : (replaceHome env t).all isBlank = true ↔
    t.all isBlank = true ∨ t = ['~'] ∧ ∃ dir, env.home? = some dir ∧ isBlankText dir = true := by
  have htilde : isBlank '~' = false := by decide
  have hslash : isBlank '/' = false := by decide
  rw [replaceHome.eq_def]
  split
  · next dir hd => simp [hd, htilde, isBlankText]
  · next rest dir hd => simp [htilde, hslash]
  · next hlone _ =>
    refine (or_iff_left ?_).symm
    rintro ⟨rfl, dir, hd, -⟩
    exact hlone dir rfl hd

theorem blanks_iff {s : List Char} : env.Blanks s ↔ env.Yields isBlank s ∨
    (∃ rest, s = '~' :: rest ∧ env.Yields (fun _ => false) rest) ∧
      ∃ dir, env.home? = some dir ∧ isBlankText dir = true := by
  constructor
  · rintro (⟨_, h⟩ | ⟨rest, dir, hr, hd, hb⟩)
    · exact Or.inl h
    · exact Or.inr ⟨⟨rest, rfl, hr⟩, dir, hd, hb⟩
  · rintro (h | ⟨⟨rest, rfl, hr⟩, dir, hd, hb⟩)
    · exact .plain s h
    · exact .home rest dir hr hd hb

/-- A tilde at the start comes out alone just when nothing comes out behind it. -/
theorem replaceVariables_tilde_iff {s t : List Char}
    (h : replaceVariables env (s.length + 1) s = .ok t) : s.head? = some '~' ∧ t = ['~'] ↔
      ∃ rest, s = '~' :: rest ∧ env.Yields (fun _ => false) rest := by
  have hstep (rest : List Char) (h : replaceVariables env (rest.length + 2) ('~' :: rest) = .ok t) :
      ∃ u, replaceVariables env (rest.length + 1) rest = .ok u ∧ '~' :: u = t := by
    rw [replaceVariables_cons (by decide)] at h
    exact of_map_eq_ok h
  constructor
  · rintro ⟨hs, rfl⟩
    obtain ⟨rest, rfl⟩ := List.head?_eq_some_iff.mp hs
    obtain ⟨u, hu, hcons⟩ := hstep rest h
    obtain rfl := List.tail_eq_of_cons_eq hcons
    exact ⟨rest, rfl, (all_replaceVariables_iff rfl hu).mp rfl⟩
  · rintro ⟨rest, rfl, hy⟩
    obtain ⟨u, hu, rfl⟩ := hstep rest h
    have hnone := (all_replaceVariables_iff rfl hu).mpr hy
    cases u with
    | nil => exact ⟨rfl, rfl⟩
    | cons c u => simp at hnone

/-- What a text expands to is white space just when nothing else comes out of it. -/
theorem isBlankText_expandText_iff {text out : String} (h : expandText env text = .ok out) :
    isBlankText out = true ↔ env.Blanks text.toList := by
  obtain ⟨t, ht, rfl⟩ := of_map_eq_ok h
  generalize text.toList = s at ht ⊢
  rw [blanks_iff, ← all_replaceVariables_iff (by decide) ht, ← replaceVariables_tilde_iff ht,
    isBlankText, String.toList_ofList]
  split
  · next hown =>
    rw [all_replaceHome_iff]
    have hhead : t = ['~'] → s.head? = some '~' := by
      rintro rfl
      simpa using hown
    tauto
  · next hown =>
    have hhead : s.head? ≠ some '~' := by
      intro hs
      simp [hs] at hown
    tauto

end Retest
