import Mathlib.Tactic.Common
import Retest.Select.Watchlist
import Retest.Unicode.Letter

/-! Directories that no scan enters: no letter comes before `A`, so a name that begins with a digit
is not that of a package. -/

namespace Retest

namespace CharSet

def Above (s : CharSet) (n : Nat) : Prop := ∀ e ∈ s.edges, n < e

theorem hasCode_of_above {s : CharSet} {n m : Nat} (h : s.Above n) (hm : m ≤ n) :
    s.hasCode m = false := by
  obtain ⟨edges⟩ := s
  cases edges with
  | nil => rfl
  | cons e edges =>
    have he : n < e := h e List.mem_cons_self
    rw [hasCode, within, if_pos (Nat.lt_of_le_of_lt hm he)]

/-- An operation on two sets makes no edge of its own. -/
theorem mem_combineEdges (op : Bool → Bool → Bool) (inA inB : Bool) (as bs : List Nat) (e : Nat)
    (h : e ∈ combineEdges op inA inB as bs) : e ∈ as ∨ e ∈ bs := by
  fun_induction combineEdges op inA inB as bs with grind

theorem above_combine (op : Bool → Bool → Bool) {a b : CharSet} {n : Nat} (ha : a.Above n)
    (hb : b.Above n) : (combine op a b).Above n := by
  intro e he
  exact (mem_combineEdges op false false a.edges b.edges e he).elim (ha e) (hb e)

theorem above_unions {l : List CharSet} {n : Nat} (h : ∀ s ∈ l, s.Above n) :
    (unions l).Above n := by
  induction l with
  | nil => exact fun e he => absurd he List.not_mem_nil
  | cons s l ih =>
    exact above_combine _ (h s List.mem_cons_self) (ih fun t ht => h t (List.mem_cons_of_mem s ht))

end CharSet

namespace Unicode

theorem le_of_mem_runningSums {sum e : Nat} {l : List Nat} (h : e ∈ runningSums sum l) :
    sum ≤ e := by
  induction l generalizing sum with
  | nil => cases h
  | cons n l ih =>
    rcases List.mem_cons.mp h with rfl | h
    · exact Nat.le_add_right sum n
    · exact Nat.le_trans (Nat.le_add_right sum n) (ih h)

def skips (n : Nat) (lines : List String) : Bool := (readNumbers lines).head?.all fun k => n < k

theorem above_readSet {lines : List String} {n : Nat} (h : skips n lines = true) :
    (readSet lines).Above n := by
  intro e he
  rw [readSet] at he
  rw [skips] at h
  cases hl : readNumbers lines with
  | nil =>
    rw [hl] at he
    cases he
  | cons k l =>
    -- The edges are written as distances, so the first one is the least.
    rw [hl] at h he
    have hk : n < k := by simpa using h
    rcases List.mem_cons.mp he with rfl | he
    · rwa [Nat.zero_add]
    · have hle := le_of_mem_runningSums he
      omega

theorem above_chars {p : Property} {n : Nat}
    (hbase : ((categoryTable.filter fun s => s.names.any p.base.contains).all fun s =>
      skips n s.lines) = true)
    (hadded : skips n p.added = true) (hdropped : skips n p.dropped = true) :
    p.chars.Above n := by
  have hcategories : (categories p.base).Above n := by
    refine CharSet.above_unions ?_
    intro s hs
    obtain ⟨t, ht, rfl⟩ := List.mem_map.mp hs
    exact above_readSet (List.all_eq_true.mp hbase t ht)
  exact CharSet.above_combine _ (CharSet.above_combine _ hcategories (above_readSet hdropped))
    (above_readSet hadded)

theorem above_alphabetic : alphabetic.Above 64 := by
  -- It is enough to look at the first number of each table that goes into the property.
  have hall : ((propertyTable.find? fun p => p.names.contains "alphabetic").all fun p =>
      ((categoryTable.filter fun s => s.names.any p.base.contains).all fun s =>
        skips 64 s.lines) && (skips 64 p.added && skips 64 p.dropped)) = true := by
    decide +kernel
  rw [alphabetic, property?]
  cases hp : propertyTable.find? fun p => p.names.contains "alphabetic" with
  | none => exact fun e he => absurd he List.not_mem_nil
  | some p =>
    rw [hp, Option.all_some, Bool.and_eq_true, Bool.and_eq_true] at hall
    exact above_chars hall.1 hall.2.1 hall.2.2

/-- No character before `A` is a letter. -/
theorem not_letter_of_lt {c : Char} (h : c.toNat < 65) : letter.contains c = false :=
  CharSet.hasCode_of_above
    (CharSet.above_combine _ above_alphabetic (above_readSet (by decide)))
    (Nat.le_of_lt_succ h)

end Unicode

/-- A name that begins with a digit is not that of a package. -/
theorem not_isPackageName_of_digit (name : String) {c : Char} {rest : List Char}
    (hname : name.toList = c :: rest) (hc : c.isDigit = true) : isPackageName name = false := by
  have hlt : c.toNat < 65 := by
    have h9 : c.val ≤ 57 := by
      simp only [Char.isDigit, Bool.and_eq_true, decide_eq_true_eq] at hc
      exact hc.2
    have := UInt32.le_iff_toNat_le.mp h9
    change c.val.toNat < 65
    exact Nat.lt_of_le_of_lt this (by decide)
  have hunderscore : c ≠ '_' := by
    rintro rfl
    cases hc
  have hdollar : c ≠ '$' := by
    rintro rfl
    cases hc
  simp [isPackageName, hname, Unicode.not_letter_of_lt hlt, hunderscore, hdollar]

end Retest
