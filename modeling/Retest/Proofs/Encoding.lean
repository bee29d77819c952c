import Mathlib.Data.List.Basic
import Retest.Text.Utf8

/-! What is written in UTF-8 is read back. A character's first byte tells how many more belong to it
and where the second one may lie; each further byte adds six bits to its number. -/

namespace Retest.Utf8

/-- The number of a character is below that of the first surrogate or above that of the last. -/
theorem toNat_cases (c : Char) : c.toNat < 0xD800 ∨ 0xDFFF < c.toNat ∧ c.toNat < 0x110000 := c.valid

section Further

variable {low high code m : Nat} (h : low ≤ 0x80 + m ∧ 0x80 + m ≤ high) (rest : List Nat)
include h

theorem pieces_push (owed : Nat) :
    pieces (some ⟨low, high, owed + 2, code⟩) ((0x80 + m) :: rest) =
      pieces (some ⟨0x80, 0xBF, owed + 1, code * 64 + m⟩) rest := by
  have haccepts : (⟨low, high, owed + 2, code⟩ : Partial).accepts (0x80 + m) = true := by
    simpa [Partial.accepts] using h
  rw [pieces, if_pos haccepts, if_neg (by simp)]
  simp [Partial.push]

/-- The last byte of a character completes it. -/
theorem pieces_last : pieces (some ⟨low, high, 1, code⟩) ((0x80 + m) :: rest) =
    .char (Char.ofNat (code * 64 + m)) :: pieces none rest := by
  have haccepts : (⟨low, high, 1, code⟩ : Partial).accepts (0x80 + m) = true := by
    simpa [Partial.accepts] using h
  rw [pieces, if_pos haccepts, if_pos (Nat.le_refl 1)]
  simp [Partial.push]

end Further

/-- Six bits fit everywhere but behind some first bytes. -/
theorem tail_bounds (n : Nat) : 0x80 ≤ 0x80 + n % 64 ∧ 0x80 + n % 64 ≤ 0xBF := by
  have h : n % 64 < 64 := Nat.mod_lt n (by decide)
  omega

section First

variable {n : Nat}

theorem first_two (h : 0x80 ≤ n) (h' : n < 0x800) :
    first (0xC0 + n / 64) = .more ⟨0x80, 0xBF, 1, n / 64⟩ := by
  have hlead : 0xC0 + n / 64 < 0xE0 := by omega
  rw [first, if_neg (by omega), if_neg (by omega), if_pos hlead, Nat.add_sub_cancel_left]

/-- The bounds on the second of three bytes keep out what two bytes can say, and surrogates. -/
theorem first_three (h : 0x800 ≤ n) (h' : n < 0xD800 ∨ 0xDFFF < n ∧ n < 0x10000) :
    ∃ low high, first (0xE0 + n / 4096) = .more ⟨low, high, 2, n / 4096⟩ ∧
      low ≤ 0x80 + n / 64 % 64 ∧ 0x80 + n / 64 % 64 ≤ high := by
  by_cases hlow : n / 4096 = 0
  · exact ⟨0xA0, 0xBF, by rw [hlow]; rfl, by omega, by omega⟩
  by_cases hsurrogate : n / 4096 = 0xD
  · exact ⟨0x80, 0x9F, by rw [hsurrogate]; rfl, by omega, by omega⟩
  refine ⟨0x80, 0xBF, ?_, tail_bounds (n / 64)⟩
  have hlead : 0xE0 + n / 4096 < 0xF0 := by omega
  rw [first, if_neg (by omega), if_neg (by omega), if_neg (by omega), if_neg (by omega),
    if_neg (by omega), if_pos hlead, Nat.add_sub_cancel_left]

/-- The bounds on the second of four bytes keep out what three bytes can say, and all above the last
character. -/
theorem first_four (h : 0x10000 ≤ n) (h' : n < 0x110000) :
    ∃ low high, first (0xF0 + n / 262144) = .more ⟨low, high, 3, n / 262144⟩ ∧
      low ≤ 0x80 + n / 4096 % 64 ∧ 0x80 + n / 4096 % 64 ≤ high := by
  by_cases hlow : n / 262144 = 0
  · exact ⟨0x90, 0xBF, by rw [hlow]; rfl, by omega, by omega⟩
  by_cases hlast : n / 262144 = 4
  · exact ⟨0x80, 0x8F, by rw [hlast]; rfl, by omega, by omega⟩
  refine ⟨0x80, 0xBF, ?_, tail_bounds (n / 4096)⟩
  have hlead : 0xF0 + n / 262144 < 0xF4 := by omega
  rw [first, if_neg (by omega), if_neg (by omega), if_neg (by omega), if_neg (by omega),
    if_neg (by omega), if_neg (by omega), if_neg (by omega), if_pos hlead, Nat.add_sub_cancel_left]

end First

/-- The bytes of a character are read as this character, whatever follows them. -/
theorem pieces_encodeChar (c : Char) (rest : List Nat) :
    pieces none ((encodeChar c).map UInt8.toNat ++ rest) = .char c :: pieces none rest := by
  have hbyte (m : Nat) (h : m < 256) : m.toUInt8.toNat = m := by
    rw [Nat.toUInt8, UInt8.toNat_ofNat', Nat.mod_eq_of_lt h]
  have hread (m : Nat) (h : m = c.toNat) : Char.ofNat m = c := by rw [h, Char.ofNat_toNat]
  have hvalid := toNat_cases c
  -- One case for every number of bytes. Each time the first byte tells how many follow it, and
  -- together they add up to the number of the character.
  simp only [encodeChar]
  generalize c.toNat = n at *
  by_cases hone : n < 0x80
  · rw [if_pos hone, List.map_singleton, List.singleton_append, hbyte n (by omega), pieces, first,
      if_pos hone]
    dsimp only
    rw [hread n rfl]
  rw [if_neg hone]
  by_cases htwo : n < 0x800
  · have hfirst := first_two (by omega) htwo
    have hcode : n / 64 * 64 + n % 64 = n := by omega
    rw [if_pos htwo]
    simp only [List.map_cons, List.map_nil, List.cons_append, List.nil_append]
    rw [hbyte _ (by omega), hbyte _ (by omega), pieces, hfirst]
    dsimp only
    rw [pieces_last (tail_bounds n), hread _ hcode]
  rw [if_neg htwo]
  by_cases hthree : n < 0x10000
  · obtain ⟨low, high, hfirst, hsecond⟩ := first_three (n := n) (by omega) (by omega)
    have hcode : (n / 4096 * 64 + n / 64 % 64) * 64 + n % 64 = n := by omega
    rw [if_pos hthree]
    simp only [List.map_cons, List.map_nil, List.cons_append, List.nil_append]
    rw [hbyte _ (by omega), hbyte _ (by omega), hbyte _ (by omega), pieces, hfirst]
    dsimp only
    rw [pieces_push hsecond, pieces_last (tail_bounds n), hread _ hcode]
  · obtain ⟨low, high, hfirst, hsecond⟩ := first_four (n := n) (by omega) (by omega)
    have hcode : ((n / 262144 * 64 + n / 4096 % 64) * 64 + n / 64 % 64) * 64 + n % 64 = n := by
      omega
    rw [if_neg hthree]
    simp only [List.map_cons, List.map_nil, List.cons_append, List.nil_append]
    rw [hbyte _ (by omega), hbyte _ (by omega), hbyte _ (by omega), hbyte _ (by omega), pieces,
      hfirst]
    dsimp only
    rw [pieces_push hsecond, pieces_push (tail_bounds (n / 64)), pieces_last (tail_bounds n),
      hread _ hcode]

/-- A text is read from its bytes as its characters, none of them broken. -/
theorem pieces_encode (s : List Char) :
    pieces none ((encode s).map UInt8.toNat) = s.map .char := by
  induction s with
  | nil => rfl
  | cons c s ih =>
    rw [encode, List.flatMap_cons, List.map_append, pieces_encodeChar, List.map_cons]
    exact congrArg _ ih

theorem decode?_encode (s : List Char) : decode? (encode s) = some s := by
  rw [decode?, pieces_encode]
  induction s with
  | nil => rfl
  | cons c s ih =>
    rw [List.map_cons, List.mapM_cons, ih]
    rfl

end Retest.Utf8
