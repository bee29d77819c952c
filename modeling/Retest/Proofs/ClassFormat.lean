import Mathlib.Algebra.GroupWithZero.Nat
import Retest.ClassFile.Decode

/-! The format of a compiled class, as far as it is read: how constants are written, which slots
they fill, and what a whole class consists of. Nothing here refers to how it is read. -/

namespace Retest.ClassFile

def pair (a b : UInt8) : Nat := a.toNat * 256 + b.toNat

/-- The constants of which only the size matters: the tag and the number of bytes behind it. -/
def plainSizes : List (Nat × Nat) :=
  [(3, 4), (4, 4), (8, 2), (9, 4), (10, 4), (11, 4), (15, 3), (17, 4), (18, 4), (19, 2), (20, 2)]

inductive Payload : Nat → Entry → List UInt8 → Prop
  | text (a b : UInt8) (s : List UInt8) (hs : s.length = pair a b) :
    Payload 1 (.narrow (.text (Utf8.decodeLossy s))) (a :: b :: s)
  | plain (tag : Nat) (s : List UInt8) (hs : (tag, s.length) ∈ plainSizes) :
    Payload tag (.narrow .other) s
  | wide (tag : Nat) (s : List UInt8) (ht : tag = 5 ∨ tag = 6) (hs : s.length = 8) :
    Payload tag .wide s
  | classRef (a b : UInt8) : Payload 7 (.narrow (.classRef (pair a b))) [a, b]
  | nameAndType (x y a b : UInt8) : Payload 12 (.narrow (.nameAndType (pair a b))) [x, y, a, b]
  | methodType (a b : UInt8) : Payload 16 (.narrow (.methodType (pair a b))) [a, b]

/-- How constants are written, one after the other: each one is a tag and its payload. -/
inductive Constants : List Entry → List UInt8 → Prop
  | nil : Constants [] []
  | cons (tag : UInt8) (e : Entry) (payload : List UInt8) (es : List Entry) (rest : List UInt8)
    (he : Payload tag.toNat e payload) (hes : Constants es rest) :
    Constants (e :: es) (tag :: (payload ++ rest))

def Entry.width : Entry → Nat
  | .narrow _ => 1
  | .wide => 2

def width (es : List Entry) : Nat := (es.map Entry.width).sum

/-- Constants fill so many slots. A wide one in the last place may run one slot past. -/
def Fills (slots : Nat) (es : List Entry) : Prop :=
  width es = slots ∨ es.getLast? = some .wide ∧ width es = slots + 1

/-- What a slot holds. The first constant is in slot 1, and a wide one can not be used. -/
def Holds (es : List Entry) (i : Nat) (slot : Slot) : Prop :=
  ∃ before after, es = before ++ .narrow slot :: after ∧ i = 1 + width before

def ClassAt (es : List Entry) (i : Nat) (text : List Char) : Prop :=
  ∃ name, Holds es i (.classRef name) ∧ Holds es name (.text text)

/-- The names in a descriptor: what stands between an `L` and the next `;`, from left to right. -/
inductive Names : List Char → List Char → Prop
  | here (before name rest : List Char) (hb : 'L' ∉ before) (hn : ';' ∉ name) :
    Names (before ++ 'L' :: (name ++ ';' :: rest)) name
  | later (before name rest other : List Char) (hb : 'L' ∉ before) (hn : ';' ∉ name)
    (ho : Names rest other) : Names (before ++ 'L' :: (name ++ ';' :: rest)) other

/-- The classes that constants refer to. A class that is an array stands for what its descriptor
names; what leads nowhere stands for nothing. -/
inductive Refers (es : List Entry) : String → Prop
  | plain (i : Nat) (text : List Char) (h : ClassAt es i text) (ht : text.head? ≠ some '[') :
    Refers es (binaryName text)
  | array (i : Nat) (text name : List Char) (h : ClassAt es i text) (ht : text.head? = some '[')
    (hn : Names text name) : Refers es (binaryName name)
  | nameAndType (i d : Nat) (text name : List Char) (h : Holds es i (.nameAndType d))
    (ht : Holds es d (.text text)) (hn : Names text name) : Refers es (binaryName name)
  | methodType (i d : Nat) (text name : List Char) (h : Holds es i (.methodType d))
    (ht : Holds es d (.text text)) (hn : Names text name) : Refers es (binaryName name)

structure Image where
  count : Nat
  constants : List Entry
  flags : Nat
  this : Nat
  super : Nat
  deriving DecidableEq

/-- The bytes that an image is read from: magic, two version numbers, the number of slots with the
constants, flags, the class and its superclass. -/
inductive Image.Head : Image → List UInt8 → Prop
  | mk (p q r s a b : UInt8) (constants : List Entry) (pool : List UInt8)
    (hp : Constants constants pool) (c d t u v w : UInt8) :
    Head ⟨pair a b, constants, pair c d, pair t u, pair v w⟩
      ([0xCA, 0xFE, 0xBA, 0xBE, p, q, r, s, a, b] ++ (pool ++ [c, d, t, u, v, w]))

/-- Slot 0 is counted but not written, so a count of 0 or 1 leaves no other. The class has a name,
and so has its superclass if there is one. -/
structure Image.Valid (f : Image) : Prop where
  fills : Fills (f.count - 1) f.constants
  this : ∃ text, ClassAt f.constants f.this text
  super : f.super = 0 ∨ ∃ text, ClassAt f.constants f.super text

def Image.Written (f : Image) (bytes : List UInt8) : Prop :=
  f.Valid ∧ ∃ head rest, f.Head head ∧ bytes = head ++ rest

def abstractBits : List Nat := [9, 10, 13, 15]

structure Image.Describes (f : Image) (file : Option Path) (c : JvmClass) : Prop where
  name : ∃ text, ClassAt f.constants f.this text ∧ c.name = binaryName text
  imports : ∀ n, n ∈ c.imports.toList ↔ n ≠ c.name ∧ Refers f.constants n
  isTest : c.isTest = true ↔ (∀ bit ∈ abstractBits, f.flags.testBit bit = false) ∧
    ((∃ i text, Holds f.constants i (.text text) ∧ String.ofList text ∈ testAnnotations) ∨
      f.super ≠ 0 ∧ ∃ text, ClassAt f.constants f.super text ∧ binaryName text ∈ testSuperclasses)
  file : c.file = file
  status : c.status = .parsed

/-! ## Slots -/

theorem width_cons (e : Entry) (es : List Entry) : width (e :: es) = e.width + width es := by
  simp [width]

theorem width_append (l m : List Entry) : width (l ++ m) = width l + width m := by
  simp [width]

theorem Entry.width_pos (e : Entry) : 1 ≤ e.width := by
  cases e with
  | narrow slot => exact Nat.le_refl 1
  | wide => exact Nat.le_succ 1

theorem two_le_width {es : List Entry} (h : es.getLast? = some .wide) : 2 ≤ width es := by
  obtain ⟨front, rfl⟩ := List.getLast?_eq_some_iff.mp h
  rw [width_append]
  exact Nat.le_add_left 2 _

theorem fills_zero (es : List Entry) : Fills 0 es ↔ es = [] := by
  constructor
  · rintro (h | ⟨hlast, h⟩)
    · cases es with
      | nil => rfl
      | cons e es =>
        have hpos := e.width_pos
        rw [width_cons] at h
        omega
    · have htwo := two_le_width hlast
      omega
  · rintro rfl
    exact Or.inl rfl

/-- What a constant leaves is to be filled by those behind it. -/
theorem fills_cons {n : Nat} (hn : 0 < n) (e : Entry) (es : List Entry) :
    Fills n (e :: es) ↔ Fills (n - e.width) es := by
  cases es with
  | nil =>
    cases e with
    | narrow slot =>
      simp only [Fills, width, Entry.width, List.map, List.sum_cons, List.sum_nil]
      simp
      omega
    | wide =>
      simp [Fills, width, Entry.width]
      omega
  | cons e' es =>
    have hpos := e'.width_pos
    have hone : e.width = 1 ∨ e.width = 2 := by cases e <;> simp [Entry.width]
    simp only [Fills, List.getLast?_cons_cons, width_cons]
    constructor
    · rintro (h | ⟨hlast, h⟩)
      · exact Or.inl (by omega)
      · exact Or.inr ⟨hlast, by omega⟩
    · rintro (h | ⟨hlast, h⟩)
      · exact Or.inl (by omega)
      · have htwo := two_le_width hlast
        rw [width_cons] at htwo
        exact Or.inr ⟨hlast, by omega⟩

/-! ## The table of slots -/

def Entry.slots : Entry → List Slot
  | .narrow slot => [slot]
  | .wide => [.other, .other]

def slotsOf (es : List Entry) : List Slot := es.flatMap Entry.slots

theorem Entry.length_slots (e : Entry) : e.slots.length = e.width := by
  cases e <;> rfl

theorem length_slotsOf (es : List Entry) : (slotsOf es).length = width es := by
  induction es with
  | nil => rfl
  | cons e es ih =>
    rw [width_cons, ← ih, ← e.length_slots]
    exact List.length_append

theorem holds_cons (e : Entry) (es : List Entry) (i : Nat) (slot : Slot) :
    Holds (e :: es) i slot ↔
      e = .narrow slot ∧ i = 1 ∨ ∃ k, i = e.width + k ∧ Holds es k slot := by
  constructor
  · rintro ⟨before, after, hes, rfl⟩
    cases before with
    | nil => exact Or.inl ⟨(List.cons.inj hes).1, rfl⟩
    | cons e' before =>
      obtain ⟨rfl, rfl⟩ := List.cons.inj hes
      refine Or.inr ⟨1 + width before, ?_, before, after, rfl, rfl⟩
      rw [width_cons]
      omega
  · rintro (⟨rfl, rfl⟩ | ⟨k, rfl, before, after, rfl, rfl⟩)
    · exact ⟨[], es, rfl, rfl⟩
    · refine ⟨e :: before, after, rfl, ?_⟩
      rw [width_cons]
      omega

theorem not_holds_zero (es : List Entry) (slot : Slot) : ¬Holds es 0 slot := by
  rintro ⟨before, after, -, h⟩
  omega

theorem getElem_slotsOf {slot : Slot} (h : slot ≠ .other) (es : List Entry) (j : Nat) :
    (slotsOf es)[j]? = some slot ↔ Holds es (j + 1) slot := by
  induction es generalizing j with
  | nil =>
    constructor
    · intro hj
      cases hj
    · rintro ⟨before, after, hes, -⟩
      cases before <;> cases hes
  | cons e es ih =>
    have hsplit : slotsOf (e :: es) = e.slots ++ slotsOf es := rfl
    rw [hsplit, holds_cons]
    by_cases hj : j < e.width
    · -- The slot is one of those of the first constant.
      have hrest : ¬∃ k, j + 1 = e.width + k ∧ Holds es k slot := by
        rintro ⟨k, hk, hh⟩
        obtain rfl : k = 0 := by omega
        exact not_holds_zero es slot hh
      rw [List.getElem?_append_left (by rwa [e.length_slots]), or_iff_left hrest]
      cases e with
      | narrow s =>
        obtain rfl : j = 0 := Nat.lt_one_iff.mp hj
        simp [Entry.slots]
      | wide =>
        have htwo : j < 2 := hj
        obtain rfl | rfl : j = 0 ∨ j = 1 := by omega
        · simp [Entry.slots, Ne.symm h]
        · simp [Entry.slots, Ne.symm h]
    · obtain ⟨k, rfl⟩ := Nat.exists_eq_add_of_le (Nat.le_of_not_lt hj)
      have hpos := e.width_pos
      have hfirst : ¬(e = .narrow slot ∧ e.width + k + 1 = 1) := fun hh => by omega
      rw [List.getElem?_append_right (by rw [e.length_slots]; omega), e.length_slots,
        Nat.add_sub_cancel_left, ih, or_iff_right hfirst]
      constructor
      · intro hh
        exact ⟨k + 1, rfl, hh⟩
      · rintro ⟨m, hm, hh⟩
        obtain rfl : m = k + 1 := by omega
        exact hh

/-- The table of slots: slot 0 holds nothing, and there is no slot past the number announced. -/
def poolOf (slots : Nat) (es : List Entry) : List Slot := .other :: (slotsOf es).take slots

/-- Cutting the table loses nothing that can be used. -/
theorem getElem_poolOf {n : Nat} {es : List Entry} (hn : Fills n es) {slot : Slot}
    (h : slot ≠ .other) (i : Nat) : (poolOf n es)[i]? = some slot ↔ Holds es i slot := by
  cases i with
  | zero =>
    have hzero : (poolOf n es)[0]? = some .other := rfl
    rw [hzero]
    constructor
    · intro he
      exact absurd (Option.some.inj he).symm h
    · intro hh
      exact absurd hh (not_holds_zero es slot)
  | succ j =>
    rw [← getElem_slotsOf h]
    change ((slotsOf es).take n)[j]? = some slot ↔ _
    rw [List.getElem?_take]
    split
    · exact Iff.rfl
    · next hj =>
      have hnone : (slotsOf es)[j]? ≠ some slot := by
        intro hs
        obtain ⟨hlt, -⟩ := List.getElem?_eq_some_iff.mp hs
        rw [length_slotsOf] at hlt
        rcases hn with hn | ⟨hlast, hn⟩
        · omega
        · -- The slot is the last one, the second of a wide constant.
          obtain ⟨front, rfl⟩ := List.getLast?_eq_some_iff.mp hlast
          have hwidth : width (front ++ [.wide]) = width front + 2 := width_append front [.wide]
          have hj : j = (slotsOf front).length + 1 := by
            rw [length_slotsOf]
            omega
          have hsplit : slotsOf (front ++ [.wide]) = (slotsOf front ++ [.other]) ++ [.other] := by
            rw [List.append_assoc]
            exact List.flatMap_append
          have hlength : (slotsOf front ++ [Slot.other]).length = j := by
            rw [hj, List.length_append]
            rfl
          rw [hsplit, ← hlength, List.getElem?_concat_length] at hs
          exact h (Option.some.inj hs).symm
      simp [hnone]

theorem mem_poolOf {n : Nat} {es : List Entry} (hn : Fills n es) {slot : Slot}
    (h : slot ≠ .other) : slot ∈ poolOf n es ↔ ∃ i, Holds es i slot := by
  rw [List.mem_iff_getElem?]
  exact exists_congr fun i => getElem_poolOf hn h i

theorem textAt_eq_ok {n : Nat} {es : List Entry} (hn : Fills n es) (i : Nat) (text : List Char) :
    textAt (poolOf n es) i = .ok text ↔ Holds es i (.text text) := by
  have hslot : Slot.text text ≠ .other := Slot.noConfusion
  rw [← getElem_poolOf hn hslot, textAt]
  cases (poolOf n es)[i]? with
  | none => simp
  | some slot => cases slot <;> simp

theorem classAt_eq_ok {n : Nat} {es : List Entry} (hn : Fills n es) (i : Nat) (name : String) :
    classAt (poolOf n es) i = .ok name ↔ ∃ text, ClassAt es i text ∧ name = binaryName text := by
  have hslot (k : Nat) : Slot.classRef k ≠ .other := Slot.noConfusion
  rw [classAt]
  constructor
  · intro h
    split at h
    · next k hk =>
      cases ht : textAt (poolOf n es) k with
      | error e =>
        rw [ht] at h
        cases h
      | ok text =>
        rw [ht] at h
        exact ⟨text, ⟨k, (getElem_poolOf hn (hslot k) i).mp hk, (textAt_eq_ok hn k text).mp ht⟩,
          (Except.ok.inj h).symm⟩
    · cases h
  · rintro ⟨text, ⟨k, hk, ht⟩, rfl⟩
    rw [(getElem_poolOf hn (hslot k) i).mpr hk]
    change (textAt (poolOf n es) k).map binaryName = _
    rw [(textAt_eq_ok hn k text).mpr ht]
    rfl

end Retest.ClassFile
