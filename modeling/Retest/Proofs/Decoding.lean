import Mathlib.Tactic.IntervalCases
import Retest.Proofs.ClassReading
import Retest.Proofs.Collection

namespace Retest.ClassFile
open Std

/-! ## Descriptors -/

theorem stretches_before (before s : List Char) (hb : 'L' ∉ before) :
    stretches none (before ++ s) = stretches none s := by
  induction before with
  | nil => rfl
  | cons c before ih =>
    rw [List.mem_cons, not_or] at hb
    rw [List.cons_append, stretches, if_neg (Ne.symm hb.1)]
    exact ih hb.2

theorem stretches_name (open_ name rest : List Char) (hn : ';' ∉ name) :
    stretches (some open_) (name ++ ';' :: rest) =
      (open_.reverse ++ name) :: stretches none rest := by
  induction name generalizing open_ with
  | nil =>
    rw [List.nil_append, stretches, if_pos rfl, List.append_nil]
  | cons c name ih =>
    rw [List.mem_cons, not_or] at hn
    rw [List.cons_append, stretches, if_neg (Ne.symm hn.1), ih (c :: open_) hn.2,
      List.reverse_cons, List.append_assoc]
    rfl

theorem stretches_unclosed (open_ s : List Char) (hs : ';' ∉ s) :
    stretches (some open_) s = [] := by
  induction s generalizing open_ with
  | nil => rfl
  | cons c s ih =>
    rw [List.mem_cons, not_or] at hs
    rw [stretches, if_neg (Ne.symm hs.1)]
    exact ih (c :: open_) hs.2

/-- The first name of a descriptor stands before the names of what comes behind it. -/
theorem stretches_first (before name rest : List Char) (hb : 'L' ∉ before) (hn : ';' ∉ name) :
    stretches none (before ++ 'L' :: (name ++ ';' :: rest)) = name :: stretches none rest := by
  rw [stretches_before before _ hb, stretches, if_pos rfl, stretches_name [] name rest hn]
  rfl

theorem mem_stretches (s name : List Char) : name ∈ stretches none s ↔ Names s name := by
  constructor
  · intro h
    induction hs : s.length using Nat.strongRecOn generalizing s with
    | ind n ih =>
      by_cases hL : 'L' ∈ s
      · obtain ⟨before, after, rfl, hb⟩ := List.eq_append_cons_of_mem hL
        by_cases hsemi : ';' ∈ after
        · obtain ⟨first, rest, rfl, hn⟩ := List.eq_append_cons_of_mem hsemi
          rw [stretches_first before first rest hb hn, List.mem_cons] at h
          rcases h with rfl | h
          · exact .here before name rest hb hn
          · -- The other names are those of the shorter text behind the first one.
            have hless : rest.length < n := by
              rw [← hs]
              simp only [List.length_append, List.length_cons]
              omega
            exact .later before first rest name hb hn (ih _ hless rest h rfl)
        · rw [stretches_before before _ hb, stretches, if_pos rfl,
            stretches_unclosed [] after hsemi] at h
          cases h
      · have hnone := stretches_before s [] hL
        rw [List.append_nil] at hnone
        rw [hnone] at h
        cases h
  · intro h
    induction h with
    | here before name rest hb hn =>
      rw [stretches_first before name rest hb hn]
      exact List.mem_cons_self
    | later before name rest other hb hn _ ih =>
      rw [stretches_first before name rest hb hn]
      exact List.mem_cons_of_mem name ih

theorem mem_descriptorClasses (s : List Char) (n : String) :
    n ∈ descriptorClasses s ↔ ∃ name, Names s name ∧ n = binaryName name := by
  simp only [descriptorClasses, List.mem_map, mem_stretches, eq_comm]

/-! ## Imports -/

variable {slots : Nat} {es : List Entry}

theorem mem_classes_of_classRef (pool : List Slot) (k : Nat) (n : String) :
    n ∈ slotClasses pool (.classRef k) ↔ ∃ text, textAt pool k = .ok text ∧
      if text.head? = some '[' then n ∈ descriptorClasses text else n = binaryName text := by
  rw [slotClasses]
  split
  · next s hs => simp [hs]
  · next s hno hs =>
    have hhead : s.head? ≠ some '[' := by
      intro hhead
      obtain ⟨rest, rfl⟩ := List.head?_eq_some_iff.mp hhead
      exact hno rest rfl
    simp [hs, hhead]
  · next e he => simp [he]

theorem mem_classes_of_text (pool : List Slot) (d : Nat) (n : String) :
    n ∈ (match textAt pool d with
      | .ok s => descriptorClasses s
      | .error _ => []) ↔ ∃ text name, textAt pool d = .ok text ∧ Names text name ∧
        n = binaryName name := by
  cases hd : textAt pool d with
  | error e => simp
  | ok text => simp [mem_descriptorClasses]

/-- The classes that the slots of a table refer to are those that the constants in it refer to. -/
theorem mem_referencedClasses (hn : Fills slots es) (n : String) :
    n ∈ referencedClasses (poolOf slots es) ↔ Refers es n := by
  have hclass (k : Nat) : Slot.classRef k ≠ .other := Slot.noConfusion
  have hname (d : Nat) : Slot.nameAndType d ≠ .other := Slot.noConfusion
  have hmethod (d : Nat) : Slot.methodType d ≠ .other := Slot.noConfusion
  rw [referencedClasses, List.mem_flatMap]
  constructor
  · rintro ⟨slot, hslot, hmem⟩
    cases slot with
    | text s => cases hmem
    | other => cases hmem
    | classRef k =>
      obtain ⟨i, hi⟩ := (mem_poolOf hn (hclass k)).mp hslot
      obtain ⟨text, ht, hmem⟩ := (mem_classes_of_classRef _ k n).mp hmem
      have hat : ClassAt es i text := ⟨k, hi, (textAt_eq_ok hn k text).mp ht⟩
      by_cases harray : text.head? = some '['
      · rw [if_pos harray, mem_descriptorClasses] at hmem
        obtain ⟨name, hname, rfl⟩ := hmem
        exact .array i text name hat harray hname
      · rw [if_neg harray] at hmem
        rw [hmem]
        exact .plain i text hat harray
    | nameAndType d =>
      obtain ⟨i, hi⟩ := (mem_poolOf hn (hname d)).mp hslot
      obtain ⟨text, name, ht, hnames, rfl⟩ := (mem_classes_of_text _ d n).mp hmem
      exact .nameAndType i d text name hi ((textAt_eq_ok hn d text).mp ht) hnames
    | methodType d =>
      obtain ⟨i, hi⟩ := (mem_poolOf hn (hmethod d)).mp hslot
      obtain ⟨text, name, ht, hnames, rfl⟩ := (mem_classes_of_text _ d n).mp hmem
      exact .methodType i d text name hi ((textAt_eq_ok hn d text).mp ht) hnames
  · intro h
    cases h with
    | plain i text hat harray =>
      obtain ⟨k, hi, ht⟩ := hat
      refine ⟨_, (mem_poolOf hn (hclass k)).mpr ⟨i, hi⟩, (mem_classes_of_classRef _ k _).mpr ?_⟩
      refine ⟨text, (textAt_eq_ok hn k text).mpr ht, ?_⟩
      rw [if_neg harray]
    | array i text name hat harray hnames =>
      obtain ⟨k, hi, ht⟩ := hat
      refine ⟨_, (mem_poolOf hn (hclass k)).mpr ⟨i, hi⟩, (mem_classes_of_classRef _ k _).mpr ?_⟩
      refine ⟨text, (textAt_eq_ok hn k text).mpr ht, ?_⟩
      rw [if_pos harray, mem_descriptorClasses]
      exact ⟨name, hnames, rfl⟩
    | nameAndType i d text name hi ht hnames =>
      refine ⟨_, (mem_poolOf hn (hname d)).mpr ⟨i, hi⟩, (mem_classes_of_text _ d _).mpr ?_⟩
      exact ⟨text, name, (textAt_eq_ok hn d text).mpr ht, hnames, rfl⟩
    | methodType i d text name hi ht hnames =>
      refine ⟨_, (mem_poolOf hn (hmethod d)).mpr ⟨i, hi⟩, (mem_classes_of_text _ d _).mpr ?_⟩
      exact ⟨text, name, (textAt_eq_ok hn d text).mpr ht, hnames, rfl⟩

/-! ## Tests -/

theorem mentionsAny_iff (hn : Fills slots es) (names : List String) :
    mentionsAny (poolOf slots es) names = true ↔
      ∃ i text, Holds es i (.text text) ∧ String.ofList text ∈ names := by
  have htext (s : List Char) : Slot.text s ≠ .other := Slot.noConfusion
  rw [mentionsAny, List.any_eq_true]
  constructor
  · rintro ⟨slot, hslot, hmem⟩
    cases slot with
    | text s =>
      obtain ⟨i, hi⟩ := (mem_poolOf hn (htext s)).mp hslot
      exact ⟨i, s, hi, List.contains_iff_mem.mp hmem⟩
    | _ => cases hmem
  · rintro ⟨i, text, hi, hmem⟩
    exact ⟨_, (mem_poolOf hn (htext text)).mpr ⟨i, hi⟩, List.contains_iff_mem.mpr hmem⟩

theorem isConcrete_iff (flags : Nat) :
    isConcrete flags = true ↔ ∀ bit ∈ abstractBits, flags.testBit bit = false := by
  have hmask (i : Nat) : (0xA600 : Nat).testBit i = decide (i ∈ abstractBits) := by
    by_cases hi : i < 16
    · interval_cases i <;> decide
    · have hlarge : (0xA600 : Nat) < 2 ^ i := by
        calc (0xA600 : Nat) < 2 ^ 16 := by decide
          _ ≤ 2 ^ i := Nat.pow_le_pow_right (by decide) (Nat.le_of_not_lt hi)
      rw [Nat.testBit_lt_two_pow hlarge, eq_comm, decide_eq_false_iff_not]
      simp only [abstractBits, List.mem_cons, List.not_mem_nil, or_false]
      omega
  rw [isConcrete, decide_eq_true_eq]
  constructor
  · intro h bit hbit
    have hand : (flags &&& 0xA600).testBit bit = false := by rw [h, Nat.zero_testBit]
    rwa [Nat.testBit_and, hmask, decide_eq_true hbit, Bool.and_true] at hand
  · intro h
    apply Nat.eq_of_testBit_eq
    intro i
    rw [Nat.testBit_and, hmask, Nat.zero_testBit]
    by_cases hi : i ∈ abstractBits
    · rw [h i hi, Bool.false_and]
    · rw [decide_eq_false hi, Bool.and_false]

namespace Image

variable {f : Image}

/-- A valid image makes a header. -/
theorem Valid.exists_makes (hf : f.Valid) : ∃ h, f.Makes h := by
  obtain ⟨text, htext⟩ := hf.this
  have hclass := classAt_eq_ok hf.fills f.super
  generalize hsuper : classAt (poolOf (f.count - 1) f.constants) f.super = found at hclass
  refine ⟨⟨poolOf (f.count - 1) f.constants, f.flags, binaryName text,
    if f.super = 0 then none else found.toOption⟩, rfl, rfl, ⟨text, htext, rfl⟩, ?_⟩
  intro s
  rw [← hclass s]
  by_cases hzero : f.super = 0
  · simp [hzero]
  · cases found <;> simp [hzero, Except.toOption]

/-- The class of a header is the one that its image describes. -/
theorem Makes.describes {h : Header} (hm : f.Makes h) (hf : f.Valid) (file : Option Path) :
    f.Describes file (h.toClass file) := by
  refine ⟨hm.name, ?_, ?_, rfl, rfl⟩
  · intro n
    change n ∈ (SortedSet.ofList ((referencedClasses h.pool).filter fun i => i ≠ h.name)).toList ↔
      n ≠ h.name ∧ Refers f.constants n
    rw [← SortedSet.contains_iff_mem, SortedSet.contains_ofList]
    simp only [LawfulEqOrd.compare_eq_iff_eq, exists_eq_right', List.mem_filter, decide_eq_true_eq]
    rw [hm.pool, mem_referencedClasses hf.fills, and_comm]
  · have hsuper : h.superclass.any testSuperclasses.contains = true ↔
        f.super ≠ 0 ∧ ∃ text, ClassAt f.constants f.super text ∧
          binaryName text ∈ testSuperclasses := by
      rw [Option.any_eq_true]
      constructor
      · rintro ⟨s, hs, hmem⟩
        obtain ⟨hzero, text, htext, rfl⟩ := (hm.superclass s).mp hs
        exact ⟨hzero, text, htext, List.contains_iff_mem.mp hmem⟩
      · rintro ⟨hzero, text, htext, hmem⟩
        exact ⟨_, (hm.superclass _).mpr ⟨hzero, text, htext, rfl⟩, List.contains_iff_mem.mpr hmem⟩
    change (isConcrete h.flags && (mentionsAny h.pool testAnnotations ||
      h.superclass.any testSuperclasses.contains)) = true ↔ _
    rw [Bool.and_eq_true, Bool.or_eq_true, hsuper, hm.flags, isConcrete_iff, hm.pool,
      mentionsAny_iff hf.fills]

end Image

/-- Bytes decode just when they are a class in the format; and the class that they decode to has the
name, the imports and the test flag that its constants and its header describe. -/
theorem decode_accepts_format (bytes : List UInt8) (file : Option Path) :
    ((∃ c, decode bytes file = .ok c) ↔ ∃ f : Image, f.Written bytes) ∧
      ∀ f c, Image.Written f bytes → decode bytes file = .ok c → f.Describes file c := by
  have htakes (f : Image) (hw : f.Written bytes) :
      ∃ h, f.Makes h ∧ decode bytes file = .ok (h.toClass file) := by
    obtain ⟨hvalid, head, rest, hhead, rfl⟩ := hw
    obtain ⟨h, hmakes⟩ := hvalid.exists_makes
    have hread := reads_header.takes h head ⟨f, hhead, hvalid, hmakes⟩ rest 0
    refine ⟨h, hmakes, ?_⟩
    rw [decode, hread]
    rfl
  refine ⟨⟨?_, ?_⟩, ?_⟩
  · rintro ⟨c, hc⟩
    cases hread : readHeader ⟨bytes, 0⟩ with
    | error e =>
      rw [decode, hread] at hc
      cases hc
    | ok r =>
      obtain ⟨head, ⟨f, hhead, hvalid, -⟩, hbytes, -⟩ := reads_header.gives _ r.1 r.2 hread
      exact ⟨f, hvalid, head, r.2.rest, hhead, hbytes⟩
  · rintro ⟨f, hw⟩
    obtain ⟨h, -, hdecode⟩ := htakes f hw
    exact ⟨_, hdecode⟩
  · intro f c hw hc
    obtain ⟨h, hmakes, hdecode⟩ := htakes f hw
    obtain rfl : h.toClass file = c := Except.ok.inj (hdecode.symm.trans hc)
    exact hmakes.describes hw.1 file

/-- The class `A` with superclass `b.B`, and an array of `c.C`. The last of its 8 slots is taken by
a wide constant, which runs one slot past; two bytes follow the class. -/
def arrayTrial : Image where
  count := 8
  constants := [.narrow (.text (Utf8.decodeLossy [65])), .narrow (.classRef 1),
    .narrow (.text (Utf8.decodeLossy [98, 47, 66])), .narrow (.classRef 3),
    .narrow (.text (Utf8.decodeLossy [91, 76, 99, 47, 67, 59])), .narrow (.classRef 5), .wide]
  flags := 0x21
  this := 2
  super := 4

def arrayTrialBytes : List UInt8 :=
  [0xCA, 0xFE, 0xBA, 0xBE, 0, 0, 0, 52, 0, 8] ++
    ([1, 0, 1, 65, 7, 0, 1, 1, 0, 3, 98, 47, 66, 7, 0, 3, 1, 0, 6, 91, 76, 99, 47, 67, 59, 7, 0, 5,
      5, 0, 0, 0, 0, 0, 0, 0, 1] ++ [0, 0x21, 0, 2, 0, 4]) ++ [0, 0]

theorem arrayTrial_written : arrayTrial.Written arrayTrialBytes := by
  have hconstants : Constants arrayTrial.constants [1, 0, 1, 65, 7, 0, 1, 1, 0, 3, 98, 47, 66, 7, 0,
      3, 1, 0, 6, 91, 76, 99, 47, 67, 59, 7, 0, 5, 5, 0, 0, 0, 0, 0, 0, 0, 1] :=
    .cons 1 _ _ _ _ (.text 0 1 [65] rfl) <| .cons 7 _ _ _ _ (.classRef 0 1) <|
      .cons 1 _ _ _ _ (.text 0 3 [98, 47, 66] rfl) <| .cons 7 _ _ _ _ (.classRef 0 3) <|
        .cons 1 _ _ _ _ (.text 0 6 [91, 76, 99, 47, 67, 59] rfl) <|
          .cons 7 _ _ _ _ (.classRef 0 5) <|
            .cons 5 _ [0, 0, 0, 0, 0, 0, 0, 1] _ _ (.wide 5 _ (Or.inl rfl) rfl) .nil
  refine ⟨⟨Or.inr ⟨rfl, rfl⟩, ?_, Or.inr ?_⟩, _, [0, 0], ?_, rfl⟩
  · exact ⟨_, 1, ⟨[_], _, rfl, rfl⟩, ⟨[], _, rfl, rfl⟩⟩
  · exact ⟨_, 3, ⟨[_, _, _], _, rfl, rfl⟩, ⟨[_, _], _, rfl, rfl⟩⟩
  · exact .mk 0 0 0 52 0 8 _ _ hconstants 0 0x21 0 2 0 4

theorem array_trial_decodes : ∃ c, decode arrayTrialBytes none = .ok c ∧ c.name = "A" ∧
    "c.C" ∈ c.imports.toList ∧ c.file = none := by
  obtain ⟨haccepts, hdescribes⟩ := decode_accepts_format arrayTrialBytes none
  obtain ⟨c, hc⟩ := haccepts.mpr ⟨arrayTrial, arrayTrial_written⟩
  have hclass := hdescribes arrayTrial c arrayTrial_written hc
  have hname : c.name = "A" := by
    have hread : (decode arrayTrialBytes none).toOption.map JvmClass.name = some "A" := by
      decide +kernel
    rw [hc] at hread
    exact Option.some.inj hread
  -- The array is in slot 6, and its descriptor in slot 5.
  have harray : ClassAt arrayTrial.constants 6 "[Lc/C;".toList :=
    ⟨5, ⟨[_, _, _, _, _], _, rfl, rfl⟩, ⟨[_, _, _, _], _, rfl, rfl⟩⟩
  have hrefers : Refers arrayTrial.constants "c.C" :=
    .array 6 _ "c/C".toList harray rfl (.here ['['] ['c', '/', 'C'] [] (by decide) (by decide))
  refine ⟨c, hc, hname, (hclass.imports "c.C").mpr ⟨?_, hrefers⟩, hclass.file⟩
  rw [hname]
  decide

end Retest.ClassFile
