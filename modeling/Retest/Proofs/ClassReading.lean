import Mathlib.Data.List.Basic
import Retest.Proofs.ClassFormat

/-! Every read takes exactly the bytes that the format writes for what it gives. This is shown for
single numbers and payloads, and put together in the order in which a class is read. -/

namespace Retest.ClassFile

/-- A read succeeds just on bytes that begin with those written for its value, and it takes these
and no others. -/
structure Reads {α : Type} (p : Read α) (written : α → List UInt8 → Prop) : Prop where
  takes : ∀ v w, written v w → ∀ rest o, p ⟨w ++ rest, o⟩ = .ok (v, ⟨rest, o + w.length⟩)
  gives : ∀ c v c', p c = .ok (v, c') →
    ∃ w, written v w ∧ c.rest = w ++ c'.rest ∧ c'.offset = c.offset + w.length

namespace Reads

variable {α β : Type} {p : Read α} {q : α → Read β} {P : α → List UInt8 → Prop}
  {Q : α → β → List UInt8 → Prop}

theorem of_iff {P' : α → List UInt8 → Prop} (h : Reads p P) (hP : ∀ v w, P v w ↔ P' v w) :
    Reads p P' := by
  have heq : P = P' := funext fun v => funext fun w => propext (hP v w)
  exact heq ▸ h

theorem pure (v : α) : Reads (fun c => .ok (v, c)) fun u w => u = v ∧ w = [] where
  takes := by
    rintro _ _ ⟨rfl, rfl⟩ rest o
    rfl
  gives := by
    intro c u c' h
    cases h
    exact ⟨[], ⟨rfl, rfl⟩, rfl, rfl⟩

theorem fail (e : DecodeError) : Reads (fun _ => .error e : Read α) fun _ _ => False where
  takes _ _ h := h.elim
  gives _ _ _ h := by cases h

/-- One read after another takes what the first one takes and then what the second one takes. -/
theorem bind (hp : Reads p P) (hq : ∀ v, Reads (q v) (Q v)) :
    Reads (fun c => do
      let (v, c) ← p c
      q v c) fun u w => ∃ v w₁ w₂, P v w₁ ∧ Q v u w₂ ∧ w = w₁ ++ w₂ where
  takes := by
    rintro u _ ⟨v, w₁, w₂, hv, hu, rfl⟩ rest o
    have hfirst := hp.takes v w₁ hv (w₂ ++ rest) o
    have hsecond := (hq v).takes u w₂ hu rest (o + w₁.length)
    rw [List.append_assoc, hfirst, List.length_append, ← Nat.add_assoc]
    exact hsecond
  gives := by
    intro c u c' h
    cases hfirst : p c with
    | error e =>
      rw [hfirst] at h
      cases h
    | ok r =>
      rw [hfirst] at h
      obtain ⟨w₁, hv, hrest₁, hoffset₁⟩ := hp.gives c r.1 r.2 hfirst
      obtain ⟨w₂, hu, hrest₂, hoffset₂⟩ := (hq r.1).gives r.2 u c' h
      refine ⟨w₁ ++ w₂, ⟨r.1, w₁, w₂, hv, hu, rfl⟩, ?_, ?_⟩
      · rw [hrest₁, hrest₂, List.append_assoc]
      · rw [hoffset₂, hoffset₁, List.length_append, Nat.add_assoc]

/-- A value that is not read may be missing. -/
theorem lift (x : Except DecodeError α) (hq : ∀ v, Reads (q v) (Q v)) :
    Reads (fun c => do
      let v ← x
      q v c) fun u w => ∃ v, x = .ok v ∧ Q v u w := by
  cases x with
  | error e => exact (fail e).of_iff fun u w => by simp
  | ok v => exact (hq v).of_iff fun u w => by simp

theorem ite {q : Read α} {Q : α → List UInt8 → Prop} (b : Prop) [Decidable b] (hp : Reads p P)
    (hq : Reads q Q) : Reads (fun c => if b then p c else q c) fun v w => if b then P v w else Q v w
    := by
  by_cases hb : b
  · simpa only [if_pos hb] using hp
  · simpa only [if_neg hb] using hq

theorem map (f : α → β) (hp : Reads p P) :
    Reads (fun c => (p c).map fun r => (f r.1, r.2)) fun u w => ∃ v, P v w ∧ u = f v where
  takes := by
    rintro _ w ⟨v, hv, rfl⟩ rest o
    rw [hp.takes v w hv rest o]
    rfl
  gives := by
    intro c u c' h
    cases hfirst : p c with
    | error e =>
      rw [hfirst] at h
      cases h
    | ok r =>
      rw [hfirst] at h
      obtain ⟨w, hv, hrest, hoffset⟩ := hp.gives c r.1 r.2 hfirst
      cases h
      exact ⟨w, ⟨r.1, hv, rfl⟩, hrest, hoffset⟩

end Reads

theorem reads_take (n : Nat) : Reads (take n) fun v w => v = w ∧ w.length = n where
  takes := by
    rintro _ w ⟨rfl, rfl⟩ rest o
    simp [take]
  gives := by
    intro c v c' h
    rw [take] at h
    split at h
    · next hn =>
      cases h
      refine ⟨c.rest.take n, ⟨rfl, hn⟩, (List.take_append_drop n c.rest).symm, ?_⟩
      rw [hn]
    · cases h

theorem reads_number (n : Nat) : Reads (number n) fun v w => v = bigEndian w ∧ w.length = n :=
  ((reads_take n).map bigEndian).of_iff fun v w => by
    constructor
    · rintro ⟨_, ⟨rfl, hw⟩, rfl⟩
      exact ⟨rfl, hw⟩
    · rintro ⟨rfl, hw⟩
      exact ⟨w, ⟨rfl, hw⟩, rfl⟩

theorem reads_byte : Reads (number 1) fun v w => ∃ b : UInt8, w = [b] ∧ v = b.toNat :=
  (reads_number 1).of_iff fun v w => by
    rw [List.length_eq_one_iff]
    constructor
    · rintro ⟨rfl, b, rfl⟩
      exact ⟨b, rfl, by simp [bigEndian]⟩
    · rintro ⟨b, rfl, rfl⟩
      exact ⟨by simp [bigEndian], b, rfl⟩

theorem reads_pair : Reads (number 2) fun v w => ∃ a b, w = [a, b] ∧ v = pair a b :=
  (reads_number 2).of_iff fun v w => by
    rw [List.length_eq_two]
    constructor
    · rintro ⟨rfl, a, b, rfl⟩
      exact ⟨a, b, rfl, by simp [bigEndian, pair]⟩
    · rintro ⟨a, b, rfl, rfl⟩
      exact ⟨by simp [bigEndian, pair], a, b, rfl⟩

theorem readPayload_plain {tag n : Nat} (h : (tag, n) ∈ plainSizes) (index : Nat) :
    readPayload tag index = skip n := by
  simp only [plainSizes, List.mem_cons, Prod.mk.injEq, List.not_mem_nil, or_false] at h
  rcases h with ⟨rfl, rfl⟩ | ⟨rfl, rfl⟩ | ⟨rfl, rfl⟩ | ⟨rfl, rfl⟩ | ⟨rfl, rfl⟩ | ⟨rfl, rfl⟩ |
    ⟨rfl, rfl⟩ | ⟨rfl, rfl⟩ | ⟨rfl, rfl⟩ | ⟨rfl, rfl⟩ | ⟨rfl, rfl⟩ <;> rfl

theorem reads_payload (tag index : Nat) : Reads (readPayload tag index) (Payload tag) := by
  have htext := reads_pair.bind fun n => (reads_take n).bind fun s =>
    Reads.pure (Entry.narrow (.text (Utf8.decodeLossy s)))
  have hskip (n : Nat) := (reads_take n).map fun _ => Entry.narrow .other
  have hwide := (reads_take 8).bind fun _ => Reads.pure Entry.wide
  have hclass := reads_pair.bind fun n => Reads.pure (Entry.narrow (.classRef n))
  have hname := reads_pair.bind fun _ => reads_pair.bind fun d =>
    Reads.pure (Entry.narrow (.nameAndType d))
  have hmethod := reads_pair.bind fun d => Reads.pure (Entry.narrow (.methodType d))
  constructor
  · intro e w h
    cases h with
    | text a b s hs =>
      have hnil : s = s ++ [] := (List.append_nil s).symm
      exact htext.takes _ _ ⟨_, [a, b], s, ⟨a, b, rfl, rfl⟩,
        ⟨s, s, [], ⟨rfl, hs⟩, ⟨rfl, rfl⟩, hnil⟩, rfl⟩
    | plain _ _ hs =>
      rw [readPayload_plain hs]
      exact (hskip w.length).takes _ _ ⟨w, ⟨rfl, rfl⟩, rfl⟩
    | wide _ _ ht hs =>
      have hread := hwide.takes .wide w ⟨w, w, [], ⟨rfl, hs⟩, ⟨rfl, rfl⟩, (List.append_nil w).symm⟩
      rcases ht with rfl | rfl
      · exact hread
      · exact hread
    | classRef a b => exact hclass.takes _ _ ⟨_, [a, b], [], ⟨a, b, rfl, rfl⟩, ⟨rfl, rfl⟩, rfl⟩
    | nameAndType x y a b =>
      exact hname.takes _ _ ⟨_, [x, y], [a, b], ⟨x, y, rfl, rfl⟩,
        ⟨_, [a, b], [], ⟨a, b, rfl, rfl⟩, ⟨rfl, rfl⟩, rfl⟩, rfl⟩
    | methodType a b => exact hmethod.takes _ _ ⟨_, [a, b], [], ⟨a, b, rfl, rfl⟩, ⟨rfl, rfl⟩, rfl⟩
  · intro c e c' h
    have hplain (t n : Nat) (ht : (t, n) ∈ plainSizes) (hs : skip n c = .ok (e, c')) :
        ∃ w, Payload t e w ∧ c.rest = w ++ c'.rest ∧ c'.offset = c.offset + w.length := by
      obtain ⟨w, ⟨_, ⟨rfl, rfl⟩, rfl⟩, hc⟩ := (hskip n).gives c e c' hs
      exact ⟨_, .plain t _ ht, hc⟩
    have hdouble (t : Nat) (ht : t = 5 ∨ t = 6) (hw : readPayload 5 index c = .ok (e, c')) :
        ∃ w, Payload t e w ∧ c.rest = w ++ c'.rest ∧ c'.offset = c.offset + w.length := by
      obtain ⟨_, ⟨s, _, _, ⟨rfl, hs⟩, ⟨rfl, rfl⟩, rfl⟩, hc⟩ := hwide.gives c e c' hw
      rw [List.append_nil] at hc
      exact ⟨_, .wide t s ht hs, hc⟩
    unfold readPayload at h
    split at h
    case h_1 =>
      obtain ⟨_, ⟨_, _, _, ⟨a, b, rfl, rfl⟩, ⟨s, _, _, ⟨rfl, hs⟩, ⟨rfl, rfl⟩, rfl⟩, rfl⟩, hc⟩ :=
        htext.gives c e c' h
      rw [List.append_nil] at hc
      exact ⟨_, .text a b s hs, hc⟩
    case h_2 | h_3 => exact hplain _ 4 (by decide) h
    case h_4 | h_5 => exact hdouble _ (by decide) h
    case h_6 =>
      obtain ⟨_, ⟨_, _, _, ⟨a, b, rfl, rfl⟩, ⟨rfl, rfl⟩, rfl⟩, hc⟩ := hclass.gives c e c' h
      exact ⟨_, .classRef a b, hc⟩
    case h_7 | h_8 | h_9 => exact hplain _ 2 (by decide) h
    case h_10 | h_11 | h_12 | h_13 | h_14 => exact hplain _ 4 (by decide) h
    case h_15 =>
      obtain ⟨_, ⟨_, _, _, ⟨x, y, rfl, rfl⟩, ⟨_, _, _, ⟨a, b, rfl, rfl⟩, ⟨rfl, rfl⟩, rfl⟩, rfl⟩,
        hc⟩ := hname.gives c e c' h
      exact ⟨_, .nameAndType x y a b, hc⟩
    case h_16 => exact hplain _ 3 (by decide) h
    case h_17 =>
      obtain ⟨_, ⟨_, _, _, ⟨a, b, rfl, rfl⟩, ⟨rfl, rfl⟩, rfl⟩, hc⟩ := hmethod.gives c e c' h
      exact ⟨_, .methodType a b, hc⟩
    case h_18 => cases h

def readConstants (missing index : Nat) : Read (List Slot) := fun c => do
  let (tag, c) ← number 1 c
  let (e, c) ← readPayload tag index c
  let (slots, c) ← readSlots (missing - e.width) (index + e.width) c
  .ok (e.slots.take missing ++ slots, c)

theorem readSlots_succ (missing index : Nat) :
    readSlots (missing + 1) index = readConstants (missing + 1) index := by
  funext c
  rw [readSlots, readConstants]
  refine bind_congr fun ⟨tag, c⟩ => bind_congr fun ⟨e, c⟩ => ?_
  cases e with
  | narrow slot =>
    have htake : (Entry.narrow slot).slots.take (missing + 1) = [slot] := by simp [Entry.slots]
    simp only [htake]
    rfl
  | wide =>
    cases missing with
    | zero => rfl
    | succ fewer =>
      have htake : Entry.wide.slots.take (fewer + 1 + 1) = [.other, .other] := by
        simp [Entry.slots]
      simp only [htake]
      rfl

theorem reads_slots (missing index : Nat) : Reads (readSlots missing index) fun slots w =>
    ∃ es, Constants es w ∧ Fills missing es ∧ slots = (slotsOf es).take missing := by
  -- A wide constant leaves two slots fewer to fill, or none where one was missing.
  induction missing using Nat.strongRecOn generalizing index with
  | ind missing ih =>
    cases missing with
    | zero =>
      refine (Reads.pure []).of_iff fun slots w => ⟨?_, ?_⟩
      · rintro ⟨rfl, rfl⟩
        exact ⟨[], .nil, (fills_zero []).mpr rfl, rfl⟩
      · rintro ⟨es, hw, hes, rfl⟩
        obtain rfl := (fills_zero es).mp hes
        cases hw
        exact ⟨rfl, rfl⟩
    | succ missing =>
      rw [readSlots_succ]
      have hless (e : Entry) : missing + 1 - e.width < missing + 1 := by
        have hpos := e.width_pos
        omega
      have htake (e : Entry) (es : List Entry) : (slotsOf (e :: es)).take (missing + 1) =
          e.slots.take (missing + 1) ++ (slotsOf es).take (missing + 1 - e.width) := by
        rw [← e.length_slots]
        exact List.take_append
      have hreads := reads_byte.bind fun tag => (reads_payload tag index).bind fun e =>
        (ih _ (hless e) (index + e.width)).bind fun slots =>
          Reads.pure (e.slots.take (missing + 1) ++ slots)
      refine hreads.of_iff fun slots w => ⟨?_, ?_⟩
      · rintro ⟨_, _, _, ⟨tag, rfl, rfl⟩, ⟨e, payload, _, he, ⟨_, rest, _, ⟨es, hes, hn, rfl⟩,
          ⟨rfl, rfl⟩, rfl⟩, rfl⟩, rfl⟩
        rw [List.append_nil, ← htake]
        exact ⟨e :: es, .cons tag e payload es rest he hes,
          (fills_cons (Nat.succ_pos missing) e es).mpr hn, rfl⟩
      · rintro ⟨es, hw, hn, rfl⟩
        cases hw with
        | nil => exact absurd hn (by simp [Fills, width])
        | cons tag e payload es rest he hes =>
          have hrest := (fills_cons (Nat.succ_pos missing) e es).mp hn
          refine ⟨_, [tag], payload ++ rest, ⟨tag, rfl, rfl⟩, ⟨e, payload, rest, he, ⟨_, rest, [],
            ⟨es, hes, hrest, rfl⟩, ⟨htake e es, rfl⟩, (List.append_nil rest).symm⟩, rfl⟩, rfl⟩

theorem reads_pool : Reads readPool fun pool w => ∃ a b es rest,
    Constants es rest ∧ Fills (pair a b - 1) es ∧ pool = poolOf (pair a b - 1) es ∧
      w = a :: b :: rest := by
  have hreads := reads_pair.bind fun count => (reads_slots (count - 1) 1).bind fun slots =>
    Reads.pure (Slot.other :: slots)
  refine hreads.of_iff fun pool w => ⟨?_, ?_⟩
  · rintro ⟨_, _, _, ⟨a, b, rfl, rfl⟩, ⟨_, rest, _, ⟨es, hes, hn, rfl⟩, ⟨rfl, rfl⟩, rfl⟩, rfl⟩
    rw [List.append_nil]
    exact ⟨a, b, es, rest, hes, hn, rfl, rfl⟩
  · rintro ⟨a, b, es, rest, hes, hn, rfl, rfl⟩
    exact ⟨_, [a, b], rest, ⟨a, b, rfl, rfl⟩, ⟨_, rest, [], ⟨es, hes, hn, rfl⟩, ⟨rfl, rfl⟩,
      (List.append_nil rest).symm⟩, rfl⟩

theorem bigEndian_eq_magic {w : List UInt8} (hw : w.length = 4) :
    bigEndian w = magic ↔ w = [0xCA, 0xFE, 0xBA, 0xBE] := by
  constructor
  · intro h
    match w, hw with
    | [x, y, z, t], _ =>
      have hx := x.toNat_lt
      have hy := y.toNat_lt
      have hz := z.toNat_lt
      have ht := t.toNat_lt
      simp only [bigEndian, magic, List.foldl_cons, List.foldl_nil] at h
      obtain rfl : x = 0xCA := UInt8.toNat.inj (by change x.toNat = 0xCA; omega)
      obtain rfl : y = 0xFE := UInt8.toNat.inj (by change y.toNat = 0xFE; omega)
      obtain rfl : z = 0xBA := UInt8.toNat.inj (by change z.toNat = 0xBA; omega)
      obtain rfl : t = 0xBE := UInt8.toNat.inj (by change t.toNat = 0xBE; omega)
      rfl
  · rintro rfl
    rfl

structure Header.From (h : Header) (slots : List Slot) (access this super : Nat) : Prop where
  pool : h.pool = slots
  flags : h.flags = access
  name : classAt slots this = .ok h.name
  found : super = 0 ∨ ∃ s, classAt slots super = .ok s
  superclass : ∀ s, h.superclass = some s ↔ super ≠ 0 ∧ classAt slots super = .ok s

def readNames (pool : List Slot) : Read Header := fun c => do
  let (flags, c) ← number 2 c
  let (this, c) ← number 2 c
  let name ← classAt pool this
  let (super, c) ← number 2 c
  if super = 0 then return (⟨pool, flags, name, none⟩, c)
  else
    let superclass ← classAt pool super
    return (⟨pool, flags, name, some superclass⟩, c)

theorem reads_names (pool : List Slot) : Reads (readNames pool) fun h w => ∃ c d t u v x,
    w = [c, d, t, u, v, x] ∧ h.From pool (pair c d) (pair t u) (pair v x) := by
  have hreads := reads_pair.bind fun flags => reads_pair.bind fun this =>
    Reads.lift (classAt pool this) fun name => reads_pair.bind fun super =>
      Reads.ite (super = 0) (Reads.pure (⟨pool, flags, name, none⟩ : Header))
        (Reads.lift (classAt pool super) fun superclass =>
          Reads.pure ⟨pool, flags, name, some superclass⟩)
  refine hreads.of_iff fun h w => ⟨?_, ?_⟩
  · rintro ⟨_, _, _, ⟨c, d, rfl, rfl⟩, ⟨_, _, _, ⟨t, u, rfl, rfl⟩, ⟨name, hname, ⟨_, _, _,
      ⟨v, x, rfl, rfl⟩, hsuper, rfl⟩⟩, rfl⟩, rfl⟩
    refine ⟨c, d, t, u, v, x, ?_⟩
    by_cases hzero : pair v x = 0
    · rw [if_pos hzero] at hsuper
      obtain ⟨rfl, rfl⟩ := hsuper
      refine ⟨rfl, rfl, rfl, hname, Or.inl hzero, ?_⟩
      intro s
      simp [hzero]
    · rw [if_neg hzero] at hsuper
      obtain ⟨superclass, hclass, rfl, rfl⟩ := hsuper
      refine ⟨rfl, rfl, rfl, hname, Or.inr ⟨superclass, hclass⟩, ?_⟩
      intro s
      rw [and_iff_right hzero, hclass]
      exact ⟨fun h => congrArg _ (Option.some.inj h), fun h => congrArg _ (Except.ok.inj h)⟩
  · rintro ⟨c, d, t, u, v, x, rfl, hh⟩
    obtain ⟨_, _, name, superclass⟩ := h
    obtain ⟨rfl, rfl, hname, hfound, hsuper⟩ := hh
    refine ⟨_, [c, d], _, ⟨c, d, rfl, rfl⟩, ⟨_, [t, u], _, ⟨t, u, rfl, rfl⟩, ⟨name, hname,
      ⟨_, [v, x], [], ⟨v, x, rfl, rfl⟩, ?_, rfl⟩⟩, rfl⟩, rfl⟩
    by_cases hzero : pair v x = 0
    · obtain rfl : superclass = none := by
        rw [Option.eq_none_iff_forall_ne_some]
        intro s hs
        exact ((hsuper s).mp hs).1 hzero
      rw [if_pos hzero]
      exact ⟨rfl, rfl⟩
    · obtain ⟨s, hs⟩ := hfound.resolve_left hzero
      obtain rfl := (hsuper s).mpr ⟨hzero, hs⟩
      rw [if_neg hzero]
      exact ⟨s, hs, rfl, rfl⟩

structure Image.Makes (f : Image) (h : Header) : Prop where
  pool : h.pool = poolOf (f.count - 1) f.constants
  flags : h.flags = f.flags
  name : ∃ text, ClassAt f.constants f.this text ∧ h.name = binaryName text
  superclass : ∀ s, h.superclass = some s ↔
    f.super ≠ 0 ∧ ∃ text, ClassAt f.constants f.super text ∧ s = binaryName text

/-- The names are found in the table of slots just when the image is valid, and they are those of
its constants. -/
theorem Image.from_iff {f : Image} (hn : Fills (f.count - 1) f.constants) (h : Header) :
    h.From (poolOf (f.count - 1) f.constants) f.flags f.this f.super ↔ f.Valid ∧ f.Makes h := by
  have hclass := classAt_eq_ok hn
  constructor
  · rintro ⟨hpool, hflags, hname, hfound, hsuper⟩
    have hmakes : f.Makes h := by
      refine ⟨hpool, hflags, (hclass _ _).mp hname, ?_⟩
      intro s
      rw [hsuper, hclass]
    obtain ⟨text, htext, -⟩ := hmakes.name
    refine ⟨⟨hn, ⟨text, htext⟩, hfound.imp_right ?_⟩, hmakes⟩
    rintro ⟨s, hs⟩
    obtain ⟨super, hsuper, -⟩ := (hclass _ s).mp hs
    exact ⟨super, hsuper⟩
  · rintro ⟨hvalid, hpool, hflags, hname, hsuper⟩
    refine ⟨hpool, hflags, (hclass _ _).mpr hname, hvalid.super.imp_right ?_, ?_⟩
    · rintro ⟨super, hsuper⟩
      exact ⟨binaryName super, (hclass _ _).mpr ⟨super, hsuper, rfl⟩⟩
    · intro s
      rw [hsuper, hclass]

theorem reads_header : Reads readHeader fun h w => ∃ f : Image, f.Head w ∧ f.Valid ∧ f.Makes h := by
  have hreads := (reads_number 4).bind fun found => Reads.ite (found ≠ magic)
    (Reads.fail (.badMagic found))
    (reads_pair.bind fun _ => reads_pair.bind fun _ => reads_pool.bind reads_names)
  refine hreads.of_iff fun h w => ⟨?_, ?_⟩
  · rintro ⟨found, w₁, _, ⟨hfound, hlength⟩, hrest, rfl⟩
    by_cases hmagic : found = magic
    · rw [if_neg (not_not.mpr hmagic)] at hrest
      obtain ⟨_, _, _, ⟨p, q, rfl, rfl⟩, ⟨_, _, _, ⟨r, s, rfl, rfl⟩, ⟨_, _, _,
        ⟨a, b, es, bytes, hes, hn, rfl, rfl⟩, ⟨c, d, t, u, v, x, rfl, hnames⟩, rfl⟩, rfl⟩, rfl⟩ :=
        hrest
      obtain rfl := (bigEndian_eq_magic hlength).mp (hfound.symm.trans hmagic)
      let f : Image := ⟨pair a b, es, pair c d, pair t u, pair v x⟩
      exact ⟨f, .mk p q r s a b es bytes hes c d t u v x, (Image.from_iff (f := f) hn h).mp hnames⟩
    · rw [if_pos hmagic] at hrest
      exact hrest.elim
  · rintro ⟨f, hhead, hvalid, hmakes⟩
    have hnames := (Image.from_iff hvalid.fills h).mpr ⟨hvalid, hmakes⟩
    cases hhead with
    | mk p q r s a b es bytes hes c d t u v x =>
      refine ⟨magic, [0xCA, 0xFE, 0xBA, 0xBE], _, ⟨rfl, rfl⟩, ?_, rfl⟩
      rw [if_neg (not_not.mpr rfl)]
      exact ⟨_, [p, q], _, ⟨p, q, rfl, rfl⟩, ⟨_, [r, s], _, ⟨r, s, rfl, rfl⟩,
        ⟨_, a :: b :: bytes, _, ⟨a, b, es, bytes, hes, hvalid.fills, rfl, rfl⟩,
          ⟨c, d, t, u, v, x, rfl, hnames⟩, rfl⟩, rfl⟩, rfl⟩

end Retest.ClassFile
