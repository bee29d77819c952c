import Retest.Proofs.Decoding

/-! A class file that is cut short. Decoding is put as a plan of reads, in which what one read gives
decides about the next one, so that the reads can be listed beside the result. A cut within the
bytes that they take makes the first read fail that no longer fits, and nothing behind these bytes
is looked at. -/

namespace Retest.ClassFile

structure Span where
  start : Nat
  size : Nat
  deriving Repr, DecidableEq

def Span.stop (s : Span) : Nat := s.start + s.size

def Cursor.limit (c : Cursor) : Nat := c.offset + c.rest.length

inductive Plan (α : Type) where
  | ends (result : Except DecodeError α)
  | reads (size : Nat) (next : List UInt8 → Plan α)

namespace Plan

variable {α β : Type}

def run : Plan α → Read α
  | .ends result, c => result.map fun a => (a, c)
  | .reads size next, c =>
    match take size c with
    | .error e => .error e
    | .ok (bytes, c) => (next bytes).run c

def spans : Plan α → Cursor → List Span
  | .ends _, _ => []
  | .reads size next, c =>
    ⟨c.offset, size⟩ ::
      match take size c with
      | .error _ => []
      | .ok (bytes, c) => (next bytes).spans c

def andThen : Plan α → (α → Plan β) → Plan β
  | .ends (.ok a), next => next a
  | .ends (.error e), _ => .ends (.error e)
  | .reads size more, next => .reads size fun bytes => (more bytes).andThen next

instance : Monad Plan where
  pure a := .ends (.ok a)
  bind := andThen

/-! ## The plan of a class -/

def number (width : Nat) : Plan Nat := .reads width fun bytes => pure (bigEndian bytes)

def skip (size : Nat) : Plan Entry := .reads size fun _ => pure (.narrow .other)

def payload (tag index : Nat) : Plan Entry :=
  match tag with
  | 1 => do
    let length ← number 2
    .reads length fun bytes => pure (.narrow (.text (Utf8.decodeLossy bytes)))
  | 3 | 4 => skip 4
  | 5 | 6 => .reads 8 fun _ => pure .wide
  | 7 => do return .narrow (.classRef (← number 2))
  | 8 | 19 | 20 => skip 2
  | 9 | 10 | 11 | 17 | 18 => skip 4
  | 12 => do
    let _ ← number 2
    return .narrow (.nameAndType (← number 2))
  | 15 => skip 3
  | 16 => do return .narrow (.methodType (← number 2))
  | _ => .ends (.error (.unknownTag tag index))

def slots : Nat → Nat → Plan (List Slot)
  | 0, _ => pure []
  | missing + 1, index => do
    let tag ← number 1
    match ← payload tag index with
    | .narrow slot => return slot :: (← slots missing (index + 1))
    | .wide =>
      match missing with
      | 0 => return [.other]
      | fewer + 1 => return .other :: .other :: (← slots fewer (index + 2))

def pool : Plan (List Slot) := do
  let count ← number 2
  return .other :: (← slots (count - 1) 1)

def header : Plan Header := do
  let found ← number 4
  if found ≠ magic then .ends (.error (.badMagic found))
  else
    let _ ← number 2
    let _ ← number 2
    let pool ← pool
    let flags ← number 2
    let this ← number 2
    let name ← .ends (classAt pool this)
    let super ← number 2
    if super = 0 then return ⟨pool, flags, name, none⟩
    else return ⟨pool, flags, name, some (← .ends (classAt pool super))⟩

theorem run_bind (p : Plan α) (f : α → Plan β) (c : Cursor) :
    (p >>= f).run c = p.run c >>= fun r => (f r.1).run r.2 := by
  change (p.andThen f).run c = _
  induction p generalizing c with
  | ends result =>
    cases result with
    | error e => rfl
    | ok a => rfl
  | reads size next ih =>
    rw [andThen, run, run]
    cases take size c with
    | error e => rfl
    | ok r => exact ih r.1 r.2

theorem run_reads (size : Nat) (next : List UInt8 → Plan α) (c : Cursor) :
    (reads size next).run c = take size c >>= fun r => (next r.1).run r.2 := by
  rw [run]
  cases take size c <;> rfl

theorem run_number (width : Nat) (c : Cursor) :
    (number width).run c = ClassFile.number width c := by
  rw [number, run_reads, ClassFile.number]
  cases take width c <;> rfl

theorem run_skip (size : Nat) (c : Cursor) : (skip size).run c = ClassFile.skip size c := by
  rw [skip, run_reads, ClassFile.skip]
  cases take size c <;> rfl

theorem run_payload (tag index : Nat) (c : Cursor) :
    (payload tag index).run c = readPayload tag index c := by
  unfold payload
  split
  case h_1 =>
    rw [run_bind, run_number]
    exact bind_congr fun ⟨length, c⟩ => run_reads length _ c
  case h_2 | h_3 => exact run_skip 4 c
  case h_4 | h_5 => exact run_reads 8 _ c
  case h_6 | h_17 =>
    rw [run_bind, run_number]
    rfl
  case h_7 | h_8 | h_9 => exact run_skip 2 c
  case h_10 | h_11 | h_12 | h_13 | h_14 => exact run_skip 4 c
  case h_15 =>
    rw [run_bind, run_number]
    refine bind_congr fun ⟨_, c⟩ => ?_
    rw [run_bind, run_number]
    rfl
  case h_16 => exact run_skip 3 c
  case h_18 =>
    simp only [readPayload]
    rfl

theorem run_slots (missing index : Nat) (c : Cursor) :
    (slots missing index).run c = readSlots missing index c := by
  induction missing using Nat.strongRecOn generalizing index c with
  | ind missing ih =>
    cases missing with
    | zero => rfl
    | succ missing =>
      unfold slots
      rw [readSlots, run_bind, run_number]
      apply bind_congr
      rintro ⟨tag, c⟩
      rw [run_bind, run_payload]
      apply bind_congr
      rintro ⟨entry, c⟩
      cases entry with
      | narrow slot =>
        have hrest := ih missing (Nat.lt_succ_self missing) (index + 1) c
        dsimp only
        rw [run_bind, hrest]
        rfl
      | wide =>
        cases missing with
        | zero => rfl
        | succ fewer =>
          have hrest := ih fewer (by omega) (index + 2) c
          dsimp only
          rw [run_bind, hrest]
          rfl

theorem run_pool (c : Cursor) : pool.run c = readPool c := by
  rw [pool, readPool, run_bind, run_number]
  refine bind_congr fun ⟨count, c⟩ => ?_
  rw [run_bind, run_slots]
  rfl

theorem run_header (c : Cursor) : header.run c = readHeader c := by
  rw [header, readHeader, run_bind, run_number]
  refine bind_congr fun ⟨found, c⟩ => ?_
  dsimp only
  split
  · rfl
  rw [run_bind, run_number]
  refine bind_congr fun ⟨_, c⟩ => ?_
  rw [run_bind, run_number]
  refine bind_congr fun ⟨_, c⟩ => ?_
  rw [run_bind, run_pool]
  refine bind_congr fun ⟨pool, c⟩ => ?_
  rw [run_bind, run_number]
  refine bind_congr fun ⟨flags, c⟩ => ?_
  rw [run_bind, run_number]
  refine bind_congr fun ⟨this, c⟩ => ?_
  cases classAt pool this with
  | error e => rfl
  | ok name =>
    change (number 2 >>= _).run c = (ClassFile.number 2 c >>= _)
    rw [run_bind, run_number]
    refine bind_congr fun ⟨super, c⟩ => ?_
    dsimp only
    split
    · rfl
    · cases classAt pool super <;> rfl

/-! ## Cuts -/

def Decisive : Plan α → Prop
  | .ends result => ∀ o, result ≠ .error (.truncated o)
  | .reads _ next => ∀ bytes, (next bytes).Decisive

theorem Decisive.bind {p : Plan α} {f : α → Plan β} (hp : p.Decisive) (hf : ∀ a, (f a).Decisive) :
    (p >>= f).Decisive := by
  change (p.andThen f).Decisive
  induction p with
  | ends result =>
    cases result with
    | error e =>
      intro o h
      cases h
      exact hp o rfl
    | ok a => exact hf a
  | reads size next ih => exact fun bytes => ih bytes (hp bytes)

theorem decisive_pure (a : α) : (pure a : Plan α).Decisive := by
  intro o h
  cases h

theorem decisive_number (width : Nat) : (number width).Decisive :=
  fun bytes => decisive_pure (bigEndian bytes)

theorem decisive_payload (tag index : Nat) : (payload tag index).Decisive := by
  unfold payload
  split
  case h_18 =>
    intro o h
    cases h
  case h_1 =>
    exact (decisive_number 2).bind fun length bytes => decisive_pure _
  case h_6 | h_17 => exact (decisive_number 2).bind fun n => decisive_pure _
  case h_15 =>
    apply (decisive_number 2).bind
    intro _
    exact (decisive_number 2).bind fun n => decisive_pure _
  all_goals exact fun bytes => decisive_pure _

theorem decisive_slots (missing index : Nat) : (slots missing index).Decisive := by
  induction missing using Nat.strongRecOn generalizing index with
  | ind missing ih =>
    cases missing with
    | zero => exact decisive_pure []
    | succ missing =>
      unfold slots
      apply (decisive_number 1).bind
      intro tag
      apply (decisive_payload tag index).bind
      intro entry
      cases entry with
      | narrow slot => exact (ih missing (Nat.lt_succ_self missing) _).bind fun l => decisive_pure _
      | wide =>
        cases missing with
        | zero => exact decisive_pure _
        | succ fewer => exact (ih fewer (by omega) _).bind fun l => decisive_pure _

theorem decisive_classAt (pool : List Slot) (index : Nat) :
    (Plan.ends (classAt pool index)).Decisive := by
  intro o h
  unfold classAt textAt at h
  split at h
  · split at h <;> cases h
  · cases h

theorem decisive_header : header.Decisive := by
  unfold header
  apply (decisive_number 4).bind
  intro found
  split
  · intro o h
    cases h
  apply (decisive_number 2).bind
  intro _
  apply (decisive_number 2).bind
  intro _
  apply Decisive.bind
  · exact (decisive_number 2).bind fun count =>
      (decisive_slots _ 1).bind fun l => decisive_pure _
  intro pool
  apply (decisive_number 2).bind
  intro flags
  apply (decisive_number 2).bind
  intro this
  apply (decisive_classAt pool this).bind
  intro name
  apply (decisive_number 2).bind
  intro super
  split
  · exact decisive_pure _
  · exact (decisive_classAt pool super).bind fun s => decisive_pure _

end Plan

def FirstPast (limit : Nat) (s : Span) (l : List Span) : Prop :=
  ∃ before after, l = before ++ s :: after ∧ (∀ r ∈ before, r.stop ≤ limit) ∧ limit < s.stop

theorem FirstPast.here {limit : Nat} {s : Span} (h : limit < s.stop) (l : List Span) :
    FirstPast limit s (s :: l) := ⟨[], l, rfl, by simp, h⟩

theorem FirstPast.cons {limit : Nat} {r s : Span} {l : List Span} (h : FirstPast limit s l)
    (hr : r.stop ≤ limit) : FirstPast limit s (r :: l) := by
  obtain ⟨before, after, rfl, hbefore, hs⟩ := h
  exact ⟨r :: before, after, rfl, List.forall_mem_cons.mpr ⟨hr, hbefore⟩, hs⟩

section Take

variable {n : Nat} {c : Cursor}

theorem take_of_le (h : n ≤ c.rest.length) :
    take n c = .ok (c.rest.take n, ⟨c.rest.drop n, c.offset + n⟩) := by
  rw [take, if_pos (List.length_take_of_le h)]

theorem take_of_lt (h : c.rest.length < n) : take n c = .error (.truncated c.offset) := by
  have hshort : (c.rest.take n).length ≠ n := by
    rw [List.length_take]
    omega
  rw [take, if_neg hshort]

theorem limit_drop (h : n ≤ c.rest.length) :
    (Cursor.mk (c.rest.drop n) (c.offset + n)).limit = c.limit := by
  rw [Cursor.limit, Cursor.limit, List.length_drop]
  dsimp only
  omega

end Take

namespace Plan

variable {α : Type}

/-- Either all reads fit, and the plan does not fail as truncated, or the last one alone goes past
the end, and the plan fails where it begins. -/
theorem fits_or_stops {p : Plan α} (hp : p.Decisive) (c : Cursor) :
    ((∀ s ∈ p.spans c, s.stop ≤ c.limit) ∧ ∀ o, p.run c ≠ .error (.truncated o)) ∨
      ∃ before s, p.spans c = before ++ [s] ∧ (∀ r ∈ before, r.stop ≤ c.limit) ∧
        c.limit < s.stop ∧ p.run c = .error (.truncated s.start) := by
  induction p generalizing c with
  | ends result =>
    refine Or.inl ⟨by simp [spans], ?_⟩
    intro o h
    cases result with
    | error e =>
      cases h
      exact hp o rfl
    | ok a => cases h
  | reads size next ih =>
    rw [run, spans]
    by_cases hsize : size ≤ c.rest.length
    · have hfits : (Span.mk c.offset size).stop ≤ c.limit := Nat.add_le_add_left hsize _
      have hnext := ih (c.rest.take size) (hp _) ⟨c.rest.drop size, c.offset + size⟩
      rw [limit_drop hsize] at hnext
      rw [take_of_le hsize]
      rcases hnext with ⟨hall, hrun⟩ | ⟨before, s, hspans, hbefore, hs, hrun⟩
      · exact Or.inl ⟨List.forall_mem_cons.mpr ⟨hfits, hall⟩, hrun⟩
      · refine Or.inr ⟨⟨c.offset, size⟩ :: before, s, ?_, ?_, hs, hrun⟩
        · exact congrArg (List.cons _) hspans
        · exact List.forall_mem_cons.mpr ⟨hfits, hbefore⟩
    · have hpast : c.limit < (Span.mk c.offset size).stop :=
        Nat.add_lt_add_left (Nat.lt_of_not_le hsize) _
      rw [take_of_lt (Nat.lt_of_not_le hsize)]
      exact Or.inr ⟨[], _, rfl, by simp, hpast, rfl⟩

/-- The reads of a plan that succeeds lie side by side. -/
theorem offset_of_run {p : Plan α} {c c' : Cursor} {a : α} (h : p.run c = .ok (a, c')) :
    c'.offset = c.offset + ((p.spans c).map (·.size)).sum := by
  induction p generalizing c with
  | ends result =>
    cases result with
    | error e => cases h
    | ok b =>
      cases h
      rfl
  | reads size next ih =>
    rw [run] at h
    rw [spans]
    by_cases hsize : size ≤ c.rest.length
    · rw [take_of_le hsize] at h ⊢
      rw [ih _ h, List.map_cons, List.sum_cons, Nat.add_assoc]
    · rw [take_of_lt (Nat.lt_of_not_le hsize)] at h
      cases h

/-- Of a plan that succeeds no less than all bytes that it takes may be left: the first read that
goes past the cut fails. -/
theorem run_cut {p : Plan α} {c c' : Cursor} {a : α} (h : p.run c = .ok (a, c')) {n : Nat}
    (hn : c.offset + n < c'.offset) :
    ∃ s, FirstPast (c.offset + n) s (p.spans c) ∧ s.start ≤ c.offset + n ∧
      p.run ⟨c.rest.take n, c.offset⟩ = .error (.truncated s.start) := by
  induction p generalizing c n with
  | ends result =>
    cases result with
    | error e => cases h
    | ok b =>
      cases h
      omega
  | reads size next ih =>
    rw [run] at h ⊢
    rw [spans]
    by_cases hsize : size ≤ c.rest.length
    · rw [take_of_le hsize] at h ⊢
      by_cases hcut : size ≤ n
      -- The first read still gets what it got, so the cut is in what follows.
      · have hshort : size ≤ (c.rest.take n).length := by
          rw [List.length_take]
          omega
        have hsame : (c.rest.take n).take size = c.rest.take size := by
          rw [List.take_take, Nat.min_eq_left hcut]
        have hdrop : (c.rest.take n).drop size = (c.rest.drop size).take (n - size) :=
          List.drop_take
        have hoffset : c.offset + size + (n - size) = c.offset + n := by omega
        obtain ⟨s, hs, hle, hrun⟩ := ih _ h (n := n - size) (by dsimp only; omega)
        dsimp only at hs hle hrun
        rw [hoffset] at hs hle
        have hfits : (Span.mk c.offset size).stop ≤ c.offset + n := Nat.add_le_add_left hcut _
        refine ⟨s, hs.cons hfits, hle, ?_⟩
        rw [take_of_le hshort]
        dsimp only
        rw [hsame, hdrop, hrun]
      · have hshort : (c.rest.take n).length < size := by
          rw [List.length_take]
          omega
        have hpast : c.offset + n < (Span.mk c.offset size).stop :=
          Nat.add_lt_add_left (Nat.lt_of_not_le hcut) _
        refine ⟨⟨c.offset, size⟩, .here hpast _, Nat.le_add_right _ _, ?_⟩
        rw [take_of_lt hshort]
    · rw [take_of_lt (Nat.lt_of_not_le hsize)] at h
      cases h

end Plan

def readsOf (bytes : List UInt8) : List Span := Plan.header.spans ⟨bytes, 0⟩

def consumed (bytes : List UInt8) : Nat := ((readsOf bytes).map (·.size)).sum

variable {bytes : List UInt8} {file : Option Path}

theorem decode_eq_truncated_iff (file : Option Path) (o : Nat) :
    decode bytes file = .error (.truncated o) ↔
      Plan.header.run ⟨bytes, 0⟩ = .error (.truncated o) := by
  rw [Plan.run_header, decode]
  cases readHeader ⟨bytes, 0⟩ <;> simp [Except.map]

/-- Decoding takes the bytes that its reads take, and does not look behind them. -/
theorem decode_take_append {cls : JvmClass} (h : decode bytes file = .ok cls) :
    ∃ head c', readHeader ⟨bytes, 0⟩ = .ok (head, c') ∧ c'.offset = consumed bytes ∧
      consumed bytes ≤ bytes.length ∧
        ∀ rest, decode (bytes.take (consumed bytes) ++ rest) file = .ok cls := by
  cases hread : readHeader ⟨bytes, 0⟩ with
  | error e =>
    rw [decode, hread] at h
    cases h
  | ok r =>
    obtain ⟨head, c'⟩ := r
    obtain ⟨w, hw, hbytes, hoffset⟩ := reads_header.gives _ head c' hread
    have hplan := (Plan.run_header ⟨bytes, 0⟩).trans hread
    have hconsumed : c'.offset = consumed bytes := by
      rw [Plan.offset_of_run hplan, Nat.zero_add]
      rfl
    have hlength : consumed bytes = w.length := by
      rw [← hconsumed, hoffset, Nat.zero_add]
    have hfront : bytes.take (consumed bytes) = w := by
      rw [hlength, show bytes = w ++ c'.rest from hbytes, List.take_left]
    refine ⟨head, c', rfl, hconsumed, ?_, ?_⟩
    · rw [hlength, show bytes = w ++ c'.rest from hbytes, List.length_append]
      exact Nat.le_add_right _ _
    · intro rest
      rw [hfront, decode, reads_header.takes head w hw rest 0]
      rw [decode, hread] at h
      exact h

/-- Decoding bytes gives a class or an error. Either all its reads lie within the bytes, or the last
one alone goes past their end, and the bytes are refused as truncated where it begins. Of bytes that
are a class those that the reads take decide: whatever follows them may be replaced, and without the
last of them the first read that no longer fits fails. -/
theorem truncation_noticed (bytes : List UInt8) (file : Option Path) :
    ((∀ s ∈ readsOf bytes, s.stop ≤ bytes.length) ∧
        (∀ o, decode bytes file ≠ .error (.truncated o)) ∨
      ∃ before s, readsOf bytes = before ++ [s] ∧ (∀ r ∈ before, r.stop ≤ bytes.length) ∧
        bytes.length < s.stop ∧ decode bytes file = .error (.truncated s.start)) ∧
    ∀ cls, decode bytes file = .ok cls →
      consumed bytes ≤ bytes.length ∧
      (∀ rest, decode (bytes.take (consumed bytes) ++ rest) file = .ok cls) ∧
      ∀ n < consumed bytes, ∃ s, FirstPast n s (readsOf bytes) ∧ s.start ≤ n ∧
        decode (bytes.take n) file = .error (.truncated s.start) := by
  refine ⟨?_, ?_⟩
  · have hlimit : (Cursor.mk bytes 0).limit = bytes.length := Nat.zero_add _
    have hends := Plan.fits_or_stops Plan.decisive_header ⟨bytes, 0⟩
    simp only [hlimit, ne_eq, ← decode_eq_truncated_iff file] at hends
    exact hends
  · intro cls h
    obtain ⟨head, c', hread, hoffset, hle, hrest⟩ := decode_take_append h
    refine ⟨hle, hrest, ?_⟩
    intro n hn
    have hplan := (Plan.run_header ⟨bytes, 0⟩).trans hread
    have hcut : 0 + n < c'.offset := by omega
    obtain ⟨s, hs, hstart, hrun⟩ := Plan.run_cut hplan hcut
    rw [Nat.zero_add] at hs hstart
    exact ⟨s, hs, hstart, (decode_eq_truncated_iff file s.start).mpr hrun⟩

/-- Cut behind the tag of its last constant, a class is refused at the payload of that constant; cut
there and filled up again with anything else behind the bytes that are read, it is the same. -/
theorem cut_trial_is_noticed : consumed arrayTrialBytes = 53 ∧
    (∃ cls, decode arrayTrialBytes none = .ok cls ∧
      decode (arrayTrialBytes.take 53 ++ [7, 7, 7]) none = .ok cls) ∧
    ∃ s, FirstPast 39 s (readsOf arrayTrialBytes) ∧ s.start ≤ 39 ∧
      decode (arrayTrialBytes.take 39) none = .error (.truncated s.start) := by
  have hconsumed : consumed arrayTrialBytes = 53 := by decide +kernel
  obtain ⟨cls, h⟩ := (decode_accepts_format arrayTrialBytes none).1.mpr
    ⟨arrayTrial, arrayTrial_written⟩
  obtain ⟨-, hrest, hcut⟩ := (truncation_noticed arrayTrialBytes none).2 cls h
  rw [hconsumed] at hrest hcut
  exact ⟨hconsumed, ⟨cls, h, hrest [7, 7, 7]⟩, hcut 39 (by decide)⟩

end Retest.ClassFile
