import Retest.Run.Message
import Retest.Select.Selection
import Retest.ClassFile.Roots
import Retest.Proofs.Encoding
import Retest.Proofs.Lines

/-! What a worker takes from its input when a batch was written into it. The names are written as
they are, so a line feed in a name cuts it into several lines, and an empty one of these ends the
batch. -/

namespace Retest

namespace Utf8

/-- Only a line feed is written with a byte that is a line feed. -/
theorem lineFeed_mem_encodeChar (c : Char) : Message.lineFeed ∈ encodeChar c ↔ c = '\n' := by
  have hbyte (m : Nat) (h : m < 256) : Message.lineFeed = m.toUInt8 ↔ m = 10 := by
    rw [← UInt8.toNat_inj, Nat.toUInt8, UInt8.toNat_ofNat', Nat.mod_eq_of_lt h]
    exact eq_comm
  have hchar : c = '\n' ↔ c.toNat = 10 := by
    constructor
    · intro h
      rw [h]
      rfl
    · intro h
      rw [← Char.ofNat_toNat c, h]
  have hvalid := toNat_cases c
  rw [hchar, encodeChar]
  generalize c.toNat = n at *
  -- All bytes of a longer character lie above those of one byte.
  by_cases hone : n < 0x80
  · rw [if_pos hone, List.mem_singleton, hbyte n (by omega)]
  rw [if_neg hone]
  have hother : n ≠ 10 := by omega
  refine iff_of_false ?_ hother
  intro hmem
  split at hmem
  · simp only [List.mem_cons, List.not_mem_nil, or_false] at hmem
    rw [hbyte _ (by omega), hbyte _ (by omega)] at hmem
    omega
  split at hmem
  · simp only [List.mem_cons, List.not_mem_nil, or_false] at hmem
    rw [hbyte _ (by omega), hbyte _ (by omega), hbyte _ (by omega)] at hmem
    omega
  · simp only [List.mem_cons, List.not_mem_nil, or_false] at hmem
    rw [hbyte _ (by omega), hbyte _ (by omega), hbyte _ (by omega), hbyte _ (by omega)] at hmem
    omega

theorem lineFeed_mem_encode (s : List Char) : Message.lineFeed ∈ encode s ↔ '\n' ∈ s := by
  simp only [encode, List.mem_flatMap, lineFeed_mem_encodeChar, exists_eq_right]

theorem decodeLossy_encode (s : List Char) : decodeLossy (encode s) = s := by
  rw [decodeLossy, pieces_encode, List.map_map]
  exact List.map_id s

end Utf8

section Split

variable {α : Type} [DecidableEq α] {mark : α}

theorem flatten_splitAfter (s : List α) : (splitAfter mark s).flatten = s := by
  induction s with
  | nil => rfl
  | cons a s ih =>
    rw [splitAfter]
    by_cases ha : a = mark
    · rw [if_pos ha, List.flatten_cons, ih, List.singleton_append]
    · rw [if_neg ha]
      cases hs : splitAfter mark s with
      | nil =>
        rw [hs] at ih
        rw [← ih]
        rfl
      | cons piece more =>
        rw [hs, List.flatten_cons] at ih
        simp [ih]

theorem splitOn_of_not_mem {s : List α} (h : mark ∉ s) : splitOn mark s = [s] := by
  induction s with
  | nil => rfl
  | cons a s ih =>
    have ha : a ≠ mark := fun ha => h (ha ▸ List.mem_cons_self)
    have hs : mark ∉ s := fun hs => h (List.mem_cons_of_mem a hs)
    rw [splitOn, if_neg ha, ih hs]

/-- The pieces are free of the mark. -/
theorem not_mem_of_mem_splitOn {s piece : List α} (h : piece ∈ splitOn mark s) : mark ∉ piece := by
  induction s generalizing piece with
  | nil =>
    rw [splitOn, List.mem_singleton] at h
    rw [h]
    exact List.not_mem_nil
  | cons a s ih =>
    rw [splitOn] at h
    split at h
    · rcases List.mem_cons.mp h with hnil | hs
      · rw [hnil]
        exact List.not_mem_nil
      · exact ih hs
    · next ha =>
      cases hs : splitOn mark s with
      | nil =>
        rw [hs, List.mem_singleton] at h
        rw [h, List.mem_singleton]
        exact fun hm => ha hm.symm
      | cons first more =>
        rw [hs] at ih h
        rcases List.mem_cons.mp h with hfirst | hmore
        · rw [hfirst, List.mem_cons, not_or]
          exact ⟨fun hm => ha hm.symm, ih List.mem_cons_self⟩
        · exact ih (List.mem_cons_of_mem first hmore)

end Split

/-- What a worker takes from its input: the names on the lines before the first blank one, and the
bytes behind that, which are left for the next batch. -/
def receivedBatch (input : List UInt8) : Option (List String × List UInt8) :=
  (readBatch (splitAfter Message.lineFeed input)).map fun r =>
    (r.1.map fun line => String.ofList (Utf8.decodeLossy line.dropLast), r.2.flatten)

def lineBytes (line : List Char) : List UInt8 := Utf8.encode line ++ [Message.lineFeed]

def nameLines (tests : List String) : List (List Char) :=
  tests.flatMap fun t => splitOn '\n' t.toList

theorem lineBytes_ne_nil (line : List Char) : lineBytes line ≠ [] :=
  List.append_ne_nil_of_right_ne_nil _ (List.cons_ne_nil _ _)

/-- A text is written as its lines are. -/
theorem lineBytes_eq_flatMap (s : List Char) :
    lineBytes s = (splitOn '\n' s).flatMap lineBytes := by
  induction s with
  | nil => rfl
  | cons c s ih =>
    rw [splitOn]
    by_cases hc : c = '\n'
    · rw [if_pos hc, List.flatMap_cons, ← ih, hc]
      rfl
    · rw [if_neg hc]
      have hcons (l : List Char) : lineBytes (c :: l) = Utf8.encodeChar c ++ lineBytes l := by
        rw [lineBytes, lineBytes, Utf8.encode, List.flatMap_cons, List.append_assoc]
        rfl
      cases hs : splitOn '\n' s with
      | nil =>
        rw [hs] at ih
        exact absurd ih (lineBytes_ne_nil s)
      | cons first more =>
        rw [hs, List.flatMap_cons] at ih
        rw [hcons, ih, List.flatMap_cons, hcons, List.append_assoc]

/-- A batch is written as the lines of its names and a blank one. -/
theorem batchBytes_eq_flatMap (tests : List String) :
    batchBytes tests = (nameLines tests ++ [[]]).flatMap lineBytes := by
  have hnames : (nameLines tests).flatMap lineBytes =
      tests.flatMap fun t => Utf8.encodeString t ++ [Message.lineFeed] := by
    rw [nameLines, List.flatMap_assoc]
    congr 1
    funext t
    exact (lineBytes_eq_flatMap t.toList).symm
  rw [batchBytes, List.flatMap_append, hnames]
  rfl

/-- Lines that were written one after the other are told apart again. -/
theorem splitAfter_flatMap_lineBytes (lines : List (List Char)) (h : ∀ l ∈ lines, '\n' ∉ l)
    (more : List UInt8) : splitAfter Message.lineFeed (lines.flatMap lineBytes ++ more) =
      lines.map lineBytes ++ splitAfter Message.lineFeed more := by
  induction lines with
  | nil => rfl
  | cons l lines ih =>
    have hl : Message.lineFeed ∉ Utf8.encode l :=
      mt (Utf8.lineFeed_mem_encode l).mp (h l List.mem_cons_self)
    have hsplit := splitAfter_append hl (lines.flatMap lineBytes ++ more)
    have htail := ih fun l' hl' => h l' (List.mem_cons_of_mem l hl')
    rw [List.flatMap_cons, lineBytes, List.append_assoc, List.append_assoc, List.singleton_append,
      hsplit, htail]
    rfl

/-- Reading goes on over lines that are not blank and stops at the first one that is. -/
theorem readBatch_map_lineBytes (lines : List (List Char)) (h : [] ∉ lines)
    (rest : List (List UInt8)) :
    readBatch (lines.map lineBytes ++ lineBytes [] :: rest) =
      some (lines.map lineBytes, rest) := by
  induction lines with
  | nil => rfl
  | cons l lines ih =>
    have hne : l ≠ [] := fun hl => h (hl ▸ List.mem_cons_self)
    have hl : lineBytes l ≠ [Message.lineFeed] := by
      intro heq
      have hempty : Utf8.encode l = Utf8.encode [] :=
        List.append_left_injective [Message.lineFeed] heq
      have hnil := congrArg Utf8.decodeLossy hempty
      rw [Utf8.decodeLossy_encode, Utf8.decodeLossy_encode] at hnil
      exact hne hnil
    rw [List.map_cons, List.cons_append, readBatch, if_neg hl,
      ih fun hmem => h (List.mem_cons_of_mem l hmem)]
    rfl

theorem lineFeed_not_mem_nameLines (tests : List String) :
    ∀ l ∈ nameLines tests ++ [[]], '\n' ∉ l := by
  intro l hl
  rcases List.mem_append.mp hl with hname | hlast
  · obtain ⟨t, -, ht⟩ := List.mem_flatMap.mp hname
    exact not_mem_of_mem_splitOn ht
  · rw [List.mem_singleton.mp hlast]
    exact List.not_mem_nil

/-- What is received of any batch: the lines of its names up to the first blank one. All behind that
is left unread. -/
theorem receivedBatch_batchBytes {tests : List String} {front back : List (List Char)}
    (h : nameLines tests ++ [[]] = front ++ [] :: back) (hfront : [] ∉ front)
    (more : List UInt8) : receivedBatch (batchBytes tests ++ more) =
      some (front.map String.ofList, back.flatMap lineBytes ++ more) := by
  have hsplit := splitAfter_flatMap_lineBytes _ (lineFeed_not_mem_nameLines tests) more
  have hread := readBatch_map_lineBytes front hfront
    (back.map lineBytes ++ splitAfter Message.lineFeed more)
  have hdecode : (fun line => String.ofList (Utf8.decodeLossy line.dropLast)) ∘ lineBytes =
      String.ofList := by
    funext l
    rw [Function.comp_apply, lineBytes, List.dropLast_concat, Utf8.decodeLossy_encode]
  rw [← batchBytes_eq_flatMap, h, List.map_append, List.map_cons, List.append_assoc,
    List.cons_append] at hsplit
  rw [receivedBatch, hsplit, hread, Option.map_some, List.map_map, hdecode, List.flatten_append,
    flatten_splitAfter, ← List.flatMap_def]

/-- A worker receives just the names of a batch, and nothing of it is left unread, exactly if no
name is empty and none has a line feed. -/
theorem batch_received_iff (tests : List String) (more : List UInt8) :
    receivedBatch (batchBytes tests ++ more) = some (tests, more) ↔
      ∀ t ∈ tests, t ≠ "" ∧ '\n' ∉ t.toList := by
  constructor
  · intro hreceived t ht
    have hblank : [] ∈ nameLines tests ++ [[]] := by simp
    obtain ⟨front, back, hlines, hfront⟩ := List.eq_append_cons_of_mem hblank
    rw [receivedBatch_batchBytes hlines hfront, Option.some.injEq, Prod.mk.injEq] at hreceived
    -- Each name is one of the lines that were read, and these are not blank.
    rw [← hreceived.1] at ht
    obtain ⟨l, hl, rfl⟩ := List.mem_map.mp ht
    have hmem : l ∈ nameLines tests ++ [[]] := by
      rw [hlines]
      exact List.mem_append_left _ hl
    have hne : l ≠ [] := fun hnil => hfront (hnil ▸ hl)
    rw [String.toList_ofList]
    exact ⟨by simpa using hne, lineFeed_not_mem_nameLines tests l hmem⟩
  · intro h
    have hnames : nameLines tests = tests.map String.toList := by
      rw [nameLines, List.map_eq_flatMap]
      apply List.flatMap_congr
      intro t ht
      exact splitOn_of_not_mem (h t ht).2
    have hfront : [] ∉ tests.map String.toList := by
      intro hmem
      obtain ⟨t, ht, hnil⟩ := List.mem_map.mp hmem
      exact (h t ht).1 (by simpa using hnil)
    have hlines : nameLines tests ++ [[]] = tests.map String.toList ++ [] :: [] := by rw [hnames]
    rw [receivedBatch_batchBytes hlines hfront more, List.map_map]
    have hid : String.ofList ∘ String.toList = id := funext fun t => String.ofList_toList
    rw [hid, List.map_id]
    rfl

namespace Framing

def test : List UInt8 :=
  [0xCA, 0xFE, 0xBA, 0xBE, 0, 0, 0, 52, 0, 5, 1, 0, 4, 65, 10, 10, 66, 7, 0, 1, 1, 0, 24] ++
    "junit/framework/TestCase".toUTF8.toList ++ [7, 0, 3, 0, 0x21, 0, 2, 0, 4]

def tree : FileTree := ⟨.directory [("c", .directory [("A.class", .file test default)])], []⟩

def selection : Selection := { classDirs := [⟨"c"⟩] }

end Framing

/-- A test that is read from a class file and selected, whose name has a blank line in it: the
worker receives another name, and the rest of the batch is left unread. -/
theorem cut_name_is_received :
    (Framing.selection.testsFor Framing.tree (ClassFile.source Framing.tree [⟨"c"⟩])
        [⟨"c/A.class"⟩]).2.toOption.map (·.toList) = some ["A\n\nB"] ∧
      receivedBatch (batchBytes ["A\n\nB"]) = some (["A"], Utf8.encodeString "B\n\n") ∧
      receivedBatch (batchBytes ["A\n\nB"]) ≠ some (["A\n\nB"], []) := by
  refine ⟨?_, ?_, ?_⟩
  · decide +kernel
  · decide +kernel
  · decide +kernel

end Retest
