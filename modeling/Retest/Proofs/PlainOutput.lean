import Mathlib.Data.List.TakeWhile
import Mathlib.Logic.Relation
import Retest.Run.Process
import Retest.Proofs.Lines

/-! What a worker prints besides its messages. Only the messages up to the first one that completes
the batch count, and which messages there are depends on each line by itself and not on how it
ends. -/

namespace Retest

namespace Utf8

/-- A further byte of a character is never an ASCII one. -/
theorem low_of_first {b : Nat} {p : Partial} (h : first b = .more p) : 0x80 ≤ p.low := by
  unfold first at h
  split_ifs at h <;> cases h <;> simp

/-- An ASCII byte ends what stands before it, whole or broken, and is read as itself. -/
theorem pieces_append_ascii {b : Nat} (hb : b < 0x80) (l rest : List Nat) (o : Option Partial)
    (ho : ∀ p ∈ o, 0x80 ≤ p.low) :
    pieces o (l ++ b :: rest) = pieces o l ++ .char (Char.ofNat b) :: pieces none rest := by
  have hfirst : first b = .char b := by rw [first, if_pos hb]
  induction l generalizing o with
  | nil =>
    cases o with
    | none => simp only [List.nil_append, pieces, hfirst]
    | some p =>
      have hlow : 0x80 ≤ p.low := ho p rfl
      have hrefused : p.accepts b = false := by
        simp only [Partial.accepts, Bool.and_eq_false_iff, decide_eq_false_iff_not]
        omega
      simp [pieces, hrefused, hfirst]
  | cons a l ih =>
    have hnone := ih none (by simp)
    have hmore (p : Partial) (hp : first a = .more p) := ih (some p) (by
      rintro q ⟨⟩
      exact low_of_first hp)
    cases o with
    | none =>
      rw [List.cons_append, pieces, pieces]
      cases hfa : first a with
      | char code => simp only [hnone, List.cons_append]
      | more p => simp only [hmore p hfa]
      | refused => simp only [hnone, List.cons_append]
    | some p =>
      have hpush := ih (some (p.push a)) (by
        rintro q ⟨⟩
        exact Nat.le_refl 0x80)
      rw [List.cons_append, pieces, pieces]
      cases hfa : first a with
      | char code => simp only [hnone, hpush]; split_ifs <;> rfl
      | more q => simp only [hnone, hpush, hmore q hfa]; split_ifs <;> rfl
      | refused => simp only [hnone, hpush]; split_ifs <;> rfl

theorem decodeLossy_append_ascii {b : UInt8} (hb : b.toNat < 0x80) (l rest : List UInt8) :
    decodeLossy (l ++ b :: rest) =
      decodeLossy l ++ Char.ofNat b.toNat :: decodeLossy rest := by
  rw [decodeLossy, List.map_append, List.map_cons, pieces_append_ascii hb _ _ none (by simp),
    List.map_append, List.map_cons]
  rfl

end Utf8

/-- What is trimmed at the end of a text may be left out of it. -/
theorem trimWith_append {p : Char → Bool} {tail : List Char} (h : ∀ c ∈ tail, p c = true)
    (s : List Char) : trimWith p (s ++ tail) = trimWith p s := by
  have hnil : tail.dropWhile p = [] := List.dropWhile_eq_nil_iff.mpr h
  have hback : (tail.reverse).dropWhile p = [] :=
    List.dropWhile_eq_nil_iff.mpr fun c hc => h c (List.mem_reverse.mp hc)
  rw [trimWith, trimWith, List.dropWhile_append]
  by_cases hs : (s.dropWhile p).isEmpty = true
  · rw [if_pos hs, hnil, List.isEmpty_iff.mp hs]
  · rw [if_neg hs, List.reverse_append, List.dropWhile_append, hback]
    rfl

section Split

variable {α : Type} [DecidableEq α] {mark : α}

def EndsWith (mark : α) (s : List α) : Prop := s = [] ∨ s.getLast? = some mark

/-- A list is cut behind a mark as if nothing followed there. -/
theorem splitAfter_append_of_endsWith {s : List α} (h : EndsWith mark s) (rest : List α) :
    splitAfter mark (s ++ rest) = splitAfter mark s ++ splitAfter mark rest := by
  induction s with
  | nil => rfl
  | cons a s ih =>
    by_cases hs : s = []
    · rcases h with hnil | hlast
      · cases hnil
      · rw [hs, List.getLast?_singleton, Option.some.injEq] at hlast
        rw [hs, hlast]
        simp [splitAfter]
    · have hends : EndsWith mark s := by
        rcases h with hnil | hlast
        · cases hnil
        · rw [List.getLast?_cons, Option.some.injEq] at hlast
          refine Or.inr ?_
          cases hl : s.getLast? with
          | none => exact absurd (List.getLast?_eq_none_iff.mp hl) hs
          | some b => simpa [hl] using hlast
      rw [List.cons_append, splitAfter, splitAfter, ih hends]
      by_cases ha : a = mark
      · rw [if_pos ha, if_pos ha, List.cons_append]
      · rw [if_neg ha, if_neg ha]
        cases hsplit : splitAfter mark s with
        | nil =>
          obtain ⟨b, s', rfl⟩ := List.exists_cons_of_ne_nil hs
          rw [splitAfter] at hsplit
          split at hsplit
          · cases hsplit
          · split at hsplit <;> cases hsplit
        | cons piece more => rfl

end Split

namespace Message

def carriageReturn : UInt8 := 13

/-- How a line ends makes no difference to its message. -/
theorem ofBytes_carriageReturn (body : List UInt8) :
    ofBytes? (body ++ [carriageReturn, lineFeed]) = ofBytes? (body ++ [lineFeed]) := by
  have hblank (tail : List Char) (h : tail.all isBlank = true) (s : List Char) :
      trimBlank (s ++ tail) = trimBlank s := trimWith_append (List.all_eq_true.mp h) s
  have hlong := Utf8.decodeLossy_append_ascii (show carriageReturn.toNat < 0x80 by decide) body
    [lineFeed]
  have hshort := Utf8.decodeLossy_append_ascii (show lineFeed.toNat < 0x80 by decide) body []
  rw [ofBytes?, ofBytes?, ofText?, ofText?, hlong, hshort, hblank _ (by decide),
    hblank _ (by decide)]

def tellings (messages : List Message) : List WorkerNews :=
  (messages.takeWhile (· ≠ .batchComplete)).filterMap fun
    | .tells news => some news
    | .batchComplete => none

def onLines (lines : List (List UInt8)) : List Message := lines.filterMap ofBytes?

/-- Of the lines that are read, only the messages on them count. -/
theorem news_readReport (lines : List (List UInt8)) :
    (readReport lines).news = tellings (onLines lines) := by
  induction lines with
  | nil => rfl
  | cons line rest ih =>
    rw [readReport, onLines, List.filterMap_cons]
    cases hm : ofBytes? line with
    | none => exact ih
    | some m =>
      cases m with
      | batchComplete => rfl
      | tells news => exact congrArg (news :: ·) ih

theorem complete_readReport (lines : List (List UInt8)) :
    (readReport lines).complete = decide (batchComplete ∈ onLines lines) := by
  induction lines with
  | nil => rfl
  | cons line rest ih =>
    rw [readReport, onLines, List.filterMap_cons]
    cases hm : ofBytes? line with
    | none => exact ih
    | some m =>
      cases m with
      | batchComplete => simp
      | tells news => simpa [onLines] using ih

/-- Messages behind the one that completes the batch tell nothing. -/
theorem tellings_append (front back : List Message) :
    tellings (front ++ batchComplete :: back) = tellings front := by
  rw [tellings, tellings]
  congr 1
  induction front with
  | nil => rfl
  | cons m front ih =>
    rw [List.cons_append, List.takeWhile_cons, List.takeWhile_cons, ih]

def Alike (messages messages' : List Message) : Prop :=
  tellings messages = tellings messages' ∧
    (batchComplete ∈ messages ↔ batchComplete ∈ messages')

inductive Disturbs : List UInt8 → List UInt8 → Prop
  | plainLine (front body back : List UInt8) (hfront : EndsWith lineFeed front)
    (hbody : lineFeed ∉ body) (hplain : ofBytes? (body ++ [lineFeed]) = none) :
    Disturbs (front ++ back) (front ++ (body ++ [lineFeed]) ++ back)
  | plainRest (front body : List UInt8) (hfront : EndsWith lineFeed front)
    (hbody : lineFeed ∉ body) (hplain : ofBytes? body = none) : Disturbs front (front ++ body)
  | lineEnd (front body back : List UInt8) (hfront : EndsWith lineFeed front)
    (hbody : lineFeed ∉ body) :
    Disturbs (front ++ (body ++ [lineFeed]) ++ back)
      (front ++ (body ++ [carriageReturn, lineFeed]) ++ back)
  | behindEnd (front body back back' : List UInt8) (hfront : EndsWith lineFeed front)
    (hbody : lineFeed ∉ body) (hends : ofBytes? (body ++ [lineFeed]) = some .batchComplete) :
    Disturbs (front ++ (body ++ [lineFeed]) ++ back) (front ++ (body ++ [lineFeed]) ++ back')

theorem Alike.refl (messages : List Message) : Alike messages messages := ⟨rfl, Iff.rfl⟩

section Lines

variable {ended : Bool} {front body : List UInt8}

theorem linesOf_append (hfront : EndsWith lineFeed front) (rest : List UInt8) :
    linesOf ended (front ++ rest) = linesOf ended front ++ linesOf ended rest := by
  rw [linesOf, splitAfter_append_of_endsWith hfront, List.filter_append]
  rfl

/-- The first line of a stream, which is complete. -/
theorem linesOf_line (hbody : lineFeed ∉ body) (back : List UInt8) :
    linesOf ended (body ++ [lineFeed] ++ back) = (body ++ [lineFeed]) :: linesOf ended back := by
  rw [List.append_assoc, linesOf, List.singleton_append, splitAfter_append hbody,
    List.filter_cons_of_pos (by simp)]
  rfl

/-- A stream without a line feed has one line at most. -/
theorem linesOf_of_not_mem (ended : Bool) (hbody : lineFeed ∉ body) :
    linesOf ended body = [] ∨ linesOf ended body = [body] := by
  by_cases hnil : body = []
  · exact Or.inl (by rw [hnil]; rfl)
  · rw [linesOf, splitAfter_of_not_mem hbody hnil, List.filter_singleton]
    cases ended || decide (body.getLast? = some lineFeed) with
    | false => exact Or.inl rfl
    | true => exact Or.inr rfl

theorem onLines_append (lines lines' : List (List UInt8)) :
    onLines (lines ++ lines') = onLines lines ++ onLines lines' := List.filterMap_append

/-- The messages on a stream around one of its lines. -/
theorem onLines_around (hfront : EndsWith lineFeed front) (hbody : lineFeed ∉ body)
    (back : List UInt8) : onLines (linesOf ended (front ++ (body ++ [lineFeed]) ++ back)) =
      onLines (linesOf ended front) ++
        ((ofBytes? (body ++ [lineFeed])).toList ++ onLines (linesOf ended back)) := by
  rw [List.append_assoc, linesOf_append hfront, linesOf_line hbody, onLines_append]
  congr 1
  rw [onLines, List.filterMap_cons]
  cases ofBytes? (body ++ [lineFeed]) <;> rfl

/-- A disturbance leaves the messages as they are up to the end of the batch. -/
theorem alike_of_disturbs {s s' : List UInt8} (h : Disturbs s s') :
    Alike (onLines (linesOf ended s)) (onLines (linesOf ended s')) := by
  cases h with
  | plainLine front body back hfront hbody hplain =>
    rw [onLines_around hfront hbody, hplain, linesOf_append hfront, onLines_append]
    exact .refl _
  | plainRest front body hfront hbody hplain =>
    have hnone : onLines (linesOf ended body) = [] := by
      rcases linesOf_of_not_mem ended hbody with h | h
      · rw [h]
        rfl
      · rw [h, onLines, List.filterMap_cons_none hplain]
        rfl
    rw [linesOf_append hfront, onLines_append, hnone, List.append_nil]
    exact .refl _
  | lineEnd front body back hfront hbody =>
    have hreturn : lineFeed ∉ body ++ [carriageReturn] := by
      rw [List.mem_append, not_or]
      exact ⟨hbody, by decide⟩
    have hline : body ++ [carriageReturn, lineFeed] = body ++ [carriageReturn] ++ [lineFeed] := by
      rw [List.append_assoc]
      rfl
    rw [hline, onLines_around hfront hbody, onLines_around hfront hreturn, ← hline,
      ofBytes_carriageReturn]
    exact .refl _
  | behindEnd front body back back' hfront hbody hends =>
    rw [onLines_around hfront hbody, onLines_around hfront hbody, hends]
    refine ⟨?_, ?_⟩
    · exact (tellings_append _ _).trans (tellings_append _ _).symm
    · simp

/-- However often a stream is disturbed, and whichever way round. -/
theorem alike_of_eqvGen (ended : Bool) {s s' : List UInt8} (h : Relation.EqvGen Disturbs s s') :
    Alike (onLines (linesOf ended s)) (onLines (linesOf ended s')) := by
  induction h with
  | rel s s' h => exact alike_of_disturbs h
  | refl s => exact .refl _
  | symm s s' _ ih => exact ⟨ih.1.symm, ih.2.symm⟩
  | trans s s' s'' _ _ ih ih' => exact ⟨ih.1.trans ih'.1, ih.2.trans ih'.2⟩

end Lines

end Message

namespace Connection

def heard (c : Connection) (tests : List String) : Conduct :=
  c.program (c.sent ++ batchBytes tests) c.ended

def stream (c : Connection) (tests : List String) : List UInt8 :=
  (c.heard tests).output.drop c.read

variable {c : Connection} {tests : List String}

/-- What a batch comes to, by the messages on the stream. -/
theorem runTests_snd (hopen : c.ended = false) : (c.runTests tests).2 =
    (Message.tellings (Message.onLines
        (Message.linesOf (c.heard tests).outputEnded (c.stream tests))),
      if Message.batchComplete ∈ Message.onLines
          (Message.linesOf (c.heard tests).outputEnded (c.stream tests)) then some (.ok ())
      else if (c.heard tests).outputEnded then
        some (.error (.crashed (c.heard tests).status.text))
      else none) := by
  rw [runTests, if_neg (by simp [hopen]), ← Message.news_readReport]
  simp only [Message.complete_readReport, decide_eq_true_eq]
  rfl

/-- Two workers whose streams differ in plain lines, in how lines end or behind the end of the batch
only, tell the same of a batch, in the same order, and the batch comes to the same. It ends well
exactly if some line of the stream says that it is complete. -/
theorem output_cannot_disturb (c d : Connection) (tests : List String) (hended : c.ended = d.ended)
    (hover : (c.heard tests).outputEnded = (d.heard tests).outputEnded)
    (hstatus : (c.heard tests).status = (d.heard tests).status)
    (hstream : Relation.EqvGen Message.Disturbs (c.stream tests) (d.stream tests)) :
    (c.runTests tests).2 = (d.runTests tests).2 ∧
      (c.ended = false → ((c.runTests tests).2.2 = some (.ok ()) ↔
        ∃ line ∈ Message.linesOf (c.heard tests).outputEnded (c.stream tests),
          Message.ofBytes? line = some .batchComplete)) := by
  constructor
  · by_cases hopen : c.ended = true
    · rw [runTests, runTests, if_pos hopen, if_pos (hended ▸ hopen)]
    · have hc : c.ended = false := Bool.eq_false_iff.mpr hopen
      have hd : d.ended = false := hended ▸ hc
      obtain ⟨htells, hcompletes⟩ := Message.alike_of_eqvGen (d.heard tests).outputEnded hstream
      rw [runTests_snd hc, runTests_snd hd, hover, hstatus, htells, if_congr hcompletes rfl rfl]
  · intro hc
    rw [runTests_snd hc, Message.onLines, ← List.mem_filterMap]
    constructor
    · intro hok
      by_contra hnone
      rw [if_neg hnone] at hok
      split at hok <;> cases hok
    · exact fun hmem => if_pos hmem

end Connection

namespace Chatter

def started : List UInt8 := Utf8.encodeString "\x7b\"event\":\"started\",\"test\":\"A\"\x7d"

def noise : List UInt8 := Utf8.encodeString "\x7b\"event\":" ++ [0xE9]

def complete : List UInt8 := Utf8.encodeString "\x7b\"event\":\"batch_complete\"\x7d"

def terse : Connection where
  worker := ⟨1⟩
  program := .reciting (started ++ [10] ++ (complete ++ [10])) .stays

/-- A worker that ends a line in another way, prints something else between its messages, and goes
on after the last of them. -/
def chatty : Connection where
  worker := ⟨1⟩
  program :=
    .reciting (started ++ [13, 10] ++ (noise ++ [10]) ++ (complete ++ [10]) ++ noise) .stays

theorem disturbed :
    Relation.EqvGen Message.Disturbs (terse.stream ["A"]) (chatty.stream ["A"]) := by
  have hstarted : Message.lineFeed ∉ started := by decide
  have hnoise : Message.lineFeed ∉ noise := by decide
  have hcomplete : Message.lineFeed ∉ complete := by decide
  have hline := Message.Disturbs.lineEnd [] started (complete ++ [10]) (Or.inl rfl) hstarted
  have hplain := Message.Disturbs.plainLine (started ++ [13, 10]) noise (complete ++ [10])
    (Or.inr (by decide +kernel)) hnoise (by decide +kernel)
  have hbehind := Message.Disturbs.behindEnd (started ++ [13, 10] ++ (noise ++ [10])) complete []
    noise (Or.inr (by decide)) hcomplete (by decide +kernel)
  have hterse : terse.stream ["A"] = [] ++ (started ++ [10]) ++ (complete ++ [10]) := by
    decide
  have hchatty : chatty.stream ["A"] =
      started ++ [13, 10] ++ (noise ++ [10]) ++ (complete ++ [10]) ++ noise := by
    decide
  rw [hterse, hchatty]
  refine .trans _ _ _ (.rel _ _ hline) (.trans _ _ _ (.rel _ _ hplain) ?_)
  rw [List.append_nil] at hbehind
  exact .rel _ _ hbehind

end Chatter

/-- The same is heard of two workers, one of which prints more than its messages. -/
theorem Connection.chatty_tells_the_same :
    Relation.EqvGen Message.Disturbs (Chatter.terse.stream ["A"]) (Chatter.chatty.stream ["A"]) ∧
      (Chatter.terse.runTests ["A"]).2 = (Chatter.chatty.runTests ["A"]).2 ∧
      (Chatter.chatty.runTests ["A"]).2.1 = [.started "A"] := by
  have hsame := output_cannot_disturb Chatter.terse Chatter.chatty ["A"] rfl (by decide)
    (by decide) Chatter.disturbed
  exact ⟨Chatter.disturbed, hsame.1, by decide +kernel⟩

end Retest
