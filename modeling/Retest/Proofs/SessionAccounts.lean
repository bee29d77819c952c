import Mathlib.Data.List.Induction
import Retest.Proofs.EngineLedger

/-! The accounts of sessions while many callers report results at once. A call publishes its result,
then counts it, and publishes the end of the session if it was the last one; between these steps any
other call may take its own. -/

namespace Retest
open Std

structure EventBus where
  desk : Desk
  calls : List (List Errand) := []

/-- What can happen: a session is opened, a call reports a result, a call does its next
errand, or another event is published. -/
inductive BusMove where
  | opens (count : Nat) (now : Moment)
  | reports (result : TestResult)
  | goesOn (call : Nat) (now : Moment)
  | starts (session : SessionId) (test : String)
  | notices (session : Option SessionId) (message : String)
  deriving DecidableEq

namespace BusMove

def result? : BusMove → Option TestResult
  | .reports r => some r
  | _ => none

def reported (moves : List BusMove) : List TestResult := moves.filterMap result?

def given (s : SessionId) (moves : List BusMove) : List TestResult :=
  (reported moves).filter fun r => r.session = s

theorem reported_concat (moves : List BusMove) (m : BusMove) :
    reported (moves ++ [m]) = reported moves ++ m.result?.toList := by
  cases hm : m.result? <;> simp [reported, hm]

theorem given_append (s : SessionId) (l m : List BusMove) :
    given s (l ++ m) = given s l ++ given s m := by
  simp [given, reported]

/-- A session that is opened without any results gets all of them later. -/
theorem count_given {s : SessionId} {before : List BusMove} (hnone : given s before = [])
    (n : Nat) (now : Moment) (rest : List BusMove) {r : TestResult} (hr : r.session = s) :
    (given s rest).count r = (reported (before ++ .opens n now :: rest)).count r := by
  have hall : given s (before ++ .opens n now :: rest) = given s rest := by
    rw [given_append, hnone]
    rfl
  rw [← hall]
  exact List.count_filter (decide_eq_true hr)

end BusMove
open BusMove

namespace Summary

def tally (m : Summary) : Outcome → Nat
  | .pass => m.passed
  | .fail => m.failed
  | .error => m.errors
  | .crashed => m.crashed
  | .notRun => m.notRun

theorem tally_record (m : Summary) (o k : Outcome) :
    (m.record o).tally k = m.tally k + if o = k then 1 else 0 := by
  cases o <;> cases k <;> rfl

theorem total_record (m : Summary) (o : Outcome) : (m.record o).total = m.total + 1 := by
  cases o <;> simp only [record, total] <;> omega

end Summary

/-- Adding up over all outcomes counts every result once. -/
theorem length_eq_sum_outcomes (l : List TestResult) :
    l.countP (fun r => r.outcome = .pass) + l.countP (fun r => r.outcome = .fail) +
      l.countP (fun r => r.outcome = .error) + l.countP (fun r => r.outcome = .crashed) +
      l.countP (fun r => r.outcome = .notRun) = l.length := by
  induction l with
  | nil => rfl
  | cons r l ih =>
    simp only [List.countP_cons, List.length_cons, decide_eq_true_eq]
    cases r.outcome <;> simp <;> omega

def Errand.is (y x : Errand) : Nat := if x = y then 1 else 0

namespace Desk.Delivers

variable {k k' : Desk} {now : Moment} {x : Errand} {more : List Errand}

theorem published (h : k.Delivers now x k' more) :
    (∃ e, x = .publish e ∧ k'.feed = k.feed.publish e) ∨
      (∀ e, x ≠ .publish e) ∧ k'.feed.published = k.feed.published := by
  cases h with
  | shows e => exact Or.inl ⟨e, rfl, rfl⟩
  | _ => exact Or.inr ⟨fun _ he => Errand.noConfusion he, rfl⟩

/-- The result of a test is published by the errand that says so. -/
theorem told (h : k.Delivers now x k' more) (r : TestResult) :
    k'.feed.published.toList.count (.finished r) =
      k.feed.published.toList.count (.finished r) + Errand.is (.publish (.finished r)) x := by
  rcases h.published with ⟨e, rfl, hk⟩ | ⟨hx, hk⟩
  · rw [hk, Feed.publish, Array.toList_push, List.count_append, List.count_singleton, Errand.is]
    simp only [beq_iff_eq, Errand.publish.injEq]
  · rw [hk, Errand.is, if_neg (hx _), Nat.add_zero]

/-- A result of one session leaves all others as they are. -/
theorem find_of_ne (h : k.Delivers now x k' more) (s : Nat) (hx : ∀ o, x ≠ .count s o) :
    k'.feed.sessions.find? s = k.feed.sessions.find? s := by
  cases h with
  | ends t o u ht hr =>
    have hst : s ≠ t := fun hst => hx o (by rw [hst])
    exact (Feed.find_erase_session _ t s).trans (if_neg hst)
  | counts t o u ht hr =>
    have hst : s ≠ t := fun hst => hx o (by rw [hst])
    exact (Feed.find_insert_session _ t s _).trans (if_neg hst)
  | _ => rfl

end Desk.Delivers

inductive Underway : List Errand → Prop
  | whole (r : TestResult) : Underway r.announce
  | counting (s : SessionId) (o : Outcome) : Underway [.count s o]
  | ending (s : SessionId) (m : Summary) : Underway [.publish (.complete s m)]
  | over : Underway []

theorem Underway.delivers {k k' : Desk} {now : Moment} {x : Errand} {rest more : List Errand}
    (h : Underway (x :: rest)) (hd : k.Delivers now x k' more) : Underway (more ++ rest) := by
  cases h with
  | whole r =>
    cases hd
    exact .counting r.session r.outcome
  | counting s o =>
    cases hd with
    | passes => exact .over
    | ends => exact .ending s _
    | counts => exact .over
  | ending s m =>
    cases hd
    exact .over

namespace EventBus

def act (b : EventBus) : BusMove → EventBus
  | .opens count now =>
    { b with desk := { b.desk with feed := (b.desk.feed.openSession count now).1 } }
  | .reports r => { b with calls := b.calls ++ [r.announce] }
  | .goesOn k now =>
    match b.calls[k]? with
    | none | some [] => b
    | some (x :: rest) =>
      ⟨(b.desk.deliver now x).1, b.calls.set k ((b.desk.deliver now x).2 ++ rest)⟩
  | .starts session test => { b with desk.feed := b.desk.feed.started session test }
  | .notices session message => { b with desk.feed := b.desk.feed.diagnostic session message }

def after (capacity : Nat) (history : History) (moves : List BusMove) : EventBus :=
  moves.foldl act { desk := { feed := .ofCapacity capacity, history } }

def load (b : EventBus) (g : Errand → Nat) : Nat := weigh (weigh g) b.calls

inductive Moves (b : EventBus) : BusMove → EventBus → Prop
  | idle (m : BusMove) (hm : m.result? = none) : Moves b m b
  | opens (count : Nat) (now : Moment) : Moves b (.opens count now)
    { b with desk := { b.desk with feed := (b.desk.feed.openSession count now).1 } }
  | reports (r : TestResult) : Moves b (.reports r) { b with calls := b.calls ++ [r.announce] }
  | delivers (k : Nat) (now : Moment) (x : Errand) (rest : List Errand) (desk : Desk)
    (more : List Errand) (hk : b.calls[k]? = some (x :: rest))
    (hd : b.desk.Delivers now x desk more) :
    Moves b (.goesOn k now) ⟨desk, b.calls.set k (more ++ rest)⟩
  | speaks (m : BusMove) (hm : m.result? = none) (e : Event) (ht : ∀ r, e ≠ .finished r)
    (hc : ∀ s m, e ≠ .complete s m) : Moves b m { b with desk.feed := b.desk.feed.publish e }

theorem moves_act (b : EventBus) (m : BusMove) : b.Moves m (b.act m) := by
  cases m with
  | opens count now => exact .opens count now
  | reports r => exact .reports r
  | goesOn k now =>
    rw [act]
    split
    · exact .idle _ rfl
    · exact .idle _ rfl
    · next x rest hk => exact .delivers k now x rest _ _ hk (b.desk.delivers_deliver now x)
  | starts session test => exact .speaks _ rfl _ (fun _ h => by cases h) fun _ _ h => by cases h
  | notices session message => exact .speaks _ rfl _ (fun _ h => by cases h) fun _ _ h => by cases h

variable {b : EventBus}

theorem load_append (b : EventBus) (g : Errand → Nat) (c : List Errand) :
    ({ b with calls := b.calls ++ [c] } : EventBus).load g = b.load g + weigh g c := by
  simp [load]

/-- Doing an errand takes its weight off, and puts on that of what it leaves. -/
theorem load_set (g : Errand → Nat) {k : Nat} {x : Errand} {rest : List Errand}
    (hk : b.calls[k]? = some (x :: rest)) (desk : Desk) (more : List Errand) :
    (⟨desk, b.calls.set k (more ++ rest)⟩ : EventBus).load g + g x = b.load g + weigh g more := by
  have hset := weigh_set (weigh g) b.calls k (x :: rest) (more ++ rest) hk
  simp only [weigh_cons, weigh_append] at hset
  change weigh (weigh g) (b.calls.set k (more ++ rest)) + g x = weigh (weigh g) b.calls + _
  omega

def left (b : EventBus) (y : Errand) : Nat := b.load (Errand.is y)

theorem left_eq_zero {s : SessionId} (h : ∀ c ∈ b.calls, ∀ x ∈ c, x.owner? ≠ some s) (y : Errand)
    (hy : y.owner? = some s) : b.left y = 0 := by
  refine weigh_eq_zero _ _ fun c hc => weigh_eq_zero _ _ fun x hx => ?_
  have hxy : x ≠ y := fun hxy => h c hc x hx (hxy ▸ hy)
  exact if_neg hxy

theorem one_le_left {c : List Errand} {y : Errand} (hc : c ∈ b.calls) (hy : y ∈ c) :
    1 ≤ b.left y := by
  have hcall := le_weigh y.is c y hy
  have hall := le_weigh (weigh y.is) b.calls c hc
  have hone : y.is y = 1 := if_pos rfl
  change 1 ≤ weigh (weigh y.is) b.calls
  omega

/-- An errand other than the end of a session is left by no other. -/
theorem left_set {k : Nat} {now : Moment} {x : Errand} {rest more : List Errand} {desk : Desk}
    (hk : b.calls[k]? = some (x :: rest)) (hd : b.desk.Delivers now x desk more) (y : Errand)
    (hy : ∀ s m, y ≠ .publish (.complete s m)) :
    (⟨desk, b.calls.set k (more ++ rest)⟩ : EventBus).left y + y.is x = b.left y := by
  have hload := load_set y.is hk desk more
  have hnone : weigh y.is more = 0 := by
    rcases hd.leaves with rfl | ⟨s, m, rfl⟩
    · rfl
    · exact if_neg (Ne.symm (hy s m))
  rw [hnone] at hload
  exact hload

/-- What is in order at every moment, whatever the calls do. No session ends twice, and none that
was not opened; every result reported is published, or still to be published; and only what was
reported is to be counted. -/
structure Orderly (b : EventBus) (results : List TestResult) : Prop where
  once : ∀ s : Nat, b.desk.feed.completeCount s + b.load (publishes (Event.completes s)) +
    (b.desk.feed.sessions.contains s).toNat ≤
      (decide (1 ≤ s ∧ s ≤ b.desk.feed.opened)).toNat
  underway : ∀ c ∈ b.calls, Underway c
  told : ∀ r, b.desk.feed.published.toList.count (.finished r) +
    b.left (.publish (.finished r)) = results.count r
  owed : ∀ s o, b.left (.count s o) ≤ results.countP fun r => r.session = s ∧ r.outcome = o

variable {b' : EventBus} {results : List TestResult}

theorem orderly_opens (h : b.Orderly results) (count : Nat) (now : Moment) :
    ({ b with desk := { b.desk with feed := (b.desk.feed.openSession count now).1 } } :
      EventBus).Orderly results := by
  refine ⟨?_, h.underway, h.told, h.owed⟩
  intro s
  have hs := h.once s
  have hcontains := b.desk.feed.contains_openSession count now s
  change b.desk.feed.completeCount s + b.load _ +
    ((b.desk.feed.openSession count now).1.sessions.contains s).toNat ≤
      (decide (1 ≤ s ∧ s ≤ b.desk.feed.opened + 1)).toNat
  rw [hcontains]
  by_cases hnew : s = b.desk.feed.opened + 1
  · have hold : ¬(1 ≤ s ∧ s ≤ b.desk.feed.opened) := by omega
    have hnow : 1 ≤ s ∧ s ≤ b.desk.feed.opened + 1 := by omega
    rw [decide_eq_false hold] at hs
    rw [decide_eq_true hnow, decide_eq_true hnew]
    simp only [Bool.toNat_false, Bool.true_or, Bool.toNat_true] at hs ⊢
    omega
  · have hsame : (1 ≤ s ∧ s ≤ b.desk.feed.opened + 1) ↔ (1 ≤ s ∧ s ≤ b.desk.feed.opened) := by
      omega
    rw [decide_eq_false hnew, Bool.false_or, decide_eq_decide.mpr hsame]
    exact hs

theorem orderly_reports (h : b.Orderly results) (r : TestResult) :
    ({ b with calls := b.calls ++ [r.announce] } : EventBus).Orderly (results ++ [r]) := by
  refine ⟨?_, ?_, ?_, ?_⟩
  · intro s
    rw [load_append]
    exact h.once s
  · intro c hc
    rcases List.mem_append.mp hc with hc | hc
    · exact h.underway c hc
    · rw [List.mem_singleton.mp hc]
      exact .whole r
  · intro t
    have htold := h.told t
    have hone : weigh (Errand.is (.publish (.finished t))) r.announce = [r].count t := by
      by_cases hr : r = t <;> simp [TestResult.announce, Errand.is, hr]
    rw [left, load_append, hone, List.count_append, ← htold, left, Nat.add_assoc]
  · intro s o
    have howed := h.owed s o
    have hone : weigh (Errand.is (.count s o)) r.announce =
        [r].countP fun r => r.session = s ∧ r.outcome = o := by
      simp [TestResult.announce, Errand.is, List.countP_singleton]
    rw [left, load_append, hone, List.countP_append]
    exact Nat.add_le_add_right howed _

theorem orderly_speaks (h : b.Orderly results) (e : Event) (ht : ∀ r, e ≠ .finished r)
    (hc : ∀ s m, e ≠ .complete s m) :
    ({ b with desk.feed := b.desk.feed.publish e } : EventBus).Orderly results := by
  refine ⟨?_, h.underway, ?_, h.owed⟩
  · intro s
    have hnone : Event.completes s e = false := by
      cases e with
      | complete t u => exact absurd rfl (hc t u)
      | _ => rfl
    have hpub := b.desk.feed.countP_publish e (Event.completes s)
    rw [hnone] at hpub
    change (b.desk.feed.publish e).published.toList.countP _ + b.load _ +
      (b.desk.feed.sessions.contains s).toNat ≤ _
    rw [hpub]
    exact h.once s
  · intro r
    have hne : [e].count (.finished r) = 0 := by simp [ht r]
    change (b.desk.feed.publish e).published.toList.count _ + b.left _ = _
    rw [Feed.publish, Array.toList_push, List.count_append, hne]
    exact h.told r

theorem orderly_delivers (h : b.Orderly results) {k : Nat} {now : Moment} {x : Errand}
    {rest more : List Errand} {desk : Desk} (hk : b.calls[k]? = some (x :: rest))
    (hd : b.desk.Delivers now x desk more) :
    (⟨desk, b.calls.set k (more ++ rest)⟩ : EventBus).Orderly results := by
  refine ⟨?_, ?_, ?_, ?_⟩
  · intro s
    -- An end moves from the open sessions to the errands, and from there to what is published.
    have hs := h.once s
    have hload := load_set (publishes (Event.completes s)) hk desk more
    have hdone := hd.complete s
    change desk.feed.completeCount s + load _ _ + (desk.feed.sessions.contains s).toNat ≤
      (decide (1 ≤ s ∧ s ≤ desk.feed.opened)).toNat
    rw [hd.opened]
    omega
  · intro c hc
    rcases List.mem_or_eq_of_mem_set hc with hc | rfl
    · exact h.underway c hc
    · exact (h.underway _ (List.mem_of_getElem? hk)).delivers hd
  · intro r
    have htold := h.told r
    have hleft := left_set hk hd (.publish (.finished r)) fun s m he => by cases he
    have hpub := hd.told r
    change desk.feed.published.toList.count _ + left _ _ = _
    omega
  · intro s o
    have hleft := left_set hk hd (.count s o) fun t m he => by cases he
    exact Nat.le_trans (Nat.le_of_add_right_le (Nat.le_of_eq hleft)) (h.owed s o)

theorem orderly_moves (h : b.Orderly results) {m : BusMove} (hm : b.Moves m b') :
    b'.Orderly (results ++ m.result?.toList) := by
  cases hm with
  | idle _ hnone =>
    rw [hnone]
    simpa using h
  | opens count now => simpa [result?] using orderly_opens h count now
  | reports r => exact orderly_reports h r
  | delivers k now x rest desk more hk hd => simpa [result?] using orderly_delivers h hk hd
  | speaks _ hnone e ht hc =>
    rw [hnone]
    simpa using orderly_speaks h e ht hc

theorem Orderly.completeCount_le (h : b.Orderly results) (s : Nat) :
    b.desk.feed.completeCount s ≤ (decide (1 ≤ s ∧ s ≤ b.desk.feed.opened)).toNat := by
  have hs := h.once s
  omega

theorem after_concat (capacity : Nat) (history : History) (moves : List BusMove)
    (m : BusMove) : after capacity history (moves ++ [m]) =
      (after capacity history moves).act m := by
  rw [after, List.foldl_append]
  rfl

theorem orderly_after (capacity : Nat) (history : History) (moves : List BusMove) :
    (after capacity history moves).Orderly (reported moves) := by
  induction moves using List.reverseRecOn with
  | nil =>
    refine ⟨?_, ?_, fun r => rfl, fun s o => Nat.le_refl 0⟩
    · intro s
      exact Nat.zero_le _
    · intro c hc
      cases hc
  | append_singleton moves m ih =>
    rw [after_concat, reported_concat]
    exact orderly_moves ih (moves_act _ m)

/-- A result that is not yet published is not yet counted either. -/
theorem left_finished_le (h : ∀ c ∈ b.calls, Underway c) (r : TestResult) :
    b.left (.publish (.finished r)) ≤ b.left (.count r.session r.outcome) := by
  have hcall (c : List Errand) (hc : Underway c) :
      weigh (Errand.is (.publish (.finished r))) c ≤
        weigh (Errand.is (.count r.session r.outcome)) c := by
    cases hc with
    | whole t =>
      by_cases ht : t = r
      · simp [TestResult.announce, Errand.is, ht]
      · simp [TestResult.announce, Errand.is, ht]
    | _ => simp [Errand.is]
  rw [left, left, load, load]
  generalize b.calls = l at h
  induction l with
  | nil => exact Nat.le_refl 0
  | cons c l ih =>
    have hc := hcall c (h c List.mem_cons_self)
    have hl := ih fun d hd => h d (List.mem_cons_of_mem c hd)
    simp only [weigh_cons]
    omega

def Balances (b : EventBus) (s : SessionId) (l : List TestResult) (m : Summary) : Prop :=
  ∀ o, m.tally o + b.left (.count s o) = l.countP fun r => r.outcome = o

/-- The account of a session for `n` results of which `l` were given: it is open, or its end is
going to be published, or has been published after all results that were given. -/
inductive Account (s n : Nat) (l : List TestResult) (b : EventBus) : Prop
  | counting (u : OpenSession) (hu : b.desk.feed.sessions.find? s = some u) (hr : 1 ≤ u.remaining)
    (hn : u.remaining + u.summary.total = n) (hb : b.Balances s l u.summary)
  | ending (m : Summary) (hu : b.desk.feed.sessions.find? s = none)
    (hp : 1 ≤ b.left (.publish (.complete s m))) (hn : m.total = n) (hb : b.Balances s l m)
  | ended (m : Summary) (hu : b.desk.feed.sessions.find? s = none) (earlier later : List Event)
    (hp : b.desk.feed.published.toList = earlier ++ .complete s m :: later) (hn : m.total = n)
    (hb : b.Balances s l m)
    (he : ∀ r : TestResult, r.session = s → earlier.count (.finished r) = l.count r)

theorem Balances.sum {s : SessionId} {l : List TestResult} {m : Summary}
    (h : b.Balances s l m) :
    m.total + (b.left (.count s .pass) + b.left (.count s .fail) + b.left (.count s .error) +
      b.left (.count s .crashed) + b.left (.count s .notRun)) = l.length := by
  have hsum := length_eq_sum_outcomes l
  rw [← h .pass, ← h .fail, ← h .error, ← h .crashed, ← h .notRun] at hsum
  simp only [Summary.tally] at hsum
  rw [Summary.total]
  omega

/-- Once a summary counts as many results as were given, none is left to be counted. -/
theorem Balances.left_eq_zero {s : SessionId} {l : List TestResult} {m : Summary}
    (h : b.Balances s l m) (hle : l.length ≤ m.total) (o : Outcome) : b.left (.count s o) = 0 := by
  have hsum := h.sum
  cases o <;> omega

variable {s n : Nat} {l : List TestResult}

theorem Balances.of_same {m : Summary} (h : b.Balances s l m)
    (hc : ∀ o, b'.left (.count s o) = b.left (.count s o)) : b'.Balances s l m := by
  intro o
  rw [hc o]
  exact h o

/-- What has nothing to do with a session leaves its account as it is. -/
theorem Account.of_same (h : Account s n l b)
    (hf : b'.desk.feed.sessions.find? s = b.desk.feed.sessions.find? s)
    (hl : ∀ y : Errand, y.owner? = some s → b'.left y = b.left y)
    (hp : ∃ more, b'.desk.feed.published.toList = b.desk.feed.published.toList ++ more) :
    Account s n l b' := by
  have hc (o : Outcome) : b'.left (.count s o) = b.left (.count s o) := hl _ rfl
  cases h with
  | counting u hu hr hn hb => exact .counting u (hf.trans hu) hr hn (hb.of_same hc)
  | ending m hu hle hn hb =>
    refine .ending m (hf.trans hu) ?_ hn (hb.of_same hc)
    rw [hl _ rfl]
    exact hle
  | ended m hu earlier later hpub hn hb he =>
    obtain ⟨more, hmore⟩ := hp
    refine .ended m (hf.trans hu) earlier (later ++ more) ?_ hn (hb.of_same hc) he
    rw [hmore, hpub, List.append_assoc, List.cons_append]

/-- A further result of the session is still to be counted. -/
theorem Account.reports (h : Account s n l b) (r : TestResult) (hr : r.session = s)
    (hn : (l ++ [r]).length ≤ n) :
    Account s n (l ++ [r]) { b with calls := b.calls ++ [r.announce] } := by
  have hleft (y : Errand) : ({ b with calls := b.calls ++ [r.announce] } : EventBus).left y =
      b.left y + weigh y.is r.announce := load_append b y.is _
  have hbalance (m : Summary) (hb : b.Balances s l m) :
      ({ b with calls := b.calls ++ [r.announce] } : EventBus).Balances s (l ++ [r]) m := by
    intro o
    have hone : weigh (Errand.is (.count s o)) r.announce =
        [r].countP fun r => r.outcome = o := by
      by_cases ho : r.outcome = o <;> simp [TestResult.announce, Errand.is, hr, ho]
    rw [hleft, hone, List.countP_append, ← hb o]
    omega
  cases h with
  | counting u hu hrem htotal hb => exact .counting u hu hrem htotal (hbalance _ hb)
  | ending m hu hp htotal hb =>
    refine .ending m hu ?_ htotal (hbalance m hb)
    rw [hleft]
    omega
  | ended m hu earlier later hp htotal hb he =>
    -- All `n` results were given before the end was published.
    have hsum := hb.sum
    rw [List.length_append, List.length_singleton] at hn
    omega

/-- Counting a result of the session. -/
theorem Account.counts (h : Account s n l b) (hn : l.length ≤ n) {k : Nat} {now : Moment}
    {o : Outcome} {rest more : List Errand} {desk : Desk}
    (hk : b.calls[k]? = some (.count s o :: rest))
    (hd : b.desk.Delivers now (.count s o) desk more) :
    Account s n l ⟨desk, b.calls.set k (more ++ rest)⟩ := by
  have hleft (p : Outcome) := left_set hk hd (.count s p) fun t m he => by cases he
  have hmine : Errand.is (.count s o) (.count s o) = 1 := if_pos rfl
  have hbalance (m : Summary) (at? : Option Moment) (hb : b.Balances s l m) :
      Balances ⟨desk, b.calls.set k (more ++ rest)⟩ s l { m.record o with finishedAt := at? } := by
    intro p
    have hp := hb p
    have hl := hleft p
    have htally : ({ m.record o with finishedAt := at? } : Summary).tally p =
        m.tally p + if o = p then 1 else 0 := by
      rw [← Summary.tally_record]
      cases p <;> rfl
    have his : Errand.is (.count s p) (.count s o) = if o = p then 1 else 0 := by
      simp [Errand.is]
    rw [htally]
    omega
  -- Once the session is over no result is left to be counted, and this one is.
  have hopen (m : Summary) (htotal : m.total = n) (hb : b.Balances s l m) : False := by
    have hnone := hb.left_eq_zero (by omega) o
    have hl := hleft o
    omega
  cases h with
  | ending m _ _ htotal hb => exact (hopen m htotal hb).elim
  | ended m _ _ _ _ htotal hb => exact (hopen m htotal hb).elim
  | counting u hu hr htotal hb =>
    cases hd with
    | passes _ _ hnone =>
      rw [hu] at hnone
      cases hnone
    | ends _ _ v hv hlast =>
      obtain rfl : u = v := Option.some.inj (hu.symm.trans hv)
      refine .ending _ ?_ ?_ ?_ (hbalance u.summary (some now) hb)
      · exact (Feed.find_erase_session _ s s).trans (if_pos rfl)
      · obtain ⟨hlt, -⟩ := List.getElem?_eq_some_iff.mp hk
        exact one_le_left (List.mem_set hlt _) List.mem_cons_self
      · have hone := u.summary.total_record o
        change (u.summary.record o).total = n
        omega
    | counts _ _ v hv hmore =>
      obtain rfl : u = v := Option.some.inj (hu.symm.trans hv)
      have hone := u.summary.total_record o
      refine .counting ⟨u.remaining - 1, u.summary.record o⟩ ?_ ?_ ?_ (hbalance u.summary _ hb)
      · exact (Feed.find_insert_session _ s s _).trans (if_pos rfl)
      · change 1 ≤ u.remaining - 1
        omega
      · change u.remaining - 1 + (u.summary.record o).total = n
        omega

theorem Account.delivers (h : Account s n l b) (ho : b.Orderly results)
    (hl : ∀ r : TestResult, r.session = s → results.count r = l.count r) (hn : l.length ≤ n)
    {k : Nat} {now : Moment} {x : Errand} {rest more : List Errand} {desk : Desk}
    (hk : b.calls[k]? = some (x :: rest)) (hd : b.desk.Delivers now x desk more) :
    Account s n l ⟨desk, b.calls.set k (more ++ rest)⟩ := by
  by_cases hx : ∃ o, x = .count s o
  · obtain ⟨o, rfl⟩ := hx
    exact h.counts hn hk hd
  have hother (o : Outcome) : x ≠ .count s o := fun he => hx ⟨o, he⟩
  have hf := hd.find_of_ne s hother
  have hc (o : Outcome) : (⟨desk, b.calls.set k (more ++ rest)⟩ : EventBus).left (.count s o) =
      b.left (.count s o) := by
    have hleft := left_set hk hd (.count s o) fun t m he => by cases he
    rwa [Errand.is, if_neg (hother o)] at hleft
  obtain ⟨new, hnew⟩ : ∃ new, desk.feed.published.toList =
      b.desk.feed.published.toList ++ new := by
    rcases hd.published with ⟨e, -, hfeed⟩ | ⟨-, hfeed⟩
    · exact ⟨[e], by rw [hfeed, Feed.publish, Array.toList_push]⟩
    · exact ⟨[], by rw [hfeed, List.append_nil]⟩
  cases h with
  | counting u hu hr htotal hb => exact .counting u (hf.trans hu) hr htotal (hb.of_same hc)
  | ended m hu earlier later hp htotal hb he =>
    refine .ended m (hf.trans hu) earlier (later ++ new) ?_ htotal (hb.of_same hc) he
    rw [hnew, hp, List.append_assoc, List.cons_append]
  | ending m hu hp htotal hb =>
    by_cases hend : x = .publish (.complete s m)
    · -- Nothing of the session is left to be counted, so all its results are published.
      have hnone := hb.left_eq_zero (by omega)
      rcases hd.published with ⟨e, he, hfeed⟩ | ⟨hno, -⟩
      · have hcomplete : e = .complete s m := Errand.publish.inj (he.symm.trans hend)
        refine .ended m (hf.trans hu) b.desk.feed.published.toList [] ?_ htotal (hb.of_same hc) ?_
        · rw [hfeed, hcomplete, Feed.publish, Array.toList_push]
        · intro r hr
          have hpub := left_finished_le ho.underway r
          rw [hr, hnone r.outcome] at hpub
          have htold := ho.told r
          rw [hl r hr] at htold
          omega
      · exact (hno _ hend).elim
    · have hload := load_set (Errand.is (.publish (.complete s m))) hk desk more
      rw [Errand.is, if_neg hend] at hload
      refine .ending m (hf.trans hu) ?_ htotal (hb.of_same hc)
      exact Nat.le_trans hp (Nat.le_trans (Nat.le_add_right _ _) (Nat.le_of_eq hload.symm))

theorem Account.moves (h : Account s n l b) (ho : b.Orderly results) (hs : s ≤ b.desk.feed.opened)
    (hl : ∀ r : TestResult, r.session = s → results.count r = l.count r) {m : BusMove}
    (hm : b.Moves m b') (hn : (l ++ given s [m]).length ≤ n) :
    Account s n (l ++ given s [m]) b' := by
  have hle : l.length ≤ n := by
    rw [List.length_append] at hn
    omega
  have hsilent (hnone : m.result? = none) : l ++ given s [m] = l := by
    simp [given, reported, hnone]
  cases hm with
  | idle _ hnone =>
    rw [hsilent hnone]
    exact h
  | opens count now =>
    have hother : s ≠ b.desk.feed.opened + 1 := by omega
    rw [hsilent rfl]
    exact h.of_same ((Feed.find_insert_session _ _ s _).trans (if_neg hother)) (fun y _ => rfl)
      ⟨[], (List.append_nil _).symm⟩
  | reports r =>
    by_cases hr : r.session = s
    · have hgiven : given s [.reports r] = [r] := by simp [given, reported, result?, hr]
      rw [hgiven] at hn ⊢
      exact h.reports r hr hn
    · have hgiven : given s [.reports r] = [] := by simp [given, reported, result?, hr]
      rw [hgiven, List.append_nil]
      refine h.of_same rfl ?_ ⟨[], (List.append_nil _).symm⟩
      intro y hy
      have hnone : weigh y.is r.announce = 0 := by
        refine weigh_eq_zero _ _ fun x hx => if_neg fun hxy => hr ?_
        rw [← hxy] at hy
        rcases List.mem_cons.mp hx with rfl | hx
        · exact Option.some.inj hy
        · rw [List.mem_singleton.mp hx] at hy
          exact Option.some.inj hy
      rw [left, load_append, hnone]
      rfl
  | speaks _ hnone e ht hc =>
    rw [hsilent hnone]
    exact h.of_same rfl (fun y _ => rfl) ⟨[e], Array.toList_push⟩
  | delivers k now x rest desk more hk hd =>
    rw [hsilent rfl]
    exact h.delivers ho hl hle hk hd

theorem Moves.opened_le {m : BusMove} (hm : b.Moves m b') :
    b.desk.feed.opened ≤ b'.desk.feed.opened := by
  cases hm with
  | opens => exact Nat.le_succ _
  | delivers k now x rest desk more hk hd => exact Nat.le_of_eq hd.opened.symm
  | _ => exact Nat.le_refl _

theorem opened_le_foldl (b : EventBus) (moves : List BusMove) :
    b.desk.feed.opened ≤ (moves.foldl act b).desk.feed.opened := by
  induction moves generalizing b with
  | nil => exact Nat.le_refl _
  | cons m moves ih => exact Nat.le_trans (moves_act b m).opened_le (ih (b.act m))

theorem after_append (capacity : Nat) (history : History) (before moves : List BusMove) :
    after capacity history (before ++ moves) = moves.foldl act (after capacity history before) :=
  List.foldl_append

/-- The account of a session that is just opened. -/
theorem Account.opens (ho : b.Orderly results) (hone : 1 ≤ n) (now : Moment)
    (hs : s = b.desk.feed.opened + 1) (hnone : results.filter (fun r => r.session = s) = []) :
    Account s n [] (b.act (.opens n now)) := by
  refine .counting ⟨n, { startedAt := now }⟩ ?_ hone rfl ?_
  · rw [hs]
    exact (Feed.find_insert_session _ _ _ _).trans (if_pos rfl)
  · intro o
    have howed := ho.owed s o
    have hzero : results.countP (fun r => r.session = s ∧ r.outcome = o) = 0 := by
      rw [List.countP_eq_zero]
      intro r hr hmine
      have hsession : r.session = s := (of_decide_eq_true hmine).1
      have hin : r ∈ results.filter fun r => r.session = s := by simp [hr, hsession]
      rw [hnone] at hin
      cases hin
    change Summary.tally { startedAt := now } o + b.left _ = 0
    have htally : Summary.tally { startedAt := now } o = 0 := by cases o <;> rfl
    omega

theorem account_after (capacity : Nat) (history : History) (before : List BusMove) (n : Nat)
    (now : Moment) (rest : List BusMove) (hone : 1 ≤ n) (s : Nat)
    (hs : s = (after capacity history before).desk.feed.opened + 1) (hnone : given s before = [])
    (hn : (given s rest).length ≤ n) :
    Account s n (given s rest) (after capacity history (before ++ .opens n now :: rest)) := by
  induction rest using List.reverseRecOn with
  | nil =>
    rw [after_concat]
    exact .opens (orderly_after capacity history before) hone now hs hnone
  | append_singleton rest m ih =>
    rw [given_append] at hn ⊢
    have hle : (given s rest).length ≤ n := by
      rw [List.length_append] at hn
      omega
    have hopened :
        s ≤ (after capacity history (before ++ .opens n now :: rest)).desk.feed.opened := by
      rw [after_append, List.foldl_cons, hs]
      exact opened_le_foldl ((after capacity history before).act (.opens n now)) rest
    have hall (r : TestResult) (hr : r.session = s) :=
      (count_given hnone n now rest hr).symm
    have hsplit : before ++ .opens n now :: (rest ++ [m]) =
        (before ++ .opens n now :: rest) ++ [m] := by simp
    rw [hsplit, after_concat]
    exact (ih hle).moves (orderly_after capacity history _) hopened hall (moves_act _ m) hn

/-- However the calls take turns, a session that is opened for `n` results, and is given `n`, ends
once: all its results are published before, its summary counts them by outcome, and it is not open
any more. No session ends twice, or without being opened. What a call does for one session touches
no other; if the session is not open, counting its result changes nothing and ends the call. -/
theorem sessions_end_once (capacity : Nat) (history : History) (moves : List BusMove) :
    let b := after capacity history moves
    (∀ before n now rest s, moves = before ++ .opens n now :: rest → 1 ≤ n →
      s = (after capacity history before).desk.feed.opened + 1 → given s before = [] →
      (given s rest).length = n → (∀ c ∈ b.calls, ∀ x ∈ c, x.owner? ≠ some s) →
      ∃ earlier m later, b.desk.feed.published.toList = earlier ++ .complete s m :: later ∧
        (∀ e ∈ earlier ++ later, Event.completes s e = false) ∧
        (∀ r : TestResult, r.session = s → earlier.count (.finished r) = (given s rest).count r ∧
          .finished r ∉ later) ∧
        (∀ o, m.tally o = (given s rest).countP fun r => r.outcome = o) ∧ m.total = n ∧
        b.desk.feed.sessions.contains s = false) ∧
    (∀ s : Nat, b.desk.feed.completeCount s ≤
      (decide (1 ≤ s ∧ s ≤ b.desk.feed.opened)).toNat) ∧
    ∀ k now x rest, b.calls[k]? = some (x :: rest) →
      (∀ t, x.owner? ≠ some t → (b.act (.goesOn k now)).desk.feed.sessions.find? t =
        b.desk.feed.sessions.find? t) ∧
      ∀ s o, x = .count s o → b.desk.feed.sessions.contains s = false →
        b.act (.goesOn k now) = { b with calls := b.calls.set k [] } := by
  intro b
  have ho := orderly_after capacity history moves
  refine ⟨?_, ?_, ?_⟩
  · intro before n now rest s hmoves hone hs hnone hn hover
    have haccount := account_after capacity history before n now rest hone s hs hnone
      (Nat.le_of_eq hn)
    have hgiven (r : TestResult) (hr : r.session = s) :
        (given s rest).count r = (reported moves).count r := by
      rw [hmoves]
      exact count_given hnone n now rest hr
    rw [← hmoves] at haccount
    change Account s n (given s rest) b at haccount
    have hleft (o : Outcome) : b.left (.count s o) = 0 := left_eq_zero hover _ rfl
    cases haccount with
    | counting u hu hr htotal hb =>
      have hsum := hb.sum
      simp only [hleft] at hsum
      omega
    | ending m hu hp htotal hb =>
      have hend : b.left (.publish (.complete s m)) = 0 := left_eq_zero hover _ rfl
      omega
    | ended m hu earlier later hp htotal hb he =>
      refine ⟨earlier, m, later, hp, ?_, ?_, ?_, htotal, ?_⟩
      · have honce : b.desk.feed.completeCount s ≤ 1 :=
          Nat.le_trans (ho.completeCount_le s) (Bool.toNat_le _)
        have hmine : Event.completes s (.complete s m) = true := decide_eq_true rfl
        rw [Feed.completeCount, hp, List.countP_append, List.countP_cons_of_pos hmine] at honce
        have hrest : (earlier ++ later).countP (Event.completes s) = 0 := by
          rw [List.countP_append]
          omega
        intro e hin
        exact Bool.eq_false_iff.mpr (List.countP_eq_zero.mp hrest e hin)
      · intro r hr
        refine ⟨he r hr, ?_⟩
        have hall : b.desk.feed.published.toList.count (.finished r) +
            b.left (.publish (.finished r)) = (given s rest).count r := by
          rw [hgiven r hr]
          exact ho.told r
        have hne : Event.complete s m ≠ .finished r := Event.noConfusion
        rw [hp, List.count_append, List.count_cons_of_ne hne, he r hr] at hall
        exact List.count_eq_zero.mp (by omega)
      · intro o
        have hbalance := hb o
        rwa [hleft o] at hbalance
      · rw [SortedMap.contains, hu]
        rfl
  · exact ho.completeCount_le
  · intro k now x rest hk
    have hact : b.act (.goesOn k now) = ⟨(b.desk.deliver now x).1,
        b.calls.set k ((b.desk.deliver now x).2 ++ rest)⟩ := by
      simp only [act, hk]
    rw [hact]
    have hd := b.desk.delivers_deliver now x
    refine ⟨?_, ?_⟩
    · intro t ht
      exact hd.find_of_ne t fun o hx => ht (by rw [hx]; rfl)
    · intro s o hx hclosed
      obtain rfl : rest = [] := by
        have hcall := ho.underway _ (List.mem_of_getElem? hk)
        rw [hx] at hcall
        cases hcall
        rfl
      have hnone : b.desk.feed.sessions.find? s = none := by
        simpa [SortedMap.contains] using hclosed
      have hpass : b.desk.deliver now x = (b.desk, []) := by
        simp [hx, Desk.deliver, Feed.countDown, hnone]
      rw [hpass]
      rfl

/-- The moves after two sessions were opened, the first one for two results: three calls take turns
in publishing and counting. -/
def sharedTrial : List BusMove :=
  [.opens 1 ⟨2⟩, .reports ⟨1, "A", .pass, none, none, ⟨3⟩⟩,
    .reports ⟨2, "B", .fail, none, none, ⟨3⟩⟩, .reports ⟨1, "C", .crashed, none, none, ⟨4⟩⟩,
    .goesOn 2 ⟨4⟩, .goesOn 1 ⟨4⟩, .goesOn 0 ⟨5⟩, .goesOn 2 ⟨5⟩, .goesOn 1 ⟨5⟩, .goesOn 0 ⟨6⟩,
    .goesOn 0 ⟨7⟩, .goesOn 1 ⟨8⟩]

theorem shared_trial_ends_once :
    ∃ earlier m later,
      (after 8 {} (.opens 2 ⟨1⟩ :: sharedTrial)).desk.feed.published.toList =
        earlier ++ .complete 1 m :: later ∧ m.tally .pass = 1 ∧ m.tally .crashed = 1 ∧
      m.total = 2 ∧ (after 8 {} (.opens 2 ⟨1⟩ :: sharedTrial)).desk.feed.completeCount 2 ≤ 1 := by
  obtain ⟨hends, honce, -⟩ := sessions_end_once 8 {} (.opens 2 ⟨1⟩ :: sharedTrial)
  obtain ⟨earlier, m, later, hp, -, -, htally, htotal, -⟩ :=
    hends [] 2 ⟨1⟩ sharedTrial 1 rfl (by decide) rfl rfl (by decide +kernel) (by decide +kernel)
  refine ⟨earlier, m, later, hp, (htally .pass).trans ?_, (htally .crashed).trans ?_, htotal, ?_⟩
  · decide +kernel
  · decide +kernel
  · exact Nat.le_trans (honce 2) (Bool.toNat_le _)

end EventBus

end Retest
