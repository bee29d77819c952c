import Mathlib.Data.List.Induction
import Retest.Proofs.Tally

/-! A docket from its first news to its close. Whatever is said about tests, in whatever order and
however often, each test of the docket gets one result, and what is said first about it counts. -/

namespace Retest
open Std

namespace WorkerNews

def test : WorkerNews → String
  | .started t => t
  | .finished t _ _ => t

def isStart : WorkerNews → Bool
  | .started _ => true
  | .finished .. => false

def outcome? : WorkerNews → Option Outcome
  | .started _ => none
  | .finished _ o _ => some o

end WorkerNews

/-- How the work on a docket ends: it fails, it is called off, or the worker says that it is done
with it. -/
inductive Closing where
  | failed (reason : String)
  | cancelled
  | missed
  deriving Repr, DecidableEq

namespace Closing

def outcome (started : Bool) : Closing → Outcome
  | .failed _ => if started then .crashed else .notRun
  | .cancelled => .notRun
  | .missed => .error

def reason : Closing → String
  | .failed reason => reason
  | .cancelled => "run cancelled"
  | .missed => "worker finished without reporting a result"

end Closing

theorem Docket.mem_unfinished (d : Docket) (t : String) :
    t ∈ d.unfinished ↔ t ∈ d.tests ∧ d.finished.contains t = false := by
  simp [unfinished]

/-- News on a test that is not open changes nothing. -/
theorem Docket.hear_of_not_mem {d : Docket} {now : Moment} {n : WorkerNews}
    (h : n.test ∉ d.unfinished) : d.hear now n = (d, []) := by
  cases n with
  | started t =>
    have hno : d.expects t = false := by
      rw [← Bool.not_eq_true, expects_iff]
      exact h
    simp [hear, start, hno]
  | finished t o diagnostic => exact finish_of_not_mem d now t o diagnostic h

def Docket.close (d : Docket) (now : Moment) : Closing → Docket × List Errand
  | .failed reason => d.failRemaining now reason
  | .cancelled => d.cancelRemaining now
  | .missed => d.missRemaining now

structure Recorder where
  docket : Docket
  desk : Desk

inductive RecorderCall where
  | hear (news : WorkerNews)
  | close (c : Closing)

namespace Recorder

def take (w : Recorder) (now : Moment) : RecorderCall → Recorder
  | .hear news => ⟨(w.docket.hear now news).1, w.desk.settleAll now (w.docket.hear now news).2⟩
  | .close c => ⟨(w.docket.close now c).1, w.desk.settleAll now (w.docket.close now c).2⟩

def run (w : Recorder) (calls : List (Moment × RecorderCall)) : Recorder :=
  calls.foldl (fun w c => w.take c.1 c.2) w

def hearAll (w : Recorder) (news : List (Moment × WorkerNews)) : Recorder :=
  news.foldl (fun w e => w.take e.1 (.hear e.2)) w

end Recorder

def newsOn (l : List (Moment × WorkerNews)) (t : String) : List WorkerNews :=
  (l.map (·.2)).filter fun n => n.test = t

def startsFirst (l : List WorkerNews) : Bool := l.head?.any WorkerNews.isStart

def firstOutcome (l : List WorkerNews) : Option Outcome := l.findSome? WorkerNews.outcome?

section News

variable (l : List WorkerNews)

theorem startsFirst_append (m : List WorkerNews) :
    startsFirst (l ++ m) = if l = [] then startsFirst m else startsFirst l := by
  cases l <;> rfl

theorem firstOutcome_append (m : List WorkerNews) :
    firstOutcome (l ++ m) = (firstOutcome l).or (firstOutcome m) := List.findSome?_append

/-- Where neither a start nor an end is said first, nothing is said. -/
theorem eq_nil_of_unsaid (hs : startsFirst l = false) (ho : firstOutcome l = none) : l = [] := by
  cases l with
  | nil => rfl
  | cons n l => cases n <;> simp [startsFirst, firstOutcome, WorkerNews.isStart,
      WorkerNews.outcome?] at hs ho

/-- Of a test that is not reported, nothing but starts is said. -/
theorem startsFirst_of_unreported (h : firstOutcome l = none) :
    startsFirst l = l.any WorkerNews.isStart := by
  cases l with
  | nil => rfl
  | cons n l =>
    cases n with
    | started t => rfl
    | finished t o diagnostic => cases h

theorem newsOn_append (l m : List (Moment × WorkerNews)) (t : String) :
    newsOn (l ++ m) t = newsOn l t ++ newsOn m t := by
  rw [newsOn, List.map_append, List.filter_append]
  rfl

end News

def Event.isAbout (t : String) : Event → Bool
  | .started _ u => u = t
  | .finished r => r.test = t
  | .complete .. | .diagnostic .. => false

def TestResult.lastRun? (r : TestResult) : Option LastRun :=
  if r.outcome = .notRun then none else some ⟨r.outcome.isFailure, r.duration⟩

theorem History.find_record (h : History) (r : TestResult) (t : String) :
    (h.record r.test r.outcome r.duration).runs.find? t =
      if t = r.test then r.lastRun?.or (h.runs.find? t) else h.runs.find? t := by
  rw [TestResult.lastRun?]
  cases r.outcome <;> simp [record, SortedMap.find_insert]

/-- Counting a result changes no history, and publishes at most the end of a session. -/
theorem Desk.settle_count (k : Desk) (now : Moment) (session : SessionId) (o : Outcome) :
    ∃ rest, (∀ e ∈ rest, ∀ t, Event.isAbout t e = false) ∧
      (k.settle now (.count session o)).feed.published.toList =
        k.feed.published.toList ++ rest ∧
      (k.settle now (.count session o)).history = k.history := by
  have hd := k.delivers_deliver now (.count session o)
  rw [settle]
  cases hp : k.deliver now (.count session o) with
  | mk k' more =>
    rw [hp] at hd
    cases hd with
    | passes s o h => exact ⟨[], by simp, by simp, rfl⟩
    | counts s o u h hr => exact ⟨[], by simp, by simp, rfl⟩
    | ends s o u h hr =>
      refine ⟨[.complete session _], ?_, Array.toList_push, rfl⟩
      simp [Event.isAbout]

/-- The errands of a result note it and publish it. -/
theorem Desk.settleAll_result (k : Desk) (now : Moment) (r : TestResult) :
    ∃ rest, (∀ e ∈ rest, ∀ t, Event.isAbout t e = false) ∧
      (k.settleAll now (.note r :: r.announce)).feed.published.toList =
        k.feed.published.toList ++ .finished r :: rest ∧
      (k.settleAll now (.note r :: r.announce)).history =
        k.history.record r.test r.outcome r.duration := by
  let noted : Desk := ⟨k.feed.publish (.finished r), k.history.record r.test r.outcome r.duration⟩
  obtain ⟨rest, hrest, hpublished, hhistory⟩ := noted.settle_count now r.session r.outcome
  refine ⟨rest, hrest, hpublished.trans ?_, hhistory⟩
  change (k.feed.published.push (.finished r)).toList ++ rest = _
  rw [Array.toList_push, List.append_assoc]
  rfl

namespace Recorder

structure Tells (session : SessionId) (before : History) (news : List WorkerNews)
    (events : List Event) (t : String) (result : Option TestResult) (w : Recorder) : Prop where
  published : events.filter (Event.isAbout t) =
    (if startsFirst news then [.started session t] else []) ++ (result.map .finished).toList
  started : w.docket.started.contains t = startsFirst news
  finished : w.docket.finished.contains t = result.isSome
  outcome : result.map (·.outcome) = firstOutcome news
  mine : ∀ r, result = some r → r.session = session ∧ r.test = t
  history : w.desk.history.runs.find? t =
    (result.bind TestResult.lastRun?).or (before.runs.find? t)

structure Spares (w : Recorder) (t : String) (more : List Event) (w' : Recorder) : Prop where
  started : w'.docket.started.contains t = w.docket.started.contains t
  finished : w'.docket.finished.contains t = w.docket.finished.contains t
  history : w'.desk.history.runs.find? t = w.desk.history.runs.find? t
  events : more.filter (Event.isAbout t) = []

namespace Tells

variable {session : SessionId} {before : History} {news : List WorkerNews}
  {events more : List Event} {t : String} {result : Option TestResult} {w w' : Recorder}

theorem frame (h : w.Tells session before news events t result) (hs : w.Spares t more w') :
    w'.Tells session before news (events ++ more) t result where
  published := by rw [List.filter_append, hs.events, List.append_nil, h.published]
  started := hs.started.trans h.started
  finished := hs.finished.trans h.finished
  outcome := h.outcome
  mine := h.mine
  history := hs.history.trans h.history

/-- News on a test that has a result is passed over, and so is a start that is known. -/
theorem ignore (h : w.Tells session before news events t result) {n : WorkerNews}
    (hn : result.isSome = true ∨ n.isStart = true ∧ startsFirst news = true) :
    w.Tells session before (news ++ [n]) events t result := by
  have hsaid : news ≠ [] := by
    rintro rfl
    have hout := h.outcome
    rcases hn with hn | ⟨-, hn⟩
    · obtain ⟨r, rfl⟩ := Option.isSome_iff_exists.mp hn
      cases hout
    · cases hn
  have hstart : startsFirst (news ++ [n]) = startsFirst news := by
    rw [startsFirst_append, if_neg hsaid]
  refine ⟨?_, ?_, h.finished, ?_, h.mine, h.history⟩
  · rw [hstart, h.published]
  · rw [hstart, h.started]
  · rw [firstOutcome_append, ← h.outcome]
    rcases hn with hn | ⟨hn, -⟩
    · obtain ⟨r, rfl⟩ := Option.isSome_iff_exists.mp hn
      rfl
    · cases n with
      | started u => simp [firstOutcome, WorkerNews.outcome?]
      | finished => cases hn

/-- The first start is published. -/
theorem start (h : w.Tells session before news events t none) (hs : startsFirst news = false)
    (hs' : w'.docket.started.contains t = true)
    (hf : w'.docket.finished.contains t = w.docket.finished.contains t)
    (hh : w'.desk.history.runs.find? t = w.desk.history.runs.find? t) :
    w'.Tells session before (news ++ [.started t]) (events ++ [.started session t]) t none := by
  -- Neither a start nor an end was said before, so nothing was.
  obtain rfl := eq_nil_of_unsaid news hs h.outcome.symm
  refine ⟨?_, hs', hf.trans h.finished, rfl, h.mine, hh.trans h.history⟩
  rw [List.filter_append, h.published]
  simp [startsFirst, WorkerNews.isStart, Event.isAbout]

/-- The first end is published, and the history takes it over. -/
theorem finish (h : w.Tells session before news events t none) {o : Outcome}
    {diagnostic : Option Diagnostic} {r : TestResult} {rest : List Event}
    (hr : r.session = session ∧ r.test = t) (ho : r.outcome = o)
    (hrest : rest.filter (Event.isAbout t) = [])
    (hs : w'.docket.started.contains t = w.docket.started.contains t)
    (hf : w'.docket.finished.contains t = true)
    (hh : w'.desk.history = w.desk.history.record r.test r.outcome r.duration) :
    w'.Tells session before (news ++ [.finished t o diagnostic]) (events ++ .finished r :: rest) t
      (some r) := by
  have hstart : startsFirst (news ++ [.finished t o diagnostic]) = startsFirst news := by
    rw [startsFirst_append]
    split
    · next hnil => rw [hnil]; rfl
    · rfl
  have hmine : Event.isAbout t (.finished r) = true := by simp [Event.isAbout, hr.2]
  refine ⟨?_, ?_, hf, ?_, ?_, ?_⟩
  · rw [List.filter_append, h.published, List.filter_cons_of_pos hmine, hrest, hstart]
    simp
  · rw [hs, h.started, hstart]
  · rw [firstOutcome_append, ← h.outcome, ← ho]
    rfl
  · rintro r' ⟨⟩
    exact hr
  · rw [hh, History.find_record, if_pos hr.2.symm, h.history]
    rfl

end Tells

structure Accounts (session : SessionId) (tests : List String) (desk : Desk)
    (news : List (Moment × WorkerNews)) (events : List Event) (w : Recorder) : Prop where
  sameSession : w.docket.session = session
  sameTests : w.docket.tests = tests
  published : w.desk.feed.published.toList = desk.feed.published.toList ++ events
  size : w.docket.finished.size + w.docket.unfinished.length = tests.length
  listed : ∀ t ∈ tests,
    ∃ result, w.Tells session desk.history (newsOn news t) events t result
  unlisted : ∀ t ∉ tests, events.filter (Event.isAbout t) = [] ∧
    w.desk.history.runs.find? t = desk.history.runs.find? t

section Accounts

variable {session : SessionId} {tests : List String} {desk : Desk}
  {news : List (Moment × WorkerNews)} {events : List Event} {w : Recorder}

theorem accounts_fresh (session : SessionId) (tests : List String) (desk : Desk) :
    Accounts session tests desk [] [] ⟨{ session, tests }, desk⟩ where
  sameSession := rfl
  sameTests := rfl
  published := by simp
  size := by
    rw [Docket.unfinished_fresh]
    exact Nat.zero_add _
  listed t _ := ⟨none, rfl, rfl, rfl, rfl, by simp, rfl⟩
  unlisted t _ := ⟨rfl, rfl⟩

theorem newsOn_concat (l : List (Moment × WorkerNews)) (now : Moment) (n : WorkerNews)
    (t : String) : newsOn (l ++ [(now, n)]) t = newsOn l t ++ if n.test = t then [n] else [] := by
  rw [newsOn_append]
  by_cases h : n.test = t <;> simp [newsOn, h]

/-- News that is passed over. -/
theorem Accounts.ignore (h : Accounts session tests desk news events w) (now : Moment)
    {n : WorkerNews} (hn : n.test ∈ tests → w.docket.finished.contains n.test = true ∨
      n.isStart = true ∧ w.docket.started.contains n.test = true) :
    Accounts session tests desk (news ++ [(now, n)]) events w := by
  refine ⟨h.sameSession, h.sameTests, h.published, h.size, fun t ht => ?_, h.unlisted⟩
  obtain ⟨result, hresult⟩ := h.listed t ht
  refine ⟨result, ?_⟩
  rw [newsOn_concat]
  split
  · next hnt =>
    subst hnt
    refine hresult.ignore ?_
    rw [← hresult.finished, ← hresult.started]
    exact hn ht
  · rwa [List.append_nil]

/-- News on an open test that changes nothing for the others. -/
theorem Accounts.of_own (h : Accounts session tests desk news events w) (now : Moment)
    {n : WorkerNews} {w' : Recorder} {more : List Event} (hn : n.test ∈ w.docket.unfinished)
    (hsession : w'.docket.session = w.docket.session) (htests : w'.docket.tests = w.docket.tests)
    (hpublished : w'.desk.feed.published.toList = w.desk.feed.published.toList ++ more)
    (hsize : w'.docket.finished.size + w'.docket.unfinished.length = tests.length)
    (hothers : ∀ t, n.test ≠ t → w.Spares t more w')
    (hown : ∀ l, w.Tells session desk.history l events n.test none →
      ∃ result, w'.Tells session desk.history (l ++ [n]) (events ++ more) n.test result) :
    Accounts session tests desk (news ++ [(now, n)]) (events ++ more) w' := by
  obtain ⟨hlisted, hopen⟩ := (Docket.mem_unfinished _ _).mp hn
  refine ⟨hsession.trans h.sameSession, htests.trans h.sameTests, ?_, hsize, fun t ht => ?_,
    fun t ht => ?_⟩
  · rw [hpublished, h.published, List.append_assoc]
  · obtain ⟨result, hresult⟩ := h.listed t ht
    rw [newsOn_concat]
    by_cases hnt : n.test = t
    · subst hnt
      obtain rfl : result = none := by simpa [hresult.finished] using hopen
      rw [if_pos rfl]
      exact hown _ hresult
    · rw [if_neg hnt, List.append_nil]
      exact ⟨result, hresult.frame (hothers t hnt)⟩
  · obtain ⟨hevents, hhistory⟩ := h.unlisted t ht
    have hnt : n.test ≠ t := fun e => ht (by rw [← h.sameTests, ← e]; exact hlisted)
    have hspares := hothers t hnt
    exact ⟨by rw [List.filter_append, hevents, hspares.events]; rfl,
      hspares.history.trans hhistory⟩

/-- The first start of an open test. -/
theorem Accounts.start (h : Accounts session tests desk news events w) (now : Moment) {t : String}
    (ht : t ∈ w.docket.unfinished) (hs : w.docket.started.contains t = false) :
    Accounts session tests desk (news ++ [(now, .started t)]) (events ++ [.started session t])
      ⟨{ w.docket with started := w.docket.started.insert t now },
        { w.desk with feed := w.desk.feed.publish (.started session t) }⟩ := by
  have hcontains (u : String) :
      (w.docket.started.insert t now).contains u = true ↔
        u = t ∨ w.docket.started.contains u = true := by
    rw [SortedMap.contains_insert, LawfulEqOrd.compare_eq_iff_eq]
  refine h.of_own now ht rfl rfl Array.toList_push h.size (fun u hu => ⟨?_, rfl, rfl, ?_⟩) ?_
  · rw [Bool.eq_iff_iff]
    exact (hcontains u).trans (or_iff_right fun e => hu e.symm)
  · have hno : ¬Event.isAbout u (.started session t) = true := by
      simpa [Event.isAbout, WorkerNews.test] using hu
    rw [List.filter_cons_of_neg hno, List.filter_nil]
  · intro l hl
    exact ⟨none, hl.start (hl.started ▸ hs) ((hcontains t).mpr (Or.inl rfl)) rfl rfl⟩

/-- The first end of an open test. -/
theorem Accounts.finish (h : Accounts session tests desk news events w) (hnodup : tests.Nodup)
    (now : Moment) {t : String} {o : Outcome} (diagnostic : Option Diagnostic) {r : TestResult}
    (ht : t ∈ w.docket.unfinished) (hr : r.session = session ∧ r.test = t) (ho : r.outcome = o) :
    ∃ more, Accounts session tests desk (news ++ [(now, .finished t o diagnostic)])
      (events ++ more) ⟨{ w.docket with finished := w.docket.finished.insert t },
        w.desk.settleAll now (.note r :: r.announce)⟩ := by
  obtain ⟨rest, hrest, hpublished, hhistory⟩ := w.desk.settleAll_result now r
  have hsilent (u : String) : rest.filter (Event.isAbout u) = [] :=
    List.filter_eq_nil_iff.mpr fun e he => by simp [hrest e he u]
  have hcontains (u : String) : (w.docket.finished.insert t).contains u = true ↔
      u = t ∨ w.docket.finished.contains u = true := by
    rw [SortedSet.contains_insert, LawfulEqOrd.compare_eq_iff_eq]
  refine ⟨.finished r :: rest, h.of_own now ht rfl rfl hpublished ?_
    (fun u hu => ⟨rfl, ?_, ?_, ?_⟩) ?_⟩
  · have hopen := ((Docket.mem_unfinished _ t).mp ht).2
    have hopenNodup : w.docket.unfinished.Nodup := (h.sameTests ▸ hnodup).filter _
    have hleft := Docket.weigh_filter_ne w.docket.unfinished hopenNodup t ht fun _ => 1
    have hsize := h.size
    rw [weigh_const, weigh_const] at hleft
    change (w.docket.finished.insert t).size + _ = _
    rw [SortedSet.size_insert _ _ hopen, Docket.unfinished_insert]
    omega
  · rw [Bool.eq_iff_iff]
    exact (hcontains u).trans (or_iff_right fun e => hu e.symm)
  · change (w.desk.settleAll now _).history.runs.find? u = _
    rw [hhistory, History.find_record, if_neg (by rw [hr.2]; exact Ne.symm hu)]
  · have hno : ¬Event.isAbout u (.finished r) = true := by
      simpa [Event.isAbout, WorkerNews.test, hr.2] using hu
    rw [List.filter_cons_of_neg hno, hsilent]
  · intro l hl
    exact ⟨some r, hl.finish hr ho (hsilent t) rfl ((hcontains t).mpr (Or.inl rfl)) hhistory⟩

theorem take_of_quiet {now : Moment} {n : WorkerNews} (h : w.docket.hear now n = (w.docket, [])) :
    w.take now (.hear n) = w := by
  rw [take, h]
  rfl

/-- Every piece of news keeps the accounts in order. -/
theorem Accounts.hear (h : Accounts session tests desk news events w) (hnodup : tests.Nodup)
    (now : Moment) (n : WorkerNews) : ∃ more,
      Accounts session tests desk (news ++ [(now, n)]) (events ++ more) (w.take now (.hear n)) := by
  by_cases hopen : n.test ∈ w.docket.unfinished
  · have hexpects := (Docket.expects_iff _ _).mpr hopen
    cases n with
    | started t =>
      cases hs : w.docket.started.contains t with
      | true =>
        have hquiet : w.docket.hear now (.started t) = (w.docket, []) := by
          simp [Docket.hear, Docket.start, hs]
        rw [take_of_quiet hquiet]
        refine ⟨[], ?_⟩
        rw [List.append_nil]
        exact h.ignore now fun _ => Or.inr ⟨rfl, hs⟩
      | false =>
        have hstart : w.docket.hear now (.started t) =
            ({ w.docket with started := w.docket.started.insert t now },
              [.publish (.started session t)]) := by
          simp [Docket.hear, Docket.start, hs, show w.docket.expects t = true from hexpects,
            h.sameSession]
        refine ⟨[.started session t], ?_⟩
        rw [take, hstart]
        exact h.start now hopen hs
    | finished t o diagnostic =>
      obtain ⟨r, hr, hsession, htest, hout⟩ :=
        Docket.finish_of_mem w.docket now t o diagnostic hopen
      obtain ⟨more, hmore⟩ := h.finish hnodup now diagnostic hopen
        ⟨hsession.trans h.sameSession, htest⟩ hout
      refine ⟨more, ?_⟩
      rw [take, Docket.hear, hr]
      exact hmore
  · rw [take_of_quiet (Docket.hear_of_not_mem hopen)]
    refine ⟨[], ?_⟩
    rw [List.append_nil]
    refine h.ignore now fun hlisted => Or.inl ?_
    rw [← Bool.not_eq_false]
    exact fun hno => hopen ((Docket.mem_unfinished _ _).mpr ⟨h.sameTests ▸ hlisted, hno⟩)

theorem hearAll_append (l m : List (Moment × WorkerNews)) :
    w.hearAll (l ++ m) = (w.hearAll l).hearAll m := List.foldl_append

/-- Whatever news come, the accounts are in order. -/
theorem accounts_hearAll (session : SessionId) (hnodup : tests.Nodup) (desk : Desk)
    (news : List (Moment × WorkerNews)) : ∃ events, Accounts session tests desk news events
      ((⟨{ session, tests }, desk⟩ : Recorder).hearAll news) := by
  induction news using List.reverseRecOn with
  | nil => exact ⟨[], accounts_fresh session tests desk⟩
  | append_singleton news n ih =>
    obtain ⟨events, hevents⟩ := ih
    obtain ⟨more, hmore⟩ := hevents.hear hnodup n.1 n.2
    rw [hearAll_append]
    exact ⟨events ++ more, hmore⟩

end Accounts

section Close

variable (w : Recorder) (now : Moment)

def closingNews (c : Closing) : List (Moment × WorkerNews) :=
  w.docket.unfinished.map fun t =>
    (now, .finished t (c.outcome (w.docket.started.contains t)) (some { message := c.reason }))

theorem settle_finishAll (outcome : String → Outcome) (reason : String) (d : Docket) (desk : Desk)
    (l : List String) :
    (⟨(Docket.finishAll now outcome reason d l).1,
        desk.settleAll now (Docket.finishAll now outcome reason d l).2⟩ : Recorder) =
      (⟨d, desk⟩ : Recorder).hearAll
        (l.map fun t => (now, .finished t (outcome t) (some { message := reason }))) := by
  induction l generalizing d desk with
  | nil => rfl
  | cons t l ih =>
    simp only [Docket.finishAll, Desk.settleAll, List.foldl_append]
    exact ih _ _

/-- A closing is a run of results on what was open when it began. -/
theorem take_close (c : Closing) : w.take now (.close c) = w.hearAll (w.closingNews now c) := by
  cases c <;> exact settle_finishAll now _ _ w.docket w.desk w.docket.unfinished

theorem unfinished_close (c : Closing) : (w.take now (.close c)).docket.unfinished = [] := by
  cases c <;> exact Docket.unfinished_finishAll_self now _ _ w.docket

theorem newsOn_closingNews (c : Closing) (t : String) : newsOn (w.closingNews now c) t =
    (w.docket.unfinished.filter fun u => u = t).map fun u =>
      .finished u (c.outcome (w.docket.started.contains u)) (some { message := c.reason }) := by
  simp only [newsOn, closingNews, List.map_map, List.filter_map]
  rfl

/-- A closing reports every open test. -/
theorem firstOutcome_closingNews (c : Closing) {t : String} (ht : t ∈ w.docket.unfinished) :
    firstOutcome (newsOn (w.closingNews now c) t) =
      some (c.outcome (w.docket.started.contains t)) := by
  rw [newsOn_closingNews]
  have hmem : t ∈ w.docket.unfinished.filter fun u => u = t :=
    List.mem_filter.mpr ⟨ht, decide_eq_true rfl⟩
  cases hl : w.docket.unfinished.filter fun u => u = t with
  | nil =>
    rw [hl] at hmem
    cases hmem
  | cons u l =>
    have hu : u ∈ w.docket.unfinished.filter fun u => u = t := hl ▸ List.mem_cons_self
    obtain rfl : u = t := of_decide_eq_true (List.mem_filter.mp hu).2
    rfl

/-- It says of no test that it starts. -/
theorem startsFirst_closingNews (c : Closing) (t : String) :
    startsFirst (newsOn (w.closingNews now c) t) = false := by
  rw [newsOn_closingNews]
  cases w.docket.unfinished.filter fun u => u = t <;> rfl

/-- With no test open nothing that is asked of a recorder has an effect. -/
theorem take_of_closed (h : w.docket.unfinished = []) (call : RecorderCall) :
    w.take now call = w := by
  cases call with
  | hear n => exact take_of_quiet (Docket.hear_of_not_mem (by rw [h]; exact List.not_mem_nil))
  | close c =>
    rw [take_close, closingNews, h]
    rfl

theorem run_of_closed (h : w.docket.unfinished = []) (calls : List (Moment × RecorderCall)) :
    w.run calls = w := by
  induction calls with
  | nil => rfl
  | cons c calls ih =>
    rw [run, List.foldl_cons, take_of_closed w c.1 h c.2]
    exact ih

end Close

/-- A closing can come after any news, and anything can be said behind it: in the end every test of
the docket was published once as finished, perhaps behind its start, with the outcome that was
reported first or else with that of the closing. Nothing was published about other tests, and the
history has taken over the results of tests that were run, and no others. -/
theorem each_test_ends_once (session : SessionId) (tests : List String) (hnodup : tests.Nodup)
    (desk : Desk) (news : List (Moment × WorkerNews)) (now : Moment) (c : Closing)
    (calls : List (Moment × RecorderCall)) :
    ∃ w events,
      (((⟨{ session, tests }, desk⟩ : Recorder).hearAll news).take now (.close c)).run calls = w ∧
      w.desk.feed.published.toList = desk.feed.published.toList ++ events ∧
      (∀ t ∈ tests, ∃ r : TestResult, r.session = session ∧ r.test = t ∧
        r.outcome = (firstOutcome (newsOn news t)).getD
          (c.outcome ((newsOn news t).any WorkerNews.isStart)) ∧
        events.filter (Event.isAbout t) =
          (if startsFirst (newsOn news t) then [.started session t] else []) ++ [.finished r] ∧
        w.desk.history.runs.find? t = r.lastRun?.or (desk.history.runs.find? t)) ∧
      (∀ t ∉ tests, events.filter (Event.isAbout t) = [] ∧
        w.desk.history.runs.find? t = desk.history.runs.find? t) ∧
      w.docket.isComplete = true := by
  -- The accounts before the closing tell which tests it reports, those after it what became of all.
  obtain ⟨_, hbefore⟩ := accounts_hearAll session hnodup desk news
  generalize hw : (⟨{ session, tests }, desk⟩ : Recorder).hearAll news = w at hbefore ⊢
  obtain ⟨events, hafter⟩ := accounts_hearAll session hnodup desk (news ++ w.closingNews now c)
  have hclosed := w.unfinished_close now c
  rw [hearAll_append, hw, ← take_close] at hafter
  refine ⟨_, events, run_of_closed _ hclosed calls, hafter.published, fun t ht => ?_,
    hafter.unlisted, ?_⟩
  · obtain ⟨result, hresult⟩ := hafter.listed t ht
    obtain ⟨former, hformer⟩ := hbefore.listed t ht
    obtain ⟨r, rfl⟩ : ∃ r, result = some r := by
      rw [← Option.isSome_iff_exists, ← hresult.finished, ← Bool.not_eq_false]
      intro hopen
      have hmem := (Docket.mem_unfinished _ t).mpr ⟨hafter.sameTests ▸ ht, hopen⟩
      rw [hclosed] at hmem
      cases hmem
    obtain ⟨hsession, htest⟩ := hresult.mine r rfl
    refine ⟨r, hsession, htest, ?_, ?_, hresult.history⟩
    -- A closing comes behind all news, so it speaks first only where nothing was reported.
    · have hout := hresult.outcome
      rw [newsOn_append, firstOutcome_append, ← hformer.outcome] at hout
      rw [← hformer.outcome]
      cases former with
      | some r' => exact Option.some.inj hout
      | none =>
        have hopen : t ∈ w.docket.unfinished := by
          rw [Docket.mem_unfinished, hformer.finished]
          exact ⟨hbefore.sameTests ▸ ht, rfl⟩
        rw [firstOutcome_closingNews w now c hopen, hformer.started,
          startsFirst_of_unreported _ hformer.outcome.symm] at hout
        exact Option.some.inj hout
    · rw [hresult.published, newsOn_append, startsFirst_append, startsFirst_closingNews]
      split
      · next hnil => rw [hnil]; rfl
      · rfl
  · have hsize := hafter.size
    rw [hclosed] at hsize
    rw [Docket.isComplete, hafter.sameTests]
    exact decide_eq_true hsize

end Recorder

namespace Hostile

def desk : Desk := { feed := .ofCapacity 4 }

def news : List (Moment × WorkerNews) :=
  [.finished "z" .pass none, .started "b", .finished "a" .fail none, .finished "a" .pass none,
    .started "a", .started "b"].map fun n => (default, n)

def calls : List (Moment × RecorderCall) :=
  [.hear (.finished "c" .pass none), .hear (.started "c"), .close .missed].map fun c => (default, c)

end Hostile

namespace Recorder

/-- The worker breaks off: the test that it had started crashed, and the last one was not run. -/
theorem hostile_news_end_each_test_once : ["a", "b", "c"].Nodup ∧ ∃ w events,
    (((⟨{ session := 1, tests := ["a", "b", "c"] }, Hostile.desk⟩ : Recorder).hearAll
      Hostile.news).take default (.close (.failed "worker died"))).run Hostile.calls = w ∧
    w.desk.feed.published.toList = events ∧
    (∃ r, events.filter (Event.isAbout "a") = [.finished r] ∧ r.outcome = .fail) ∧
    (∃ r, events.filter (Event.isAbout "b") = [.started 1 "b", .finished r] ∧
      r.outcome = .crashed) ∧
    (∃ r, events.filter (Event.isAbout "c") = [.finished r] ∧ r.outcome = .notRun) ∧
    events.filter (Event.isAbout "z") = [] ∧ w.docket.isComplete = true := by
  have hnodup : ["a", "b", "c"].Nodup := by decide
  obtain ⟨w, events, hw, hpublished, hlisted, hunlisted, hcomplete⟩ := each_test_ends_once 1
    ["a", "b", "c"] hnodup Hostile.desk Hostile.news default (.failed "worker died") Hostile.calls
  obtain ⟨a, -, -, hout, ha, -⟩ := hlisted "a" (by decide)
  obtain ⟨b, -, -, hout', hb, -⟩ := hlisted "b" (by decide)
  obtain ⟨c, -, -, hout'', hc, -⟩ := hlisted "c" (by decide)
  exact ⟨hnodup, w, events, hw, hpublished, ⟨a, ha, hout⟩, ⟨b, hb, hout'⟩, ⟨c, hc, hout''⟩,
    (hunlisted "z" (by decide)).1, hcomplete⟩

end Recorder

end Retest
