import Retest.Proofs.SessionAccounts
import Retest.Proofs.Sessions

/-! The summary that a session ends with, over a run of the engine. The results of each outcome that
were published or will be are those that the session has counted or still has to count; at its end
nothing is left to count, so its summary tells what became of all its tests. -/

namespace Retest
open Std

section Weigh

universe u

variable {α : Type u} (f : α → Nat) (l : List α)

theorem exists_of_weigh_pos (h : 0 < weigh f l) : ∃ a ∈ l, 0 < f a := by
  by_contra hno
  simp only [not_exists, not_and, Nat.not_lt, Nat.le_zero] at hno
  rw [weigh_eq_zero f l hno] at h
  exact absurd h (Nat.lt_irrefl 0)

/-- Where one member is of a kind and no other weighs anything, that one is the weight. -/
theorem weigh_of_countP_one (p : α → Bool) (a : α) (ha : a ∈ l) (hp : p a = true)
    (hone : l.countP p = 1) (hf : ∀ b, p b = false → f b = 0) : weigh f l = f a := by
  induction l with
  | nil => simp at ha
  | cons b l ih =>
    rw [weigh_cons]
    cases hb : p b with
    | true =>
      rw [List.countP_cons_of_pos hb] at hone
      have hnone : l.countP p = 0 := by omega
      have hrest (c : α) (hc : c ∈ l) : p c = false :=
        Bool.eq_false_iff.mpr (List.countP_eq_zero.mp hnone c hc)
      have hab : a = b := by
        refine (List.mem_cons.mp ha).resolve_right fun hal => ?_
        rw [hrest a hal] at hp
        cases hp
      rw [weigh_eq_zero f l fun c hc => hf c (hrest c hc), hab, Nat.add_zero]
    | false =>
      rw [List.countP_cons_of_neg (by simp [hb])] at hone
      have hal : a ∈ l := by
        refine (List.mem_cons.mp ha).resolve_left ?_
        rintro rfl
        rw [hb] at hp
        cases hp
      rw [hf b hb, Nat.zero_add, ih hal hone]

end Weigh

namespace Summary

theorem total_eq_tally (m : Summary) : m.total = m.tally .pass + m.tally .fail + m.tally .error +
    m.tally .crashed + m.tally .notRun := rfl

/-- All tests passed just when nothing else was counted. -/
theorem allPassed_iff (m : Summary) :
    m.allPassed = true ↔ ∀ o, o ≠ .pass → m.tally o = 0 := by
  have htotal := m.total_eq_tally
  have hpass : m.tally .pass = m.passed := rfl
  rw [allPassed, decide_eq_true_eq]
  constructor
  · intro h o ho
    cases o with
    | pass => exact absurd rfl ho
    | _ => omega
  · intro h
    have hfail := h .fail (by decide)
    have herror := h .error (by decide)
    have hcrashed := h .crashed (by decide)
    have hnotRun := h .notRun (by decide)
    omega

theorem tally_finishedAt (m : Summary) (at? : Option Moment) (o : Outcome) :
    ({ m with finishedAt := at? } : Summary).tally o = m.tally o := by
  cases o <;> rfl

end Summary

def Event.gives (s : SessionId) (o : Outcome) : Event → Bool
  | .finished r => r.session = s && r.outcome = o
  | .started .. | .complete .. | .diagnostic .. => false

def Event.sums (s : SessionId) (o : Outcome) : Event → Nat
  | .complete s' m => if s' = s then m.tally o else 0
  | .started .. | .finished _ | .diagnostic .. => 0

def Errand.sums (s : SessionId) (o : Outcome) : Errand → Nat
  | .publish e => e.sums s o
  | .count s' o' => if s' = s ∧ o' = o then 1 else 0
  | .note _ => 0

theorem silent_gives (s : SessionId) (o : Outcome) : Silent (publishes (Event.gives s o)) :=
  ⟨fun _ _ => rfl, fun _ _ => rfl⟩

theorem silent_sums (s : SessionId) (o : Outcome) : Silent (Errand.sums s o) :=
  ⟨fun _ _ => rfl, fun _ _ => rfl⟩

/-- A result is published as often as it is counted. -/
theorem resultWeight_gives (s : SessionId) (o : Outcome) (r : TestResult) :
    resultWeight (publishes (Event.gives s o)) r = resultWeight (Errand.sums s o) r := by
  by_cases hs : r.session = s <;> by_cases ho : r.outcome = o <;>
    simp [resultWeight, publishes, Event.gives, Errand.sums, Event.sums, hs, ho]

theorem Errand.sums_eq_zero (s : SessionId) (o : Outcome) (y : Errand) (hc : counts s y = 0)
    (he : publishes (Event.completes s) y = 0) : y.sums s o = 0 := by
  cases y with
  | note r => rfl
  | publish e =>
    cases e with
    | complete t m =>
      have ht : t ≠ s := by simpa [publishes, Event.completes] using he
      exact if_neg ht
    | _ => rfl
  | count t o' =>
    have ht : t ≠ s := by simpa [counts] using hc
    exact if_neg fun h => ht h.1

def Feed.tally (f : Feed) (s : SessionId) (o : Outcome) : Nat :=
  ((f.sessions.find? s).map (·.summary.tally o)).getD 0

def Feed.given (f : Feed) (s : SessionId) (o : Outcome) : Nat :=
  f.published.toList.countP (Event.gives s o)

def Feed.counted (f : Feed) (s : SessionId) (o : Outcome) : Nat :=
  f.tally s o + weigh (Event.sums s o) f.published.toList

theorem Feed.counted_publish (f : Feed) (e : Event) (s : SessionId) (o : Outcome) :
    (f.publish e).counted s o = f.counted s o + e.sums s o := by
  change f.tally s o + weigh _ (f.published.push e).toList = _
  rw [Array.toList_push, weigh_append, weigh_cons, weigh_nil, Nat.add_zero, ← Nat.add_assoc]
  rfl

/-- An errand moves a result on from one side to the other, or from one place to the next on its
side. -/
theorem Desk.balanced_of_delivers {k k' : Desk} {now : Moment} {x : Errand} {more : List Errand}
    (h : k.Delivers now x k' more) (hopen : ∀ s, counts s x ≤ k.feed.remaining s) (s : SessionId)
    (o : Outcome) :
    k'.feed.given s o + weigh (publishes (Event.gives s o)) more +
        (k.feed.counted s o + x.sums s o) =
      k.feed.given s o + publishes (Event.gives s o) x +
        (k'.feed.counted s o + weigh (Errand.sums s o) more) := by
  cases h with
  | notes r known => rfl
  | shows e =>
    have hgiven : (k.feed.publish e).given s o = k.feed.given s o + (Event.gives s o e).toNat :=
      k.feed.countP_publish e _
    have hcounted := k.feed.counted_publish e s o
    change (k.feed.publish e).given s o + 0 + (k.feed.counted s o + e.sums s o) =
      k.feed.given s o + (Event.gives s o e).toNat + ((k.feed.publish e).counted s o + 0)
    omega
  | passes t o' hnone =>
    -- Nothing is expected of a session that is not open.
    have ht := hopen t
    simp [counts, Feed.remaining, hnone] at ht
  | ends t o' u hu hr =>
    by_cases hts : t = s
    · -- The last count goes into the summary, and the session closes with it.
      subst hts
      have hfinished := (u.summary.record o').tally_finishedAt (some now) o
      rw [Summary.tally_record] at hfinished
      simp only [Feed.given, Feed.counted, Feed.tally, Feed.find_erase_session, hu, weigh_cons,
        weigh_nil, publishes, Event.gives, Errand.sums, Event.sums, if_true, true_and, hfinished,
        Option.map_none, Option.map_some, Option.getD_none, Option.getD_some, Bool.toNat_false]
      omega
    · have hst : s ≠ t := Ne.symm hts
      simp [Feed.given, Feed.counted, Feed.tally, Feed.find_erase_session, publishes, Event.gives,
        Errand.sums, Event.sums, hts, hst]
  | counts t o' u hu hr =>
    by_cases hts : t = s
    · subst hts
      simp only [Feed.given, Feed.counted, Feed.tally, Feed.find_insert_session, hu, weigh_nil,
        publishes, Errand.sums, if_true, true_and, Summary.tally_record, Option.map_some,
        Option.getD_some]
      omega
    · have hst : s ≠ t := Ne.symm hts
      simp [Feed.given, Feed.counted, Feed.tally, Feed.find_insert_session, publishes,
        Errand.sums, hts, hst]

namespace Engine

variable {e e' : Engine} {asked : List QueueEntry}

def Balanced (e : Engine) : Prop := ∀ s o,
  e.desk.feed.given s o + weigh (publishes (Event.gives s o)) e.outstanding =
    e.desk.feed.counted s o + weigh (Errand.sums s o) e.outstanding

theorem outstanding_head (s s' : Shift) (rest : List Shift) (hs : e.shifts = s :: rest)
    (midway : Option (SessionId × List String)) (ho : s'.outstanding = s.outstanding) :
    ({ e with shifts := s' :: rest, midway } : Engine).outstanding = e.outstanding := by
  simp only [outstanding, hs, List.flatMap_cons, ho]

/-- Who calls the engine publishes nothing, counts nothing and leaves no errands. -/
theorem idle_of_caller (hb : e.Books asked) {now : Moment} {a : Action} (hc : e.Change now a e')
    (ha : a.shift? = none) : e'.outstanding = e.outstanding ∧
      e'.desk.feed.published = e.desk.feed.published ∧
      ∀ s o, e'.desk.feed.tally s o = e.desk.feed.tally s o := by
  cases hc with
  | opens tests hm ht =>
    obtain ⟨-, -, -, houtstanding, hdesk⟩ := e.shifts_ensureShift hb.sound
    have hfeed : (e.openSession now (distinctNames tests)).desk.feed =
        (e.desk.feed.openSession (distinctNames tests).length now).1 := by
      rw [← hdesk]
      rfl
    refine ⟨houtstanding, by rw [hfeed]; rfl, fun s o => ?_⟩
    -- A session that is opened has counted nothing yet.
    rw [hfeed, Feed.tally, Feed.openSession, Feed.find_insert_session, Feed.tally]
    by_cases hs : s = e.desk.feed.opened + 1
    · rw [if_pos hs, hs, hb.fresh]
      cases o <;> rfl
    · rw [if_neg hs]
  | pushes session tests hm =>
    obtain ⟨-, s, rest, hs, -⟩ := hb.midway session tests hm
    have hput : e.push session tests = { e with
        shifts := { s with
          queue := s.queue.push e.settings.priority e.desk.history session tests } :: rest
        midway := none } := by
      simp only [push, hs]
    rw [hput]
    exact ⟨outstanding_head s _ rest hs none rfl, rfl, fun _ _ => rfl⟩
  | adjusts n =>
    cases hs : e.shifts with
    | nil =>
      have hput : e.setLimit n = { e with idle := e.idle.setLimit n } := by simp only [setLimit, hs]
      rw [hput]
      exact ⟨rfl, rfl, fun _ _ => rfl⟩
    | cons s rest =>
      have hput : e.setLimit n = { e with
          shifts := { s with permits := s.permits.setLimit n } :: rest, midway := e.midway } := by
        simp only [setLimit, hs]
      rw [hput]
      exact ⟨outstanding_head s _ rest hs e.midway rfl, rfl, fun _ _ => rfl⟩
  | stops s rest hm hs hc =>
    exact ⟨outstanding_head s { s with cancelled := true } rest hs e.midway rfl, rfl,
      fun _ _ => rfl⟩
  | works _ k s s' hk hs hw =>
    rw [ha] at hk
    cases hk
  | hands _ k s s' x desk more hk hn hs hd hh =>
    rw [ha] at hk
    cases hk

theorem balanced_works (hb : e.Books asked) (h : e.Balanced) {now : Moment}
    {hired : Option WorkerId} (k : Nat) (s s' : Shift) (hk : e.shift? k = some s)
    (hw : s.Works e.settings now hired s') : (e.putShift k s').Balanced := by
  have hmem := mem_of_shift e k s hk
  obtain ⟨ended, hends, -⟩ := Shift.ends_works (hb.sound s hmem) (hb.nodup_shift s hmem) hw
  have houtstanding := outstanding_putShift e k s s' hk
  intro t o
  have hgiven := houtstanding (publishes (Event.gives t o))
  have hcounted := houtstanding (Errand.sums t o)
  rw [hends.outstanding _ (silent_gives t o),
    weigh_congr _ _ ended fun r _ => resultWeight_gives t o r] at hgiven
  rw [hends.outstanding _ (silent_sums t o)] at hcounted
  have hbalance := h t o
  change e.desk.feed.given t o + _ = e.desk.feed.counted t o + _
  omega

theorem balanced_hands (hb : e.Books asked) (h : e.Balanced) (now : Moment) (k : Nat)
    (s s' : Shift) (x : Errand) (desk : Desk) (more : List Errand) (hk : e.shift? k = some s)
    (hd : e.desk.deliver now x = (desk, more)) (hh : s.Hands x more s') :
    ({ e with desk }.putShift k s').Balanced := by
  have hmem := mem_of_shift e k s hk
  have houtstanding := outstanding_putShift { e with desk } k s s' hk
  obtain ⟨-, hout⟩ := Shift.weigh_hands (hb.sound s hmem) hh
  have hx : x ∈ e.outstanding := List.mem_flatMap.mpr ⟨s, hmem, Shift.mem_outstanding_of_hands hh⟩
  -- What is still to be counted for a session is no more than what the session waits for.
  have hexpected (t : SessionId) : counts t x ≤ e.desk.feed.remaining t := by
    have ht := hb.remaining t
    have hle := le_weigh (counts t) e.outstanding x hx
    omega
  have hdelivers : e.desk.Delivers now x desk more := by
    have hsame := e.desk.delivers_deliver now x
    rwa [hd] at hsame
  intro t o
  have hmoves := Desk.balanced_of_delivers hdelivers hexpected t o
  have hgiven := houtstanding (publishes (Event.gives t o))
  have hcounted := houtstanding (Errand.sums t o)
  have hgiven' := hout (publishes (Event.gives t o))
  have hcounted' := hout (Errand.sums t o)
  have hbalance := h t o
  change _ = weigh _ e.outstanding + _ at hgiven
  change _ = weigh _ e.outstanding + _ at hcounted
  change desk.feed.given t o + _ = desk.feed.counted t o + _
  omega

theorem balanced_change (hb : e.Books asked) (h : e.Balanced) (now : Moment) (a : Action)
    (hc : e.Change now a e') : e'.Balanced := by
  -- The four actions of a caller leave both sides alone.
  have hcaller (ha : a.shift? = none) : e'.Balanced := by
    obtain ⟨hout, hpublished, htally⟩ := idle_of_caller hb hc ha
    intro s o
    rw [hout, Feed.given, Feed.counted, hpublished, htally]
    exact h s o
  cases hc with
  | works _ k s s' ha hs hw => exact balanced_works hb h k s s' hs hw
  | hands _ k s s' x desk more ha hn hs hd hh =>
    exact balanced_hands hb h now k s s' x desk more hs hd hh
  | _ => exact hcaller rfl

variable {settings : EngineSettings} {limit capacity : Nat} {history : History} {l : List Turn}

/-- At every moment of every run the results and the counts agree. -/
theorem balanced_run (h : (fresh settings limit capacity history).Run l e) : e.Balanced := by
  induction h with
  | start => exact fun s o => rfl
  | step l d now a e' hrun ha ih =>
    exact balanced_change (books_run hrun) ih now a (change_of_act d now a e' ha)

def Made (e : Engine) (r : TestResult) : Prop :=
  .finished r ∈ e.desk.feed.published ∨ .publish (.finished r) ∈ e.outstanding

theorem made_iff_count (e : Engine) (r : TestResult) : e.Made r ↔
    0 < e.desk.feed.published.toList.count (.finished r) +
      weigh (Errand.is (.publish (.finished r))) e.outstanding := by
  have hcount : weigh (Errand.is (.publish (.finished r))) e.outstanding =
      e.outstanding.count (.publish (.finished r)) := weigh_eq_count _ _
  rw [hcount, Nat.add_pos_iff_pos_or_pos, List.count_pos_iff, List.count_pos_iff,
    Array.mem_toList_iff, Made]

/-- A result that was made stays. -/
theorem made_change (hb : e.Books asked) {now : Moment} {a : Action} (hc : e.Change now a e')
    {r : TestResult} (hr : e.Made r) : e'.Made r := by
  have hcaller (ha : a.shift? = none) : e'.Made r := by
    obtain ⟨hout, hpublished, -⟩ := idle_of_caller hb hc ha
    rwa [Made, hout, hpublished]
  rw [made_iff_count] at hr ⊢
  cases hc with
  | works _ k s s' ha hs hw =>
    have hmem := mem_of_shift e k s hs
    obtain ⟨ended, hends, -⟩ := Shift.ends_works (hb.sound s hmem) (hb.nodup_shift s hmem) hw
    have hout := outstanding_putShift e k s s' hs (Errand.is (.publish (.finished r)))
    rw [hends.outstanding _ ⟨fun _ _ => rfl, fun _ _ => rfl⟩] at hout
    change 0 < e.desk.feed.published.toList.count _ + _
    omega
  | hands _ k s s' x desk more ha hn hs hd hh =>
    -- An errand that is done is published, and the others are still to be done.
    have hmem := mem_of_shift e k s hs
    have hout := outstanding_putShift { e with desk } k s s' hs (Errand.is (.publish (.finished r)))
    have hleft := (Shift.weigh_hands (hb.sound s hmem) hh).2 (Errand.is (.publish (.finished r)))
    have htold := (e.desk.delivers_deliver now x).told r
    rw [hd] at htold
    change desk.feed.published.toList.count _ = _ at htold
    change _ = weigh _ e.outstanding + _ at hout
    change 0 < desk.feed.published.toList.count _ + _
    omega
  | _ => exact (made_iff_count _ r).mp (hcaller rfl)

theorem exists_made_iff (e : Engine) (p : Event → Bool)
    (hp : ∀ ev, p ev = true → ∃ r, ev = .finished r) :
    0 < e.desk.feed.published.toList.countP p + weigh (publishes p) e.outstanding ↔
      ∃ r, e.Made r ∧ p (.finished r) = true := by
  constructor
  · intro hpos
    by_cases hcount : 0 < e.desk.feed.published.toList.countP p
    · obtain ⟨ev, hev, hpev⟩ := List.countP_pos_iff.mp hcount
      obtain ⟨r, rfl⟩ := hp ev hpev
      exact ⟨r, Or.inl (Array.mem_toList_iff.mp hev), hpev⟩
    · obtain ⟨y, hy, hpos⟩ := exists_of_weigh_pos (publishes p) e.outstanding (by omega)
      cases y with
      | publish ev =>
        have hpev : p ev = true := by
          cases hev : p ev with
          | true => rfl
          | false => simp [publishes, hev] at hpos
        obtain ⟨r, rfl⟩ := hp ev hpev
        exact ⟨r, Or.inr hy, hpev⟩
      | note r => exact absurd hpos (Nat.lt_irrefl 0)
      | count s o => exact absurd hpos (Nat.lt_irrefl 0)
  · rintro ⟨r, hr | hr, hpr⟩
    · have hpos := List.countP_pos_iff.mpr ⟨_, Array.mem_toList_iff.mpr hr, hpr⟩
      omega
    · have hle := le_weigh (publishes p) e.outstanding _ hr
      have hone : publishes p (.publish (.finished r)) = 1 := by simp [publishes, hpr]
      omega

theorem exists_tells (x : QueueEntry) (ev : Event) (h : Event.tells x ev = true) :
    ∃ r, ev = .finished r := by
  cases ev with
  | finished r => exact ⟨r, rfl⟩
  | _ => cases h

theorem exists_gives (s : SessionId) (o : Outcome) (ev : Event) (h : Event.gives s o ev = true) :
    ∃ r, ev = .finished r := by
  cases ev with
  | finished r => exact ⟨r, rfl⟩
  | _ => cases h

/-- A test has a result just when it was asked for and waits no more. -/
theorem Books.made_iff (h : e.Books asked) (x : QueueEntry) :
    (∃ r, e.Made r ∧ r.entry = x) ↔ x ∈ asked ∧ x ∉ e.pending := by
  have hx := h.results x
  have hone := List.nodup_iff_count_le_one.mp h.nodup x
  have hmade := exists_made_iff e (Event.tells x) (exists_tells x)
  have htells (r : TestResult) : Event.tells x (.finished r) = true ↔ r.entry = x :=
    decide_eq_true_iff
  simp only [htells] at hmade
  rw [← hmade, ← List.count_pos_iff (l := asked), ← List.count_pos_iff (l := e.pending)]
  change 0 < e.desk.feed.resultCount x + _ ↔ _
  omega

/-- At the end of a session its summary tells how many of its tests have had each outcome, and none
of them waits any more. -/
theorem complete_run (h : (fresh settings limit capacity history).Run l e) (s : SessionId)
    (m : Summary) (hm : .complete s m ∈ e.desk.feed.published) :
    (∀ o, m.tally o =
      e.desk.feed.given s o + weigh (publishes (Event.gives s o)) e.outstanding) ∧
      ∀ x ∈ e.pending, x.session ≠ s := by
  have hbooks := books_run h
  have hends : Event.completes s (.complete s m) = true := decide_eq_true rfl
  have honce : 1 ≤ e.desk.feed.completeCount s :=
    List.countP_pos_iff.mpr ⟨_, Array.mem_toList_iff.mpr hm, hends⟩
  -- A session ends once, so it is not open any more and its end is not still to come.
  have hcomplete := hbooks.complete s
  have hle := Bool.toNat_le (decide (1 ≤ s ∧ s ≤ e.desk.feed.opened))
  have hclosed : e.desk.feed.sessions.contains s = false := by
    rw [← Bool.toNat_eq_zero]
    omega
  have hnone : e.desk.feed.sessions.find? s = none := by simpa [SortedMap.contains] using hclosed
  have hremaining := hbooks.remaining s
  rw [Feed.remaining, hnone, Option.map_none, Option.getD_none] at hremaining
  -- An errand that weighs something would be still to do for the session.
  have hzero (g : Errand → Nat) (hg : weigh g e.outstanding = 0) (y : Errand)
      (hy : y ∈ e.outstanding) : g y = 0 := by
    have hley := le_weigh g e.outstanding y hy
    omega
  refine ⟨?_, ?_⟩
  · intro o
    have hsums : weigh (Errand.sums s o) e.outstanding = 0 := by
      refine weigh_eq_zero _ _ fun y hy => Errand.sums_eq_zero s o y ?_ ?_
      · exact hzero (counts s) (by omega) y hy
      · exact hzero (publishes (Event.completes s)) (by omega) y hy
    -- Of the ends that were published only this one is of the session.
    have hsummary : weigh (Event.sums s o) e.desk.feed.published.toList = m.tally o := by
      rw [weigh_of_countP_one (Event.sums s o) _ (Event.completes s) (.complete s m)
        (Array.mem_toList_iff.mpr hm) hends (by rw [← Feed.completeCount]; omega)]
      · exact if_pos rfl
      · intro ev hev
        cases ev with
        | complete t u => exact if_neg (of_decide_eq_false hev)
        | _ => rfl
    have hbalance := balanced_run h s o
    rw [hsums, Feed.counted, Feed.tally, hnone, Option.map_none, Option.getD_none, hsummary]
      at hbalance
    omega
  · intro x hpending hxs
    have hlex := le_weigh (fun x : QueueEntry => if x.session = s then 1 else 0) _ x hpending
    rw [if_pos hxs] at hlex
    omega

/-- A session whose summary says that all tests passed has no other result. -/
theorem allPassed_iff_made (h : (fresh settings limit capacity history).Run l e) (s : SessionId)
    (m : Summary) (hm : .complete s m ∈ e.desk.feed.published) :
    m.allPassed = true ↔ ∀ r, e.Made r → r.session = s → r.outcome = .pass := by
  obtain ⟨htally, -⟩ := complete_run h s m hm
  have hmade (o : Outcome) := exists_made_iff e (Event.gives s o) (exists_gives s o)
  have hgives (r : TestResult) (o : Outcome) :
      Event.gives s o (.finished r) = true ↔ r.session = s ∧ r.outcome = o := by
    simp [Event.gives]
  simp only [hgives] at hmade
  rw [Summary.allPassed_iff]
  constructor
  · intro hall r hr hs
    by_contra hno
    have hpos := (hmade r.outcome).mpr ⟨r, hr, hs, rfl⟩
    have hzero := hall r.outcome hno
    rw [htally] at hzero
    change 0 < e.desk.feed.given s r.outcome + _ at hpos
    omega
  · intro hall o ho
    rw [htally]
    by_contra hno
    obtain ⟨r, hr, hs, hout⟩ := (hmade o).mp (Nat.pos_of_ne_zero hno)
    exact ho (hout ▸ hall r hr hs)

end Engine

end Retest
