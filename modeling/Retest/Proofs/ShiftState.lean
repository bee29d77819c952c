import Retest.Proofs.Docket
import Retest.Proofs.Permits
import Retest.Proofs.Queue
import Retest.Proofs.ShiftMoves

/-! What is true of a shift whatever it does: its dispatches are numbered apart, a dispatch goes
back with nothing open, and a shift that is called off ends in order. -/

namespace Retest

def Stage.isBack : Stage → Bool
  | .returning .. | .leaving => true
  | .starting | .connecting | .running _ => false

def Stage.isEarly : Stage → Bool
  | .starting | .connecting => true
  | .running _ | .returning .. | .leaving => false

def Phase.isLate : Phase → Bool
  | .joining | .sweeping | .over => true
  | .choosing | .holding .. => false

def Phase.isSwept : Phase → Bool
  | .sweeping | .over => true
  | .choosing | .holding .. | .joining => false

theorem Phase.isLate_of_isSwept (p : Phase) (h : p.isSwept = true) : p.isLate = true := by
  cases p with
  | choosing => cases h
  | holding => cases h
  | _ => rfl

namespace Shift

structure Apart (started : Nat) (dispatches : List Dispatch) (parting : List Parting) : Prop where
  numbers : (parting.map (·.number)).Nodup
  started : ∀ c ∈ parting, c.number < started
  gone : ∀ c ∈ parting, ∀ d ∈ dispatches, c.number ≠ d.number

structure Sound (s : Shift) : Prop where
  numbers : (s.dispatches.map (·.number)).Nodup
  started : ∀ d ∈ s.dispatches, d.number < s.started
  unheard : ∀ d ∈ s.dispatches, d.stage.isEarly = true → d.docket.started = .empty
  settled : ∀ d ∈ s.dispatches, d.stage.isBack = true → d.docket.unfinished = []
  calledOff : s.queue.closed = true → s.cancelled = true
  sentAway : s.permits.closed = true → s.queue.closed = true
  late : s.phase.isLate = true → s.cancelled = true
  swept : s.phase.isSwept = true → s.queue.entries = [] ∧ s.dispatches = []
  ended : s.phase = .over → s.errands = [] ∧ s.pool.idle = []
  apart : Apart s.started s.dispatches s.parting
  arrived : s.phase.isSwept = true → s.parting = []

theorem sound_ofPermits (p : Permits) (h : p.closed = false) : (ofPermits p).Sound where
  numbers := List.nodup_nil
  started := by simp [ofPermits]
  unheard := by simp [ofPermits]
  settled := by simp [ofPermits]
  calledOff := by simp [ofPermits]
  sentAway := by simp [ofPermits, h]
  late := by simp [ofPermits, Phase.isLate]
  swept := by simp [ofPermits, Phase.isSwept]
  ended := by simp [ofPermits]
  apart := ⟨List.nodup_nil, by simp [ofPermits], by simp [ofPermits]⟩
  arrived := by simp [ofPermits]

theorem mem_put (s : Shift) (d c : Dispatch) (h : c ∈ (s.put d).dispatches) :
    c = d ∨ c ∈ s.dispatches := by
  obtain ⟨b, hb, rfl⟩ := List.mem_map.mp h
  by_cases hn : b.number = d.number
  · exact Or.inl (by simp [hn])
  · exact Or.inr (by simpa [hn] using hb)

theorem numbers_put (s : Shift) (d : Dispatch) :
    (s.put d).dispatches.map (·.number) = s.dispatches.map (·.number) := by
  simp only [put, List.map_map]
  congr 1
  funext c
  by_cases hn : c.number = d.number <;> simp [hn]

variable {s : Shift}

/-- A dispatch takes its next step, and connections come and go by it. -/
theorem sound_put (h : s.Sound) (d d' : Dispatch) (pool : Pool) (retired : List WorkerId)
    (hd : d ∈ s.dispatches) (hnumber : d'.number = d.number)
    (hunheard : d'.stage.isEarly = true → d'.docket.started = .empty)
    (hsettled : d'.stage.isBack = true → d'.docket.unfinished = []) :
    ({ s with pool, retired }.put d').Sound := by
  have hmem (c : Dispatch) (hc : c ∈ ({ s with pool, retired }.put d').dispatches) :
      c = d' ∨ c ∈ s.dispatches := mem_put { s with pool, retired } d' c hc
  -- With a dispatch still there, the loop cannot have swept the queue.
  have hunswept : s.phase.isSwept ≠ true := by
    intro hp
    rw [(h.swept hp).2] at hd
    exact List.not_mem_nil hd
  refine ⟨?_, ?_, ?_, ?_, h.calledOff, h.sentAway, h.late, ?_, ?_, ?_, h.arrived⟩
  · rw [numbers_put]
    exact h.numbers
  · intro c hc
    rcases hmem c hc with rfl | hc
    · rw [hnumber]
      exact h.started d hd
    · exact h.started c hc
  · intro c hc
    rcases hmem c hc with rfl | hc
    · exact hunheard
    · exact h.unheard c hc
  · intro c hc
    rcases hmem c hc with rfl | hc
    · exact hsettled
    · exact h.settled c hc
  · exact fun hp => absurd hp hunswept
  · intro hp
    have hp' : s.phase = .over := hp
    exact absurd (by rw [hp']; rfl) hunswept
  · refine ⟨h.apart.numbers, h.apart.started, fun b hb c hc => ?_⟩
    rcases hmem c hc with rfl | hc
    · rw [hnumber]
      exact h.apart.gone b hb d hd
    · exact h.apart.gone b hb c hc

/-- What a loop that looks for a batch comes back with: it gives up, it waits, or it holds the
entries at the front of the queue. -/
inductive Fetches (s : Shift) : Shift → Prop
  | quits (queue : Queue) (hq : queue.entries = s.queue.entries)
    (hclosed : queue.closed = s.queue.closed) (h : s.cancelled = true ∨ s.queue.closed = true) :
    Fetches s { s with queue, phase := .joining }
  | waits (queue : Queue) (hq : queue.entries = s.queue.entries)
    (hclosed : queue.closed = s.queue.closed) : Fetches s { s with queue }
  | holds (queue : Queue) (e : QueueEntry) (rest : List QueueEntry)
    (hq : s.queue.entries = e :: rest ++ queue.entries) (hs : ∀ x ∈ rest, x.session = e.session)
    (hclosed : queue.closed = s.queue.closed) :
    Fetches s { s with queue, phase := .holding e.session ((e :: rest).map (·.test)) false }

theorem fetches_fetch (max : Nat) : s.Fetches (s.fetch max) := by
  rw [fetch]
  split
  · next hc => exact .quits _ rfl rfl (Or.inl hc)
  · have hask := s.queue.leave.asked_ask max
    cases hq : s.queue.leave.ask max with
    | mk queue delivery =>
      rw [hq] at hask
      cases hask with
      | closed hc => exact .quits _ rfl rfl (Or.inr hc)
      | waiting => exact .waits _ rfl rfl
      | batch e rest left hb hs => exact .holds _ e rest hb hs rfl

theorem sound_fetch (h : s.Sound) (hp : s.phase = .choosing) (max : Nat) :
    (s.fetch max).Sound := by
  have hf := s.fetches_fetch max
  generalize s.fetch max = t at hf ⊢
  cases hf with
  | quits queue _ hclosed hr =>
    -- A closed queue means that the shift is called off.
    have hc : s.cancelled = true := hr.elim id h.calledOff
    exact ⟨h.numbers, h.started, h.unheard, h.settled, fun _ => hc,
      fun hp => hclosed.trans (h.sentAway hp), fun _ => hc, by simp [Phase.isSwept], by simp,
      h.apart, by simp [Phase.isSwept]⟩
  | waits queue _ hclosed =>
    exact ⟨h.numbers, h.started, h.unheard, h.settled,
      fun hq => h.calledOff (hclosed.symm.trans hq), fun hp => hclosed.trans (h.sentAway hp),
      by simp [hp, Phase.isLate],
      by simp [hp, Phase.isSwept], by simp [hp], h.apart, by simp [hp, Phase.isSwept]⟩
  | holds queue e rest _ _ hclosed =>
    exact ⟨h.numbers, h.started, h.unheard, h.settled,
      fun hq => h.calledOff (hclosed.symm.trans hq), fun hp => hclosed.trans (h.sentAway hp),
      by simp [Phase.isLate], by simp [Phase.isSwept], by simp, h.apart, by simp [Phase.isSwept]⟩

/-- A batch gets the next number. -/
theorem sound_launch (h : s.Sound) (session : SessionId) (tests : List String) :
    (s.launch session tests).Sound := by
  have hfresh : s.started ∉ s.dispatches.map (·.number) := by
    intro hm
    obtain ⟨d, hd, hn⟩ := List.mem_map.mp hm
    have hlt := h.started d hd
    omega
  refine ⟨?_, ?_, ?_, ?_, h.calledOff, h.sentAway, ?_, ?_, ?_, ?_, ?_⟩
  · simp only [launch, List.map_append, List.map_cons, List.map_nil]
    rw [List.nodup_append]
    refine ⟨h.numbers, by simp, ?_⟩
    intro a ha b hb
    rw [List.mem_singleton.mp hb]
    rintro rfl
    exact hfresh ha
  · intro d hd
    rcases List.mem_append.mp hd with hd | hd
    · exact Nat.lt_succ_of_lt (h.started d hd)
    · rw [List.mem_singleton.mp hd]
      exact Nat.lt_succ_self s.started
  · intro d hd
    rcases List.mem_append.mp hd with hd | hd
    · exact h.unheard d hd
    · rw [List.mem_singleton.mp hd]
      exact fun _ => rfl
  · intro d hd
    rcases List.mem_append.mp hd with hd | hd
    · exact h.settled d hd
    · rw [List.mem_singleton.mp hd]
      simp [Stage.isBack]
  · simp [launch, Phase.isLate]
  · simp [launch, Phase.isSwept]
  · simp [launch]
  · refine ⟨h.apart.numbers, fun c hc => Nat.lt_succ_of_lt (h.apart.started c hc), ?_⟩
    intro c hc d hd
    rcases List.mem_append.mp hd with hd | hd
    · exact h.apart.gone c hc d hd
    · rw [List.mem_singleton.mp hd]
      exact Nat.ne_of_lt (h.apart.started c hc)
  · simp [launch, Phase.isSwept]

theorem sound_permits (h : s.Sound) (p : Permits) (hp : p.closed = s.permits.closed) :
    ({ s with permits := p } : Shift).Sound where
  numbers := h.numbers
  started := h.started
  unheard := h.unheard
  settled := h.settled
  calledOff := h.calledOff
  sentAway hc := h.sentAway (by rw [← hp]; exact hc)
  late := h.late
  swept := h.swept
  ended := h.ended
  apart := h.apart
  arrived := h.arrived

inductive Answers (s : Shift) : Bool → Permits → Grant → Prop
  | first (p : Permits) (grant : Grant) (h : s.permits.Requests s.cancelled ticket p grant) :
    Answers s false p grant
  | later (p : Permits) (grant : Grant) (h : s.permits.Polls s.cancelled ticket p grant) :
    Answers s true p grant

theorem Answers.closed_eq {asked : Bool} {p : Permits} {grant : Grant}
    (h : s.Answers asked p grant) : p.closed = s.permits.closed := by
  cases h with
  | first _ _ h => cases h <;> rfl
  | later _ _ h =>
    cases h with
    | refused _ hr hq => exact hq.keeps.2.2.2.2
    | waits => rfl
    | takes => rfl

/-- A permit is refused only when the shift is called off. -/
theorem Answers.cancelled {asked : Bool} {p : Permits} (h : s.Answers asked p .refused)
    (hsound : s.Sound) : s.cancelled = true := by
  have hr : s.cancelled = true ∨ s.permits.closed = true := by
    cases h with
    | first _ _ h => cases h with | refused hr => exact hr
    | later _ _ h => cases h with | refused _ hr => exact hr
  exact hr.elim id fun hc => hsound.calledOff (hsound.sentAway hc)

/-- What follows from the answer: the batch becomes a dispatch, or it waits on, or it is given
up. -/
inductive Allows (s : Shift) (now : Moment) (session : SessionId) (tests : List String)
    (asked : Bool) : Shift → Prop
  | launches (p : Permits) (h : s.Answers asked p .held) :
    Allows s now session tests asked ({ s with permits := p }.launch session tests)
  | waits (p : Permits) (h : s.Answers asked p .waiting) :
    Allows s now session tests asked { s with
      permits := p, phase := .holding session tests true }
  | quits (p : Permits) (h : s.Answers asked p .refused) :
    Allows s now session tests asked { s with
      permits := p, phase := .joining, errands := s.errands ++ abandon session tests now }

theorem allows_allow (now : Moment) (session : SessionId) (tests : List String) (asked : Bool) :
    s.Allows now session tests asked (s.allow now session tests asked) := by
  have hanswers : ∃ p grant, s.Answers asked p grant ∧
      (if asked then s.permits.pollUnless s.cancelled ticket
        else s.permits.requestUnless s.cancelled ticket) = (p, grant) := by
    cases asked with
    | false => exact ⟨_, _, .first _ _ (s.permits.requests_requestUnless s.cancelled ticket), rfl⟩
    | true => exact ⟨_, _, .later _ _ (s.permits.polls_pollUnless s.cancelled ticket), rfl⟩
  obtain ⟨p, grant, hanswer, heq⟩ := hanswers
  rw [allow, heq]
  cases grant with
  | held => exact .launches p hanswer
  | waiting => exact .waits p hanswer
  | refused => exact .quits p hanswer

theorem sound_allow (h : s.Sound) (now : Moment) (session : SessionId) (tests : List String)
    (asked : Bool) : (s.allow now session tests asked).Sound := by
  have ha := s.allows_allow now session tests asked
  generalize s.allow now session tests asked = t at ha ⊢
  cases ha with
  | launches p hp => exact sound_launch (sound_permits h p hp.closed_eq) session tests
  | waits p hp =>
    have hs := sound_permits h p hp.closed_eq
    exact ⟨hs.numbers, hs.started, hs.unheard, hs.settled, hs.calledOff, hs.sentAway,
      by simp [Phase.isLate], by simp [Phase.isSwept], by simp, hs.apart, by simp [Phase.isSwept]⟩
  | quits p hp =>
    have hs := sound_permits h p hp.closed_eq
    exact ⟨hs.numbers, hs.started, hs.unheard, hs.settled, hs.calledOff, hs.sentAway,
      fun _ => hp.cancelled h, by simp [Phase.isSwept], by simp, hs.apart, by simp [Phase.isSwept]⟩

/-- A dispatch that sends its permit back is gone, so no other has its number. -/
theorem apart_leave (h : s.Sound) (d : Dispatch) (hd : d ∈ s.dispatches) :
    Apart (s.leave d).started (s.leave d).dispatches (s.leave d).parting := by
  have hnew : d.number ∉ s.parting.map (·.number) := by
    intro hm
    obtain ⟨c, hc, hn⟩ := List.mem_map.mp hm
    exact h.apart.gone c hc d hd hn
  refine ⟨?_, ?_, ?_⟩
  · simp only [leave, List.map_append, List.map_cons, List.map_nil]
    exact h.apart.numbers.append (List.nodup_singleton _) (by simpa using hnew)
  · intro c hc
    rcases List.mem_append.mp hc with hc | hc
    · exact h.apart.started c hc
    · rw [List.mem_singleton.mp hc]
      exact h.started d hd
  · intro c hc b hb
    obtain ⟨hb, hne⟩ := List.mem_filter.mp hb
    rcases List.mem_append.mp hc with hc | hc
    · exact h.apart.gone c hc b hb
    · rw [List.mem_singleton.mp hc]
      exact fun heq => of_decide_eq_true hne heq.symm

/-- A permit on its way back may be settled, or be there no longer. -/
theorem Apart.of_sublist {l : List Parting} (h : Apart s.started s.dispatches s.parting)
    (hn : (l.map (·.number)).Sublist (s.parting.map (·.number))) :
    Apart s.started s.dispatches l := by
  have hmem (c : Parting) (hc : c ∈ l) : ∃ b ∈ s.parting, b.number = c.number :=
    List.mem_map.mp (hn.subset (List.mem_map_of_mem hc))
  refine ⟨h.numbers.sublist hn, fun c hc => ?_, fun c hc d hd => ?_⟩
  · obtain ⟨b, hb, hbc⟩ := hmem c hc
    rw [← hbc]
    exact h.started b hb
  · obtain ⟨b, hb, hbc⟩ := hmem c hc
    rw [← hbc]
    exact h.gone b hb d hd

/-- What a permit on its way back can change: the permits, and who else is on the way. -/
theorem Parts.exists_eq {c : Parting} {s' : Shift} (h : s.Parts c s') :
    ∃ p l, s' = { s with permits := p, parting := l } ∧ p.closed = s.permits.closed ∧
      (l.map (·.number)).Sublist (s.parting.map (·.number)) := by
  cases h with
  | destroyed p hs hp =>
    refine ⟨p, _, rfl, ?_, List.filter_sublist.map _⟩
    rw [(Permits.settle_eq_some hp).1]
  | passed hs hp =>
    refine ⟨s.permits, _, rfl, rfl, ?_⟩
    rw [List.map_map]
    have hsame : (fun b : Parting => b.number) ∘
        (fun b => if b.number = c.number then { b with settled := true } else b) =
          fun b : Parting => b.number := by
      funext b
      by_cases hb : b.number = c.number <;> simp [hb]
    rw [hsame]
  | arrived hs => exact ⟨s.permits.giveBack 1, _, rfl, rfl, List.filter_sublist.map _⟩

theorem sound_parts (h : s.Sound) (c : Parting) (hc : c ∈ s.parting) {s' : Shift}
    (hp : s.Parts c s') : s'.Sound := by
  obtain ⟨p, l, rfl, hclosed, hsub⟩ := hp.exists_eq
  have hunswept : s.phase.isSwept ≠ true := by
    intro hphase
    rw [h.arrived hphase] at hc
    exact List.not_mem_nil hc
  have hsound := sound_permits h p hclosed
  exact { hsound with
    apart := h.apart.of_sublist hsub
    arrived := fun hphase => absurd hphase hunswept }

/-- No step of a shift takes it out of its sound states. -/
theorem sound_works {settings : EngineSettings} {now : Moment} {hired : Option WorkerId}
    {s' : Shift} (h : s.Sound) (hw : s.Works settings now hired s') : s'.Sound := by
  cases hw with
  | closeQueue hc hq =>
    exact ⟨h.numbers, h.started, h.unheard, h.settled, fun _ => hc, fun _ => rfl, h.late, h.swept,
      h.ended, h.apart, h.arrived⟩
  | closePermits hq hp =>
    exact ⟨h.numbers, h.started, h.unheard, h.settled, h.calledOff, fun _ => hq, h.late, h.swept,
      h.ended, h.apart, h.arrived⟩
  | fetch he hp => exact sound_fetch h hp _
  | allow session tests asked he hp => exact sound_allow h now session tests asked
  | sweep he hp hd hparting =>
    have hc : s.cancelled = true := h.late (by rw [hp]; rfl)
    exact ⟨h.numbers, h.started, h.unheard, h.settled, h.calledOff, h.sentAway, fun _ => hc,
      fun _ => ⟨rfl, hd⟩, by simp [sweep], h.apart, fun _ => hparting⟩
  | finish he hp =>
    have hs := h.swept (by rw [hp]; rfl)
    have hc : s.cancelled = true := h.late (by rw [hp]; rfl)
    exact ⟨h.numbers, h.started, h.unheard, h.settled, h.calledOff, h.sentAway, fun _ => hc,
      fun _ => hs, fun _ => ⟨he, rfl⟩, h.apart, fun _ => h.arrived (by rw [hp]; rfl)⟩
  | checkout d healthy hd he hs =>
    have hearly : d.stage.isEarly = true := by rw [hs]; rfl
    refine sound_put h d _ _ _ hd rfl (fun _ => h.unheard d hd hearly) ?_
    intro hback
    cases hf : (Pool.takeIdle healthy s.pool.idle).1 with
    | some w => simp [hf, Stage.isBack] at hback
    | none => simp [hf, Stage.isBack] at hback
  | connected d w hd he hs =>
    exact sound_put h d _ _ s.retired hd rfl (by simp [Stage.isEarly]) (by simp [Stage.isBack])
  | unconnected d x hd he hs =>
    exact sound_put h d _ s.pool s.retired hd rfl (by simp [Stage.isEarly])
      fun _ => Docket.unfinished_finishAll_self _ _ _ _
  | hear d w news hd he hs =>
    refine sound_put h d _ s.pool s.retired hd rfl ?_ ?_ <;> simp [hs, Stage.isEarly, Stage.isBack]
  | conclude d w result hd he hs =>
    cases result with
    | ok =>
      exact sound_put h d _ s.pool s.retired hd rfl (by simp [Stage.isEarly])
        fun _ => Docket.unfinished_finishAll_self _ _ _ _
    | error x =>
      exact sound_put h d _ s.pool s.retired hd rfl (by simp [Stage.isEarly])
        fun _ => Docket.unfinished_finishAll_self _ _ _ _
  | callOff d w hd he hs hc =>
    exact sound_put h d _ s.pool s.retired hd rfl (by simp [Stage.isEarly])
      fun _ => Docket.unfinished_finishAll_self _ _ _ _
  | checkin d w broken healthy hd he hs =>
    have hback : d.stage.isBack = true := by rw [hs]; rfl
    exact sound_put h d _ _ _ hd rfl (by simp [Stage.isEarly]) fun _ => h.settled d hd hback
  | leave d hd he hs =>
    have hmem (c : Dispatch) (hc : c ∈ (s.leave d).dispatches) : c ∈ s.dispatches :=
      (List.mem_filter.mp hc).1
    have hunswept : s.phase.isSwept ≠ true := by
      intro hp
      rw [(h.swept hp).2] at hd
      exact List.not_mem_nil hd
    refine ⟨h.numbers.sublist (List.filter_sublist.map _), fun c hc => h.started c (hmem c hc),
      fun c hc => h.unheard c (hmem c hc), fun c hc => h.settled c (hmem c hc), h.calledOff,
      h.sentAway, h.late, fun hp => absurd hp hunswept, h.ended, apart_leave h d hd,
      fun hp => absurd hp hunswept⟩
  | parts c s' hc hparts => exact sound_parts h c hc hparts

/-- Doing errands changes none of this. -/
theorem sound_hands {x : Errand} {more : List Errand} {s' : Shift} (h : s.Sound)
    (hh : s.Hands x more s') : s'.Sound := by
  cases hh with
  | loop _ rest _ he =>
    refine ⟨h.numbers, h.started, h.unheard, h.settled, h.calledOff, h.sentAway, h.late, h.swept,
      ?_, h.apart, h.arrived⟩
    intro hp
    rw [(h.ended hp).1] at he
    cases he
  | dispatch d _ rest _ hd he =>
    exact sound_put h d _ s.pool s.retired hd rfl (h.unheard d hd) (h.settled d hd)

end Shift

end Retest
