import Retest.Proofs.Permits
import Retest.Proofs.ShiftState

/-! The permits of a shift: each dispatch has one of its own, from the moment it is made until the
permit is back, and nobody but the loop ever waits for another. -/

namespace Retest

def Phase.hasAsked : Phase → Bool
  | .holding _ _ asked => asked
  | .choosing | .joining | .sweeping | .over => false

namespace Shift

/-- The permits of a shift are accounted for: those in flight are those of its dispatches, others
are on their way back, and only the loop can be waiting for one, while it holds a batch. -/
structure Staffed (excess most : Nat) (s : Shift) : Prop where
  conserved : s.permits.Conserved s.parting.length excess most
  held : s.permits.inFlight = s.dispatches.length
  alone : s.permits.tickets = [] ∨ s.phase.hasAsked = true ∧ s.permits.tickets = [ticket]

def Frugal (s : Shift) : Prop := s.cancelled = false → s.permits.Spare

variable {s s' : Shift} {excess most : Nat}

theorem staffed_ofPermits (n : Nat) : (ofPermits (.ofLimit n)).Staffed 0 (Nat.max n 1) where
  conserved := Permits.conserved_ofLimit n
  held := rfl
  alone := Or.inl rfl

theorem frugal_ofPermits (n : Nat) : (ofPermits (.ofLimit n)).Frugal :=
  fun _ hd => absurd hd (Nat.lt_irrefl 0)

theorem Staffed.tickets (h : s.Staffed excess most) (hp : s.phase.hasAsked = false) :
    s.permits.tickets = [] := by
  rcases h.alone with hnone | ⟨hasked, -⟩
  · exact hnone
  · rw [hp] at hasked
    cases hasked

/-- What leaves the permits alone, and keeps as many dispatches, leaves them accounted for, if the
loop does not ask. -/
theorem Staffed.of_same (h : s.Staffed excess most) (hp : s'.permits = s.permits)
    (hd : s'.dispatches.length = s.dispatches.length) (hw : s'.parting = s.parting)
    (ha : s'.phase = s.phase ∨ s.phase.hasAsked = false) : s'.Staffed excess most where
  conserved := by rw [hp, hw]; exact h.conserved
  held := by rw [hp, hd]; exact h.held
  alone := by
    rw [hp]
    rcases ha with hsame | hno
    · rw [hsame]
      exact h.alone
    · exact Or.inl (h.tickets hno)

theorem length_put (s : Shift) (d : Dispatch) :
    (s.put d).dispatches.length = s.dispatches.length := List.length_map _

theorem staffed_put (h : s.Staffed excess most) (pool : Pool) (retired : List WorkerId)
    (d : Dispatch) :
    ({ s with pool, retired }.put d).Staffed excess most :=
  h.of_same rfl (length_put { s with pool, retired } d) rfl (Or.inl rfl)

theorem staffed_fetch (h : s.Staffed excess most) (hp : s.phase = .choosing) (max : Nat) :
    (s.fetch max).Staffed excess most := by
  have hno : s.phase.hasAsked = false := by rw [hp]; rfl
  have hf := s.fetches_fetch max
  generalize s.fetch max = t at hf ⊢
  cases hf with
  | quits queue _ _ _ => exact h.of_same rfl rfl rfl (Or.inr hno)
  | waits queue _ _ => exact h.of_same rfl rfl rfl (Or.inl rfl)
  | holds queue e rest _ _ _ => exact h.of_same rfl rfl rfl (Or.inr hno)

theorem Staffed.nodup (h : s.Staffed excess most) : s.permits.tickets.Nodup := by
  rcases h.alone with hnone | ⟨-, hone⟩
  · rw [hnone]
    exact List.nodup_nil
  · rw [hone]
    exact List.nodup_singleton ticket

theorem Staffed.eq_ticket (h : s.Staffed excess most) (t : Ticket) (ht : t ∈ s.permits.tickets) :
    t = ticket := by
  rcases h.alone with hnone | ⟨-, hone⟩
  · rw [hnone] at ht
    exact absurd ht List.not_mem_nil
  · rw [hone] at ht
    exact List.mem_singleton.mp ht

variable {session : SessionId} {tests : List String} {asked : Bool} {p : Permits}

/-- The permit that the loop gets goes to the dispatch that it makes. -/
theorem staffed_launches (h : s.Staffed excess most) (hasked : s.phase.hasAsked = asked)
    (hp : s.Answers asked p .held) :
    ({ s with permits := p }.launch session tests).Staffed excess most := by
  have hmore : p.supply = s.permits.supply ∧ p.limit = s.permits.limit ∧
      p.debt = s.permits.debt ∧ p.inFlight = s.permits.inFlight + 1 ∧ p.tickets = [] := by
    cases hp with
    | first _ _ hp =>
      cases hp with
      | takes n ho hf =>
        exact ⟨Permits.supply_take hf, rfl, rfl, rfl, h.tickets hasked⟩
    | later _ _ hp =>
      cases hp with
      | takes ho hg =>
        refine ⟨Permits.supply_collect hg, rfl, rfl, rfl, ?_⟩
        have hall : s.permits.tickets = [ticket] := by
          refine (h.alone.resolve_left ?_).2
          exact List.ne_nil_of_mem (List.mem_append_left _ hg)
        change s.permits.granted.erase ticket ++ s.permits.waiting = []
        rw [← List.erase_append_left _ hg]
        change s.permits.tickets.erase ticket = []
        rw [hall]
        rfl
  obtain ⟨hsupply, hlimit, hdebt, hin, htickets⟩ := hmore
  refine ⟨h.conserved.of_eq hsupply hlimit hdebt, ?_, Or.inl htickets⟩
  change p.inFlight = (s.dispatches ++ [_]).length
  rw [hin, h.held, List.length_append, List.length_singleton]

/-- If it has to wait, its ticket is the only one. -/
theorem staffed_waits (h : s.Staffed excess most) (hasked : s.phase.hasAsked = asked)
    (hp : s.Answers asked p .waiting) :
    ({ s with permits := p, phase := .holding session tests true } : Shift).Staffed excess
      most := by
  cases hp with
  | first _ _ hp =>
    cases hp with
    | waits ho hf =>
      refine ⟨h.conserved.of_eq rfl rfl rfl, h.held, Or.inr ⟨rfl, ?_⟩⟩
      change s.permits.granted ++ (s.permits.waiting ++ [ticket]) = [ticket]
      rw [← List.append_assoc]
      exact congrArg (· ++ [ticket]) (h.tickets hasked)
  | later _ _ hp =>
    cases hp with
    | waits ho hg =>
      exact ⟨h.conserved, h.held, h.alone.imp id fun hone => ⟨rfl, hone.2⟩⟩

/-- If it is refused, it takes its ticket along. -/
theorem staffed_quits (h : s.Staffed excess most) (hasked : s.phase.hasAsked = asked)
    (hp : s.Answers asked p .refused) (errands : List Errand) :
    ({ s with permits := p, phase := .joining, errands } : Shift).Staffed excess most := by
  cases hp with
  | first _ _ hp =>
    cases hp with
    | refused hr => exact h.of_same rfl rfl rfl (Or.inr hasked)
  | later _ _ hp =>
    cases hp with
    | refused _ hr hq =>
      obtain ⟨hsupply, hlimit, hdebt, hin, -⟩ := hq.keeps
      have hgone : p.tickets = [] := by
        rw [List.eq_nil_iff_forall_not_mem]
        intro t ht
        obtain ⟨hmem, hne⟩ := hq.mem_tickets h.nodup t ht
        exact hne (h.eq_ticket t hmem)
      exact ⟨h.conserved.of_eq hsupply hlimit hdebt, hin.trans h.held, Or.inl hgone⟩

theorem staffed_allow (h : s.Staffed excess most) (now : Moment)
    (hasked : s.phase.hasAsked = asked) :
    (s.allow now session tests asked).Staffed excess most := by
  have ha := s.allows_allow now session tests asked
  generalize s.allow now session tests asked = t at ha ⊢
  cases ha with
  | launches p hp => exact staffed_launches h hasked hp
  | waits p hp => exact staffed_waits h hasked hp
  | quits p hp => exact staffed_quits h hasked hp _

/-- A dispatch that is gone has sent its own permit back, and no other. -/
theorem staffed_leave (h : s.Staffed excess most) (hsound : s.Sound) (d : Dispatch)
    (hd : d ∈ s.dispatches) : (s.leave d).Staffed excess most := by
  have hpos : 0 < s.permits.inFlight := by
    rw [h.held]
    exact List.length_pos_of_mem hd
  have hone := length_takeOut (·.number) s.dispatches hsound.numbers d hd
  refine ⟨?_, ?_, h.alone⟩
  · change s.permits.countDown.Conserved (s.parting ++ [_]).length excess most
    rw [List.length_append, List.length_singleton]
    exact h.conserved.countDown hpos
  · have hin := h.held
    change s.permits.inFlight - 1 = (s.dispatches.filter _).length
    omega

/-- Each permit on its way back makes up for one that is missing, until it is back or destroyed. -/
theorem staffed_parts {c : Parting} (h : s.Staffed excess most) (hsound : s.Sound)
    (hc : c ∈ s.parting) (hp : s.Parts c s') : s'.Staffed excess most := by
  have hone := length_takeOut (·.number) s.parting hsound.apart.numbers c hc
  have hconserved := h.conserved
  rw [← hone] at hconserved
  cases hp with
  | destroyed p hs hp =>
    have hsame := (Permits.settle_eq_some hp).1
    refine ⟨hconserved.settle hp, ?_, ?_⟩
    · change p.inFlight = s.dispatches.length
      rw [hsame]
      exact h.held
    · change p.tickets = [] ∨ _ ∧ p.tickets = [ticket]
      rw [hsame]
      exact h.alone
  | passed hs hp =>
    refine ⟨?_, h.held, h.alone⟩
    change s.permits.Conserved (s.parting.map _).length excess most
    rw [List.length_map]
    exact h.conserved
  | arrived hs =>
    have hreturns := s.permits.returns_giveBack
    refine ⟨hconserved.returns hreturns, ?_, ?_⟩
    · exact hreturns.inFlight_eq.trans h.held
    · change (s.permits.giveBack 1).tickets = [] ∨ _ ∧ (s.permits.giveBack 1).tickets = [ticket]
      rw [hreturns.tickets_eq]
      exact h.alone

theorem staffed_works {settings : EngineSettings} {now : Moment} {hired : Option WorkerId}
    (h : s.Staffed excess most) (hsound : s.Sound) (hw : s.Works settings now hired s') :
    s'.Staffed excess most := by
  cases hw with
  | closeQueue hc hq => exact h.of_same rfl rfl rfl (Or.inl rfl)
  | closePermits hq hp =>
    refine ⟨h.conserved.close, h.held, ?_⟩
    -- Whoever waits is sent away; a permit that was set aside stays.
    change s.permits.granted ++ [] = [] ∨ _ ∧ s.permits.granted ++ [] = [ticket]
    rw [List.append_nil]
    rcases h.alone with hnone | ⟨hasked, hone⟩
    · exact Or.inl (List.append_eq_nil_iff.mp hnone).1
    · rcases List.append_eq_singleton_iff.mp hone with ⟨hgranted, -⟩ | ⟨hgranted, -⟩
      · exact Or.inl hgranted
      · exact Or.inr ⟨hasked, hgranted⟩
  | fetch he hp => exact staffed_fetch h hp _
  | allow session tests asked he hp =>
    have hasked : s.phase.hasAsked = asked := by rw [hp]; rfl
    exact staffed_allow h now hasked
  | sweep he hp hd hc => exact h.of_same rfl rfl rfl (Or.inr (by rw [hp]; rfl))
  | finish he hp => exact h.of_same rfl rfl rfl (Or.inr (by rw [hp]; rfl))
  | checkout d healthy hd he hs => exact staffed_put h _ _ _
  | connected d w hd he hs => exact staffed_put h _ _ _
  | unconnected d x hd he hs => exact staffed_put h _ _ _
  | hear d w news hd he hs => exact staffed_put h _ _ _
  | conclude d w result hd he hs =>
    cases result with
    | ok => exact staffed_put h _ _ _
    | error x => exact staffed_put h _ _ _
  | callOff d w hd he hs hc => exact staffed_put h _ _ _
  | checkin d w broken healthy hd he hs => exact staffed_put h _ _ _
  | leave d hd he hs => exact staffed_leave h hsound d hd
  | parts c _ hc hp => exact staffed_parts h hsound hc hp

theorem staffed_hands {x : Errand} {more : List Errand} (h : s.Staffed excess most)
    (hh : s.Hands x more s') : s'.Staffed excess most := by
  cases hh with
  | loop _ rest _ he => exact h.of_same rfl rfl rfl (Or.inl rfl)
  | dispatch d _ rest _ hd he => exact staffed_put h _ _ _

theorem staffed_adjusts (h : s.Staffed excess most) (n : Nat) {more bound : Nat}
    (hset : (s.permits.setLimit n).Conserved s.parting.length more bound) :
    ({ s with permits := s.permits.setLimit n } : Shift).Staffed more bound where
  conserved := hset
  held := (s.permits.inFlight_setLimit n).trans h.held
  alone := by
    rw [s.permits.tickets_setLimit n]
    exact h.alone

theorem Frugal.of_same (h : s.Frugal) (hf : s'.permits.free = s.permits.free)
    (hd : s'.permits.debt = s.permits.debt) (hc : s'.cancelled = s.cancelled) : s'.Frugal := by
  intro hopen
  rw [Permits.Spare, hf, hd]
  exact h (hc ▸ hopen)

theorem frugal_put (h : s.Frugal) (pool : Pool) (retired : List WorkerId) (d : Dispatch) :
    ({ s with pool, retired }.put d).Frugal := h.of_same rfl rfl rfl

/-- A permit that comes back to the loop when it is refused may add to the free ones, but then the
shift is called off. -/
theorem frugal_allow (h : s.Frugal) (hsound : s.Sound) (now : Moment) (asked : Bool) :
    (s.allow now session tests asked).Frugal := by
  have ha := s.allows_allow now session tests asked
  generalize s.allow now session tests asked = t at ha ⊢
  cases ha with
  | launches p hp =>
    cases hp with
    | first _ _ hp =>
      cases hp with
      | takes n ho hf =>
        intro hopen hd
        -- With a free permit none was owed.
        have hzero := h hopen hd
        omega
    | later _ _ hp =>
      cases hp with
      | takes ho hg => exact h.of_same rfl rfl rfl
  | waits p hp =>
    cases hp with
    | first _ _ hp => cases hp with | waits ho hf => exact h.of_same rfl rfl rfl
    | later _ _ hp => cases hp with | waits ho hg => exact h.of_same rfl rfl rfl
  | quits p hp =>
    intro hopen
    have hc : s.cancelled = false := hopen
    rw [hp.cancelled hsound] at hc
    cases hc

/-- A permit that was already settled, and arrives when one is owed again, is the only one that can
lie idle in spite of that. -/
theorem frugal_works {settings : EngineSettings} {now : Moment} {hired : Option WorkerId}
    (h : s.Frugal) (hsound : s.Sound) (hw : s.Works settings now hired s') :
    s'.Frugal ∨ 0 < s.permits.debt ∧ ∃ c ∈ s.parting, c.settled = true ∧ s' = s.giveBack c := by
  cases hw with
  | closeQueue hc hq => exact Or.inl (h.of_same rfl rfl rfl)
  | closePermits hq hp => exact Or.inl (h.of_same rfl rfl rfl)
  | fetch he hp =>
    have hf := s.fetches_fetch settings.batchSize
    generalize s.fetch settings.batchSize = t at hf ⊢
    cases hf <;> exact Or.inl (h.of_same rfl rfl rfl)
  | allow session tests asked he hp => exact Or.inl (frugal_allow h hsound now asked)
  | sweep he hp hd hc => exact Or.inl (h.of_same rfl rfl rfl)
  | finish he hp => exact Or.inl (h.of_same rfl rfl rfl)
  | checkout d healthy hd he hs => exact Or.inl (frugal_put h _ _ _)
  | connected d w hd he hs => exact Or.inl (frugal_put h _ _ _)
  | unconnected d x hd he hs => exact Or.inl (frugal_put h _ _ _)
  | hear d w news hd he hs => exact Or.inl (frugal_put h _ _ _)
  | conclude d w result hd he hs =>
    cases result with
    | ok => exact Or.inl (frugal_put h _ _ _)
    | error x => exact Or.inl (frugal_put h _ _ _)
  | callOff d w hd he hs hc => exact Or.inl (frugal_put h _ _ _)
  | checkin d w broken healthy hd he hs => exact Or.inl (frugal_put h _ _ _)
  | leave d hd he hs => exact Or.inl (h.of_same rfl rfl rfl)
  | parts c _ hc hp =>
    cases hp with
    | destroyed p hs hp =>
      left
      obtain ⟨hsame, hless⟩ := Permits.settle_eq_some hp
      intro hopen hd
      have hfree : p.free = s.permits.free := by rw [hsame]
      have howed : 0 < p.debt := hd
      exact hfree.trans (h hopen (by omega))
    | passed hs hp => exact Or.inl (h.of_same rfl rfl rfl)
    | arrived hs =>
      by_cases hd : 0 < s.permits.debt
      · exact Or.inr ⟨hd, c, hc, hs, rfl⟩
      · exact Or.inl fun _ howed => absurd howed hd

theorem frugal_hands {x : Errand} {more : List Errand} (h : s.Frugal) (hh : s.Hands x more s') :
    s'.Frugal := by
  cases hh <;> exact h.of_same rfl rfl rfl

theorem frugal_setLimit (h : s.Frugal) (hsound : s.Sound) (n : Nat) :
    ({ s with permits := s.permits.setLimit n } : Shift).Frugal := by
  intro hc
  have hopen : s.permits.closed = false := by
    rw [← Bool.not_eq_true]
    intro hclosed
    have hcancelled : s.cancelled = false := hc
    rw [hsound.calledOff (hsound.sentAway hclosed)] at hcancelled
    cases hcancelled
  exact (h hc).setLimit hopen n

/-- With nobody there and no permit on its way, all permits are free, and those that are owed are
among them. -/
theorem Staffed.restored (h : s.Staffed excess most) (hd : s.dispatches = [])
    (hw : s.parting = []) (hp : s.phase.hasAsked = false) :
    s.permits.inFlight = 0 ∧ s.permits.free = s.permits.limit + s.permits.debt + excess := by
  have hin : s.permits.inFlight = 0 := by rw [h.held, hd, List.length_nil]
  have hgranted : s.permits.granted = [] := (List.append_eq_nil_iff.mp (h.tickets hp)).1
  have hbalance := h.conserved.balance
  rw [Permits.supply, hin, hgranted, hw] at hbalance
  exact ⟨hin, by simpa using hbalance⟩

/-- If none is owed that lies idle, there are as many as the limit says. -/
theorem Staffed.debt_eq_zero (h : s.Staffed excess most) (hf : s.Frugal) (hc : s.cancelled = false)
    (hd : s.dispatches = []) (hw : s.parting = []) (hp : s.phase.hasAsked = false) :
    s.permits.debt = 0 := by
  have hfree := (h.restored hd hw hp).2
  have hpositive := h.conserved.positive
  exact (hf hc).debt_eq_zero (by omega)

end Shift

end Retest
