import Mathlib.Data.Finset.Max
import Mathlib.Data.List.Induction
import Retest.Proofs.Permits

namespace Retest

/-- A claim without an answer. One that can be called off has a flag; one that has been polled has
asked for its permit. -/
structure Claim where
  ticket : Ticket
  flag : Option Bool
  asked : Bool := false
  deriving DecidableEq

def Claim.calledOff (c : Claim) : Bool := c.flag.getD false

/-- The permits, the claims on them, and the tickets that hold one. Tickets are numbered in the
order in which the claims were made. -/
structure ConcurrencyController where
  permits : Permits
  next : Ticket := 0
  claims : List Claim := []
  held : List Ticket := []

/-- What can be done to the permits: a claim is made, polled, dropped, or told that it is called off
(or not any more), a held permit comes back, a limit is asked for, and the supply is closed. -/
inductive PermitMove where
  | claim (flag : Option Bool)
  | poll (t : Ticket)
  | withdraw (t : Ticket)
  | signal (t : Ticket) (value : Bool)
  | release (t : Ticket)
  | setLimit (n : Nat)
  | close
  deriving DecidableEq

namespace PermitMove

def limit? : PermitMove → Option Nat
  | .setLimit n => some n
  | _ => none

/-- The limits that were asked for, the first one included. -/
def requested (n : Nat) (moves : List PermitMove) : List Nat := n :: moves.filterMap limit?

theorem requested_concat (n : Nat) (moves : List PermitMove) (m : PermitMove) :
    requested n (moves ++ [m]) = requested n moves ++ m.limit?.toList := by
  cases hm : m.limit? <;> simp [requested, hm]

end PermitMove
open PermitMove

namespace ConcurrencyController

def claim? (h : ConcurrencyController) (t : Ticket) : Option Claim :=
  h.claims.find? fun c => c.ticket = t

def without (h : ConcurrencyController) (t : Ticket) : List Claim :=
  h.claims.filter fun c => c.ticket ≠ t

def changed (h : ConcurrencyController) (t : Ticket) (f : Claim → Claim) : List Claim :=
  h.claims.map fun c => if c.ticket = t then f c else c

def ask (h : ConcurrencyController) (c : Claim) : Permits × Grant :=
  if c.asked then h.permits.pollUnless c.calledOff c.ticket
  else h.permits.requestUnless c.calledOff c.ticket

def answer (h : ConcurrencyController) (c : Claim) : ConcurrencyController :=
  match h.ask c with
  | (permits, .held) =>
    { h with permits, claims := h.without c.ticket, held := h.held ++ [c.ticket] }
  | (permits, .waiting) =>
    { h with permits, claims := h.changed c.ticket fun d => { d with asked := true } }
  | (permits, .refused) => { h with permits, claims := h.without c.ticket }

def dismiss (h : ConcurrencyController) (c : Claim) : ConcurrencyController :=
  { h with
    permits := if c.asked then h.permits.abandon c.ticket else h.permits
    claims := h.without c.ticket }

/-- What a move leads to; one that is not possible changes nothing. -/
def act (h : ConcurrencyController) : PermitMove → ConcurrencyController
  | .claim flag => { h with next := h.next + 1, claims := h.claims ++ [⟨h.next, flag, false⟩] }
  | .poll t => ((h.claim? t).map h.answer).getD h
  | .withdraw t => ((h.claim? t).map h.dismiss).getD h
  | .signal t value =>
    { h with claims := h.changed t fun c => { c with flag := c.flag.map fun _ => value } }
  | .release t =>
    if t ∈ h.held then { h with permits := h.permits.release, held := h.held.erase t } else h
  | .setLimit n => { h with permits := h.permits.setLimit n }
  | .close => { h with permits := h.permits.close }

def run (h : ConcurrencyController) (moves : List PermitMove) : ConcurrencyController :=
  moves.foldl act h

def after (n : Nat) (moves : List PermitMove) : ConcurrencyController :=
  run { permits := .ofLimit n } moves

def refuses (h : ConcurrencyController) (m : PermitMove) : Bool := m.limit?.any h.permits.refuses

/-- None of some moves fails. -/
def unrefused (h : ConcurrencyController) : List PermitMove → Bool
  | [] => true
  | m :: rest => !h.refuses m && (h.act m).unrefused rest

def limitsSet (h : ConcurrencyController) : List PermitMove → List Nat
  | [] => []
  | m :: rest => (if h.refuses m then none else m.limit?).toList ++ (h.act m).limitsSet rest

theorem run_append (h : ConcurrencyController) (l m : List PermitMove) :
    h.run (l ++ m) = (h.run l).run m :=
  List.foldl_append

/-- What one move can do. A claim goes away unanswered, or it joins the queue, or it gets a permit
that was free or that was set aside for it. -/
inductive Moves (h : ConcurrencyController) : PermitMove → ConcurrencyController → Prop
  | idle (m : PermitMove) (hm : m.limit? = none) : Moves h m h
  | enters (flag : Option Bool) : Moves h (.claim flag)
    { h with next := h.next + 1, claims := h.claims ++ [⟨h.next, flag, false⟩] }
  | marks (m : PermitMove) (hm : m.limit? = none) (t : Ticket) (f : Claim → Claim)
    (hf : ∀ c, (f c).ticket = c.ticket) (ha : ∀ c, c.asked = true → (f c).asked = true) :
    Moves h m { h with claims := h.changed t f }
  | parts (m : PermitMove) (hm : m.limit? = none) (c : Claim) (hc : c ∈ h.claims)
    (ha : c.asked = false) : Moves h m { h with claims := h.without c.ticket }
  | leaves (m : PermitMove) (hm : m.limit? = none) (c : Claim) (q : Permits) (hc : c ∈ h.claims)
    (ha : c.asked = true) (hq : h.permits.Abandons c.ticket q) :
    Moves h m { h with permits := q, claims := h.without c.ticket }
  | queues (c : Claim) (hc : c ∈ h.claims) (ha : c.asked = false) (ho : h.permits.closed = false)
    (hf : h.permits.free = 0) : Moves h (.poll c.ticket)
      { h with
        permits := { h.permits with waiting := h.permits.waiting ++ [c.ticket] }
        claims := h.changed c.ticket fun d => { d with asked := true } }
  | takes (c : Claim) (n : Nat) (hc : c ∈ h.claims) (ha : c.asked = false)
    (ho : h.permits.closed = false) (hf : h.permits.free = n + 1) : Moves h (.poll c.ticket)
      { h with
        permits := { h.permits with free := n, inFlight := h.permits.inFlight + 1 }
        claims := h.without c.ticket
        held := h.held ++ [c.ticket] }
  | collects (c : Claim) (hc : c ∈ h.claims) (ha : c.asked = true)
    (ho : h.permits.closed = false) (hg : c.ticket ∈ h.permits.granted) :
    Moves h (.poll c.ticket)
      { h with
        permits := { h.permits with
          granted := h.permits.granted.erase c.ticket, inFlight := h.permits.inFlight + 1 }
        claims := h.without c.ticket
        held := h.held ++ [c.ticket] }
  | releases (t : Ticket) (q : Permits) (ht : t ∈ h.held) (hq : h.permits.Releases q) :
    Moves h (.release t) { h with permits := q, held := h.held.erase t }
  | adjusts (n : Nat) : Moves h (.setLimit n) { h with permits := h.permits.setLimit n }
  | closes : Moves h .close { h with permits := h.permits.close }

variable (h : ConcurrencyController)

theorem mem_of_claim {t : Ticket} {c : Claim} (hc : h.claim? t = some c) :
    c ∈ h.claims ∧ c.ticket = t :=
  ⟨List.mem_of_find?_eq_some hc, by simpa using List.find?_some hc⟩

theorem moves_answer (c : Claim) (hc : c ∈ h.claims) : h.Moves (.poll c.ticket) (h.answer c) := by
  unfold answer ask
  cases ha : c.asked with
  | false =>
    have hreq := h.permits.requests_requestUnless c.calledOff c.ticket
    simp only [Bool.false_eq_true, if_false]
    cases hg : h.permits.requestUnless c.calledOff c.ticket with
    | mk q grant =>
      rw [hg] at hreq
      cases hreq with
      | refused hr => exact .parts _ rfl c hc ha
      | waits ho hf => exact .queues c hc ha ho hf
      | takes n ho hf => exact .takes c n hc ha ho hf
  | true =>
    have hpoll := h.permits.polls_pollUnless c.calledOff c.ticket
    simp only [if_true]
    cases hg : h.permits.pollUnless c.calledOff c.ticket with
    | mk q grant =>
      rw [hg] at hpoll
      cases hpoll with
      | refused _ hr hq => exact .leaves _ rfl c q hc ha hq
      | waits ho hno => exact .marks _ rfl c.ticket _ (fun _ => rfl) fun _ _ => rfl
      | takes ho hmem => exact .collects c hc ha ho hmem

theorem moves_dismiss (m : PermitMove) (hm : m.limit? = none) (c : Claim) (hc : c ∈ h.claims) :
    h.Moves m (h.dismiss c) := by
  unfold dismiss
  cases ha : c.asked with
  | false => exact .parts m hm c hc ha
  | true => exact .leaves m hm c _ hc ha (h.permits.abandons_abandon c.ticket)

theorem moves_act (m : PermitMove) : h.Moves m (h.act m) := by
  cases m with
  | claim flag => exact .enters flag
  | poll t =>
    rw [act]
    cases hc : h.claim? t with
    | none => exact .idle _ rfl
    | some c =>
      obtain ⟨hmem, rfl⟩ := h.mem_of_claim hc
      exact h.moves_answer c hmem
  | withdraw t =>
    rw [act]
    cases hc : h.claim? t with
    | none => exact .idle _ rfl
    | some c => exact h.moves_dismiss _ rfl c (h.mem_of_claim hc).1
  | signal t value => exact .marks _ rfl t _ (fun _ => rfl) fun _ ha => ha
  | release t =>
    rw [act]
    split
    · next ht => exact .releases t _ ht h.permits.releases_release
    · exact .idle _ rfl
  | setLimit n => exact .adjusts n
  | close => exact .closes

/-- What is true of a supply and those who deal with it: the permits are conserved, those in flight
are the held ones, and whoever waits or has a permit set aside is a claim that has asked and has no
answer. -/
structure Orderly (excess most : Nat) (h : ConcurrencyController) : Prop where
  conserved : h.permits.Conserved 0 excess most
  holders : h.permits.inFlight = h.held.length
  numbers : (h.claims.map (·.ticket)).Nodup
  fresh : ∀ c ∈ h.claims, c.ticket < h.next
  old : ∀ t ∈ h.held, t < h.next
  apart : ∀ c ∈ h.claims, c.ticket ∉ h.held
  claimed : ∀ t ∈ h.permits.tickets, ∃ c ∈ h.claims, c.ticket = t ∧ c.asked = true
  distinct : h.permits.tickets.Nodup

theorem orderly_start (n : Nat) : Orderly 0 (Nat.max n 1) { permits := .ofLimit n } where
  conserved := Permits.conserved_ofLimit n
  holders := rfl
  numbers := List.nodup_nil
  fresh _ hc := absurd hc List.not_mem_nil
  old _ ht := absurd ht List.not_mem_nil
  apart _ hc := absurd hc List.not_mem_nil
  claimed _ ht := absurd ht List.not_mem_nil
  distinct := List.nodup_nil

variable {h} {excess most : Nat}

theorem mem_without {t : Ticket} {c : Claim} :
    c ∈ h.without t ↔ c ∈ h.claims ∧ c.ticket ≠ t := by
  simp [without]

theorem tickets_changed (t : Ticket) (f : Claim → Claim) (hf : ∀ c, (f c).ticket = c.ticket) :
    (h.changed t f).map (·.ticket) = h.claims.map (·.ticket) := by
  rw [changed, List.map_map]
  refine List.map_congr_left fun c _ => ?_
  by_cases hc : c.ticket = t <;> simp [hc, hf]

theorem mem_changed {t : Ticket} {f : Claim → Claim} (hf : ∀ c, (f c).ticket = c.ticket)
    {c : Claim} (hc : c ∈ h.changed t f) : ∃ d ∈ h.claims, d.ticket = c.ticket := by
  have hmem : c.ticket ∈ (h.changed t f).map (·.ticket) := List.mem_map_of_mem hc
  rw [tickets_changed t f hf] at hmem
  exact List.mem_map.mp hmem

/-- Claims may be changed as long as none that has asked forgets it. -/
theorem Orderly.changed (ho : h.Orderly excess most) (t : Ticket) (f : Claim → Claim)
    (hf : ∀ c, (f c).ticket = c.ticket) (ha : ∀ c, c.asked = true → (f c).asked = true) :
    Orderly excess most { h with claims := h.changed t f } where
  conserved := ho.conserved
  holders := ho.holders
  numbers := by
    rw [tickets_changed t f hf]
    exact ho.numbers
  fresh c hc := by
    obtain ⟨d, hd, hdc⟩ := mem_changed hf hc
    rw [← hdc]
    exact ho.fresh d hd
  old := ho.old
  apart c hc := by
    obtain ⟨d, hd, hdc⟩ := mem_changed hf hc
    rw [← hdc]
    exact ho.apart d hd
  claimed u hu := by
    obtain ⟨c, hc, hcu, hask⟩ := ho.claimed u hu
    refine ⟨if c.ticket = t then f c else c, List.mem_map_of_mem hc, ?_, ?_⟩
    · split
      · rw [hf, hcu]
      · exact hcu
    · split
      · exact ha c hask
      · exact hask
  distinct := ho.distinct

theorem Orderly.without (ho : h.Orderly excess most) (t : Ticket) (q : Permits)
    (hq : q.Conserved 0 excess most) (hin : q.inFlight = h.permits.inFlight)
    (hmem : ∀ u ∈ q.tickets, u ∈ h.permits.tickets ∧ u ≠ t) (hn : q.tickets.Nodup) :
    Orderly excess most { h with permits := q, claims := h.without t } where
  conserved := hq
  holders := hin.trans ho.holders
  numbers := ho.numbers.sublist (List.filter_sublist.map _)
  fresh c hc := ho.fresh c (mem_without.mp hc).1
  old := ho.old
  apart c hc := ho.apart c (mem_without.mp hc).1
  claimed u hu := by
    obtain ⟨hold, hne⟩ := hmem u hu
    obtain ⟨c, hc, hcu, hask⟩ := ho.claimed u hold
    have hct : c.ticket ≠ t := by
      rw [hcu]
      exact hne
    exact ⟨c, mem_without.mpr ⟨hc, hct⟩, hcu, hask⟩
  distinct := hn

/-- A claim gets a permit, and its ticket holds it from now on. -/
theorem Orderly.served (ho : h.Orderly excess most) (c : Claim) (hc : c ∈ h.claims) (q : Permits)
    (hq : q.Conserved 0 excess most) (hin : q.inFlight = h.permits.inFlight + 1)
    (hmem : ∀ u ∈ q.tickets, u ∈ h.permits.tickets ∧ u ≠ c.ticket) (hn : q.tickets.Nodup) :
    Orderly excess most
      { h with permits := q, claims := h.without c.ticket, held := h.held ++ [c.ticket] } where
  conserved := hq
  holders := by rw [hin, ho.holders, List.length_append, List.length_singleton]
  numbers := ho.numbers.sublist (List.filter_sublist.map _)
  fresh d hd := ho.fresh d (mem_without.mp hd).1
  old t ht := by
    rcases List.mem_append.mp ht with ht | ht
    · exact ho.old t ht
    · rw [List.mem_singleton.mp ht]
      exact ho.fresh c hc
  apart d hd ht := by
    obtain ⟨hd, hne⟩ := mem_without.mp hd
    rcases List.mem_append.mp ht with ht | ht
    · exact ho.apart d hd ht
    · exact hne (List.mem_singleton.mp ht)
  claimed u hu := by
    obtain ⟨hold, hne⟩ := hmem u hu
    obtain ⟨d, hd, hdu, hask⟩ := ho.claimed u hold
    have hdt : d.ticket ≠ c.ticket := by
      rw [hdu]
      exact hne
    exact ⟨d, mem_without.mpr ⟨hd, hdt⟩, hdu, hask⟩
  distinct := hn

/-- A claim that has not asked yet has no place in the queue. -/
theorem Orderly.not_mem_tickets (ho : h.Orderly excess most) (c : Claim) (hc : c ∈ h.claims)
    (ha : c.asked = false) : c.ticket ∉ h.permits.tickets := by
  intro hmem
  obtain ⟨d, hd, hdc, hask⟩ := ho.claimed c.ticket hmem
  have hsame : d = c := List.inj_on_of_nodup_map ho.numbers hd hc hdc
  rw [hsame, ha] at hask
  cases hask

theorem nodup_erase_granted (p : Permits) (t : Ticket) (hn : p.tickets.Nodup) :
    ({ p with granted := p.granted.erase t, inFlight := p.inFlight + 1 } : Permits).tickets.Nodup :=
  hn.sublist (List.erase_sublist.append_right _)

theorem Orderly.entered (ho : h.Orderly excess most) (flag : Option Bool) :
    Orderly excess most
      { h with next := h.next + 1, claims := h.claims ++ [⟨h.next, flag, false⟩] } := by
  have hnew : h.next ∉ h.claims.map (·.ticket) := by
    intro hmem
    obtain ⟨c, hc, hcn⟩ := List.mem_map.mp hmem
    have hlt := ho.fresh c hc
    rw [hcn] at hlt
    exact Nat.lt_irrefl _ hlt
  refine ⟨ho.conserved, ho.holders, ?_, ?_, ?_, ?_, ?_, ho.distinct⟩
  · simp only [List.map_append, List.map_cons, List.map_nil]
    exact ho.numbers.append (List.nodup_singleton _) (by simpa using hnew)
  · intro c hc
    rcases List.mem_append.mp hc with hc | hc
    · exact Nat.lt_succ_of_lt (ho.fresh c hc)
    · rw [List.mem_singleton.mp hc]
      exact Nat.lt_succ_self h.next
  · intro t ht
    exact Nat.lt_succ_of_lt (ho.old t ht)
  · intro c hc
    rcases List.mem_append.mp hc with hc | hc
    · exact ho.apart c hc
    · rw [List.mem_singleton.mp hc]
      exact fun ht => Nat.lt_irrefl h.next (ho.old h.next ht)
  · intro t ht
    obtain ⟨c, hc, hct⟩ := ho.claimed t ht
    exact ⟨c, List.mem_append_left _ hc, hct⟩

/-- A claim that asks and has to wait is the last in the queue. -/
theorem Orderly.queued (ho : h.Orderly excess most) (c : Claim) (hc : c ∈ h.claims)
    (ha : c.asked = false) : Orderly excess most { h with
      permits := { h.permits with waiting := h.permits.waiting ++ [c.ticket] }
      claims := h.changed c.ticket fun d => { d with asked := true } } := by
  have hno := ho.not_mem_tickets c hc ha
  have hmarked := ho.changed c.ticket (fun d => { d with asked := true }) (fun _ => rfl)
    fun _ _ => rfl
  have hlonger : ({ h.permits with waiting := h.permits.waiting ++ [c.ticket] } :
      Permits).tickets = h.permits.tickets ++ [c.ticket] := by
    simp only [Permits.tickets, List.append_assoc]
  refine ⟨ho.conserved.of_eq rfl rfl rfl, ho.holders, hmarked.numbers, hmarked.fresh, hmarked.old,
    hmarked.apart, ?_, ?_⟩
  · intro t ht
    rw [hlonger] at ht
    rcases List.mem_append.mp ht with ht | ht
    · exact hmarked.claimed t ht
    · rw [List.mem_singleton.mp ht]
      refine ⟨{ c with asked := true }, ?_, rfl, rfl⟩
      refine List.mem_map.mpr ⟨c, hc, ?_⟩
      rw [if_pos rfl]
  · rw [hlonger]
    exact ho.distinct.append (List.nodup_singleton _) (by simpa using hno)

/-- No move leads out of the orderly states, a new limit apart. -/
theorem orderly_moves {m : PermitMove} {h' : ConcurrencyController} (ho : h.Orderly excess most)
    (hm : h.Moves m h') (hlimit : m.limit? = none) : h'.Orderly excess most := by
  have hcons := ho.conserved
  cases hm with
  | idle => exact ho
  | enters flag => exact ho.entered flag
  | marks _ _ t f hf ha => exact ho.changed t f hf ha
  | parts _ _ c hc ha =>
    have hno := ho.not_mem_tickets c hc ha
    refine ho.without c.ticket h.permits hcons rfl (fun u hu => ⟨hu, ?_⟩) ho.distinct
    rintro rfl
    exact hno hu
  | leaves _ _ c q hc ha hq =>
    obtain ⟨hs, hl, hd, hi, -⟩ := hq.keeps
    exact ho.without c.ticket q (hcons.of_eq hs hl hd) hi (hq.mem_tickets ho.distinct)
      (hq.nodup ho.distinct)
  | queues c hc ha hopen hf => exact ho.queued c hc ha
  | takes c n hc ha hopen hf =>
    have hno := ho.not_mem_tickets c hc ha
    have hs := Permits.supply_take hf
    refine ho.served c hc _ (hcons.of_eq hs rfl rfl) rfl (fun u hu => ⟨hu, ?_⟩) ho.distinct
    rintro rfl
    exact hno hu
  | collects c hc ha hopen hg =>
    have hs := Permits.supply_collect hg
    refine ho.served c hc _ (hcons.of_eq hs rfl rfl) rfl ?_
      (nodup_erase_granted h.permits c.ticket ho.distinct)
    intro u hu
    have hsplit := List.nodup_append.mp ho.distinct
    rcases List.mem_append.mp hu with hu | hu
    · have hu := (List.Nodup.mem_erase_iff hsplit.1).mp hu
      exact ⟨List.mem_append_left _ hu.2, hu.1⟩
    · exact ⟨List.mem_append_right _ hu, (hsplit.2.2 c.ticket hg u hu).symm⟩
  | releases t q ht hq =>
    have hpos : 0 < h.permits.inFlight := by
      rw [ho.holders]
      exact List.length_pos_of_mem ht
    obtain ⟨hcons', hless⟩ := hcons.release hpos hq
    have htickets := hq.tickets_eq
    refine ⟨hcons', ?_, ho.numbers, ho.fresh, ?_, ?_, ?_, ?_⟩
    · have hheld := ho.holders
      change q.inFlight = (h.held.erase t).length
      rw [List.length_erase_of_mem ht]
      omega
    · exact fun u hu => ho.old u (List.mem_of_mem_erase hu)
    · exact fun c hc hu => ho.apart c hc (List.mem_of_mem_erase hu)
    · rw [htickets]
      exact ho.claimed
    · rw [htickets]
      exact ho.distinct
  | adjusts n => cases hlimit
  | closes =>
    -- Whoever waits is sent away, and a permit that was set aside stays so.
    have hsub : h.permits.close.tickets.Sublist h.permits.tickets :=
      (List.nil_sublist _).append_left _
    refine ⟨hcons.close, ho.holders, ho.numbers, ho.fresh, ho.old, ho.apart, ?_, ?_⟩
    · exact fun t ht => ho.claimed t (hsub.subset ht)
    · exact ho.distinct.sublist hsub

/-- Nor does a new limit, if the permits are conserved by it. -/
theorem Orderly.setLimit {excess' most' : Nat} (ho : h.Orderly excess most) (n : Nat)
    (hc : (h.permits.setLimit n).Conserved 0 excess' most') :
    (h.act (.setLimit n)).Orderly excess' most' := by
  have htickets := h.permits.tickets_setLimit n
  refine ⟨hc, (h.permits.inFlight_setLimit n).trans ho.holders, ho.numbers, ho.fresh, ho.old,
    ho.apart, ?_, ?_⟩
  · change ∀ t ∈ (h.permits.setLimit n).tickets, _
    rw [htickets]
    exact ho.claimed
  · change (h.permits.setLimit n).tickets.Nodup
    rw [htickets]
    exact ho.distinct

/-- What a move that does not fail leaves, where the new limit counts among the allowed ones. -/
theorem orderly_act (ho : h.Orderly excess most) (m : PermitMove) (hr : h.refuses m = false)
    (hmost : ∀ n, m = .setLimit n → Nat.max n 1 + excess ≤ most) :
    (h.act m).Orderly excess most := by
  cases hm : m.limit? with
  | none => exact orderly_moves ho (h.moves_act m) hm
  | some n =>
    cases m with
    | setLimit k =>
      have hset := ho.conserved.setLimit (n := k) (by simpa [refuses, limit?] using hr)
      exact ho.setLimit k (hset.mono (Nat.max_le.mpr ⟨Nat.le_refl most, hmost k rfl⟩))
    | _ => cases hm

/-- In every run the states are orderly, with as many spare permits as its failures left. -/
theorem exists_orderly_act (ho : h.Orderly excess most) (m : PermitMove) :
    ∃ excess' most', (h.act m).Orderly excess' most' := by
  cases m with
  | setLimit n =>
    cases hr : h.permits.refuses n with
    | false => exact ⟨_, _, ho.setLimit n (ho.conserved.setLimit hr)⟩
    | true =>
      obtain ⟨more, hc⟩ := ho.conserved.refused hr
      exact ⟨_, _, ho.setLimit n hc⟩
  | _ => exact ⟨excess, most, orderly_moves ho (h.moves_act _) rfl⟩

theorem run_concat (h : ConcurrencyController) (moves : List PermitMove) (m : PermitMove) :
    h.run (moves ++ [m]) = (h.run moves).act m := by
  rw [run_append]
  rfl

theorem unrefused_concat (h : ConcurrencyController) (moves : List PermitMove) (m : PermitMove) :
    h.unrefused (moves ++ [m]) = true ↔
      h.unrefused moves = true ∧ (h.run moves).refuses m = false := by
  induction moves generalizing h with
  | nil => simp [unrefused, run]
  | cons m' moves ih =>
    have htail := ih (h.act m')
    change (!h.refuses m' && (h.act m').unrefused (moves ++ [m])) = true ↔
      (!h.refuses m' && (h.act m').unrefused moves) = true ∧
        ((h.act m').run moves).refuses m = false
    rw [Bool.and_eq_true, htail, Bool.and_eq_true, and_assoc]

theorem limitsSet_concat (h : ConcurrencyController) (moves : List PermitMove) (m : PermitMove) :
    h.limitsSet (moves ++ [m]) =
      h.limitsSet moves ++ (if (h.run moves).refuses m then none else m.limit?).toList := by
  induction moves generalizing h with
  | nil => exact List.append_nil _
  | cons m' moves ih =>
    change _ ++ (h.act m').limitsSet (moves ++ [m]) = _ ++ (h.act m').limitsSet moves ++ _
    rw [ih, List.append_assoc]
    rfl

theorem exists_orderly_after (n : Nat) (moves : List PermitMove) :
    ∃ excess most, (after n moves).Orderly excess most := by
  induction moves using List.reverseRecOn with
  | nil => exact ⟨_, _, orderly_start n⟩
  | append_singleton moves m ih =>
    obtain ⟨excess, most, ho⟩ := ih
    rw [after, run_concat]
    exact exists_orderly_act ho m

theorem orderly_after (n : Nat) (moves : List PermitMove) (most : Nat)
    (hgo : unrefused { permits := .ofLimit n } moves = true)
    (hmost : ∀ k ∈ requested n moves, Nat.max k 1 ≤ most) : (after n moves).Orderly 0 most := by
  induction moves using List.reverseRecOn with
  | nil =>
    have hn : Nat.max n 1 ≤ most := hmost n List.mem_cons_self
    have hstart := orderly_start n
    exact { hstart with conserved := hstart.conserved.mono hn }
  | append_singleton moves m ih =>
    rw [requested_concat] at hmost
    obtain ⟨hgo, hlast⟩ := (unrefused_concat _ moves m).mp hgo
    have hbefore := ih hgo fun k hk => hmost k (List.mem_append_left _ hk)
    rw [after, run_concat]
    refine orderly_act hbefore m hlast ?_
    rintro k rfl
    exact hmost k (by simp [limit?])

theorem limit_moves {m : PermitMove} {h h' : ConcurrencyController} (hm : h.Moves m h') :
    h'.permits.limit =
      ((if h.refuses m then none else m.limit?).map fun k => Nat.max k 1).getD h.permits.limit := by
  have hsame (hnone : m.limit? = none) : h.permits.limit =
      ((if h.refuses m then none else m.limit?).map fun k => Nat.max k 1).getD h.permits.limit := by
    rw [hnone, ite_self]
    rfl
  cases hm with
  | leaves _ hm c q hc ha hq => exact hq.keeps.2.1.trans (hsame hm)
  | releases t q ht hq =>
    have hlimit : q.limit = h.permits.limit := by
      cases hq with
      | settles => rfl
      | returned _ hd hq => cases hq <;> rfl
    exact hlimit.trans (hsame rfl)
  | adjusts n =>
    have hlimit := h.permits.limit_setLimit n
    have href : h.refuses (.setLimit n) = h.permits.refuses n := rfl
    rw [href]
    cases hr : h.permits.refuses n with
    | true => simpa [hr] using hlimit
    | false => simpa [hr, limit?] using hlimit
  | idle _ hm => exact hsame hm
  | marks _ hm => exact hsame hm
  | parts _ hm => exact hsame hm
  | enters => exact hsame rfl
  | queues => exact hsame rfl
  | takes => exact hsame rfl
  | collects => exact hsame rfl
  | closes => exact hsame rfl

/-- The limit is the last one that was set. -/
theorem limit_after (n : Nat) (moves : List PermitMove) :
    ∃ earlier k, n :: limitsSet { permits := .ofLimit n } moves = earlier ++ [k] ∧
      (after n moves).permits.limit = Nat.max k 1 := by
  induction moves using List.reverseRecOn with
  | nil => exact ⟨[], n, rfl, rfl⟩
  | append_singleton moves m ih =>
    have hlimit := limit_moves (moves_act (after n moves) m)
    rw [limitsSet_concat, after, run_concat]
    change ∃ earlier k, n :: (_ ++ (if (after n moves).refuses m then none else m.limit?).toList) =
      earlier ++ [k] ∧ ((after n moves).act m).permits.limit = Nat.max k 1
    rw [hlimit]
    cases (if (after n moves).refuses m then none else m.limit?) with
    | none => simpa using ih
    | some k => exact ⟨n :: limitsSet { permits := .ofLimit n } moves, k, rfl, rfl⟩

theorem limitsSet_eq (h : ConcurrencyController) (moves : List PermitMove)
    (hgo : h.unrefused moves = true) : h.limitsSet moves = moves.filterMap limit? := by
  induction moves generalizing h with
  | nil => rfl
  | cons m moves ih =>
    simp only [unrefused, Bool.and_eq_true, Bool.not_eq_true'] at hgo
    rw [limitsSet, hgo.1, ih _ hgo.2]
    cases hm : m.limit? <;> simp [hm]

/-- One of the limits asked for bounds all permits that there are, if none was refused. -/
theorem exists_orderly (n : Nat) (moves : List PermitMove)
    (hgo : unrefused { permits := .ofLimit n } moves = true) :
    ∃ k ∈ requested n moves, (after n moves).Orderly 0 (Nat.max k 1) := by
  obtain ⟨k, hk, hlargest⟩ := (requested n moves).toFinset.exists_max_image
    (fun k => Nat.max k 1) ⟨n, by simp [requested]⟩
  exact ⟨k, List.mem_toFinset.mp hk,
    orderly_after n moves _ hgo fun j hj => hlargest j (List.mem_toFinset.mpr hj)⟩

def wordMax : Nat := 2 ^ 64 - 1

def forgivenTrial : List PermitMove :=
  [.claim none, .poll 0, .claim none, .poll 1, .setLimit 1, .setLimit wordMax]

/-- Two permits are out and a third claim waits; one permit comes back and is set aside for it, and
then the limit falls to one. -/
def shrunkTrial : List PermitMove :=
  [.claim none, .poll 0, .claim none, .poll 1, .claim (some false), .poll 2, .release 0,
    .setLimit 1]

end ConcurrencyController

end Retest
