import Retest.Proofs.ShiftLedger

/-! Connections to workers are kept, used or shut down, each in one place. A step of a shift moves
them about, and only a new one adds to them. -/

namespace Retest

def Stage.worker? : Stage → Option WorkerId
  | .running w | .returning w _ => some w
  | .starting | .connecting | .leaving => none

/-- Looking for an idle connection splits them up. -/
theorem Pool.weigh_takeIdle (healthy : WorkerId → Bool) (l : List WorkerId) (f : WorkerId → Nat) :
    weigh f (takeIdle healthy l).1.toList + weigh f (takeIdle healthy l).2.1 +
      weigh f (takeIdle healthy l).2.2 = weigh f l := by
  induction l with
  | nil => rfl
  | cons w l ih =>
    by_cases hw : healthy w = true
    · simp [takeIdle, hw]
    · cases hr : takeIdle healthy l with
      | mk found parts =>
        obtain ⟨retired, left⟩ := parts
        simp only [hr] at ih
        simp only [takeIdle, hw, hr, Bool.false_eq_true, if_false, weigh_cons]
        omega

namespace Shift

/-- The connections that a shift has made: those that are idle, in use, and shut down. -/
def connections (s : Shift) : List WorkerId :=
  s.pool.idle ++ s.dispatches.flatMap (·.stage.worker?.toList) ++ s.retired

variable {s s' : Shift}

/-- A dispatch takes its next step, and connections change places by it. -/
theorem connections_put (h : s.Sound) (d d' : Dispatch) (pool : Pool) (retired : List WorkerId)
    (hd : d ∈ s.dispatches) (hn : d'.number = d.number) (f : WorkerId → Nat) :
    weigh f ({ s with pool, retired }.put d').connections + weigh f d.stage.worker?.toList +
        weigh f s.pool.idle + weigh f s.retired =
      weigh f s.connections + weigh f d'.stage.worker?.toList + weigh f pool.idle +
        weigh f retired := by
  have hput := weigh_replace s.dispatches h.numbers d d' hd hn
    fun d => weigh f d.stage.worker?.toList
  simp only [connections, put, weigh_append, weigh_flatMap]
  omega

/-- A dispatch that keeps its connection leaves all of them where they are. -/
theorem connections_keep (h : s.Sound) (d d' : Dispatch) (hd : d ∈ s.dispatches)
    (hn : d'.number = d.number) (hw : d'.stage.worker? = d.stage.worker?) (f : WorkerId → Nat) :
    weigh f (s.put d').connections = weigh f s.connections := by
  have hput := connections_put h d d' s.pool s.retired hd hn f
  rw [hw] at hput
  change weigh f (s.put d').connections + _ + _ + _ = _ at hput
  omega

theorem connections_checkin (h : s.Sound) (d : Dispatch) (w : WorkerId)
    (broken reusable healthy : Bool) (hd : d ∈ s.dispatches) (hs : d.stage = .returning w broken)
    (f : WorkerId → Nat) :
    weigh f (s.checkin d w broken reusable healthy).connections = weigh f s.connections := by
  have hput (pool : Pool) (retired : List WorkerId) :=
    connections_put h d { d with stage := .leaving } pool retired hd rfl f
  simp only [hs, Stage.worker?, Option.toList_some, Option.toList_none, weigh_cons,
    weigh_nil] at hput
  simp only [checkin, Pool.checkin]
  split
  · have hkept := hput { s.pool with idle := w :: s.pool.idle } s.retired
    simp only [weigh_cons] at hkept
    simp only [Bool.false_eq_true, if_false]
    omega
  · have hgone := hput s.pool (s.retired ++ [w])
    simp only [weigh_append, weigh_cons, weigh_nil] at hgone
    simp only [if_true]
    omega

theorem connections_fetch (max : Nat) : (s.fetch max).connections = s.connections := by
  have hf := s.fetches_fetch max
  generalize s.fetch max = t at hf ⊢
  cases hf <;> rfl

/-- A dispatch starts without a connection. -/
theorem connections_allow (now : Moment) (session : SessionId) (tests : List String) (asked : Bool)
    (f : WorkerId → Nat) :
    weigh f (s.allow now session tests asked).connections = weigh f s.connections := by
  have ha := s.allows_allow now session tests asked
  generalize s.allow now session tests asked = t at ha ⊢
  cases ha with
  | launches p => simp [connections, launch, Stage.worker?]
  | waits p => rfl
  | quits p => rfl

/-- A dispatch gets an idle connection if there is a healthy one. The others on the way are shut
down. -/
theorem connections_checkout (h : s.Sound) (d : Dispatch) (healthy : WorkerId → Bool)
    (hd : d ∈ s.dispatches) (hs : d.stage = .starting) (f : WorkerId → Nat) :
    weigh f (s.checkout d healthy).connections = weigh f s.connections := by
  have htake := Pool.weigh_takeIdle healthy s.pool.idle f
  cases hr : Pool.takeIdle healthy s.pool.idle with
  | mk found parts =>
    obtain ⟨retired, left⟩ := parts
    have hreuse : s.pool.reuse healthy = ({ s.pool with idle := left }, retired, found) := by
      simp [Pool.reuse, hr]
    rw [hr] at htake
    simp only [checkout, hreuse]
    have hput (stage : Stage) := connections_put h d { d with stage } { s.pool with idle := left }
      (s.retired ++ retired) hd rfl f
    simp only [hs, Stage.worker?, Option.toList_none, weigh_append, weigh_nil] at hput ⊢
    cases found with
    | none =>
      have hnone := hput .connecting
      simp only [Option.toList_none, weigh_nil] at hnone htake ⊢
      omega
    | some w =>
      have hsome := hput (.running w)
      simp only [Option.toList_some, weigh_cons, weigh_nil] at hsome htake ⊢
      omega

/-- Whatever a shift does, a connection stays on its books, and only a new one comes on them. -/
theorem connections_works {settings : EngineSettings} {now : Moment} {hired : Option WorkerId}
    (h : s.Sound) (hw : s.Works settings now hired s') (f : WorkerId → Nat) :
    weigh f s'.connections = weigh f s.connections + weigh f hired.toList := by
  cases hw with
  | closeQueue hc hq => rfl
  | closePermits hq hp => rfl
  | fetch he hp => rw [connections_fetch, Option.toList_none, weigh_nil, Nat.add_zero]
  | allow session tests asked he hp => exact connections_allow now session tests asked f
  | sweep he hp hd hc => rfl
  | finish he hp =>
    simp only [connections, finish, Pool.shutdown, weigh_append, weigh_nil, Option.toList_none,
      weigh_perm f _ _ (List.reverse_perm s.pool.idle)]
    omega
  | checkout d healthy hd he hs => exact connections_checkout h d healthy hd hs f
  | connected d w hd he hs =>
    have hput := connections_put h d { d with stage := .running w } s.pool.noteSpawned s.retired hd
      rfl f
    simp only [hs, Stage.worker?, Option.toList_none, Option.toList_some, weigh_cons, weigh_nil,
      Pool.noteSpawned] at hput
    simp only [connected, Pool.noteSpawned, Option.toList_some, weigh_cons, weigh_nil]
    omega
  | unconnected d x hd he hs =>
    exact connections_keep h d { failWith d now _ x.message with stage := .leaving } hd rfl
      (by rw [hs]; rfl) f
  | hear d w news hd he hs =>
    exact connections_keep h d { d with
      docket := (d.docket.hear now news).1, errands := (d.docket.hear now news).2 } hd rfl rfl f
  | conclude d w result hd he hs =>
    cases result with
    | ok =>
      exact connections_keep h d { d with
        docket := (d.docket.missRemaining now).1, errands := (d.docket.missRemaining now).2
        stage := .returning w false } hd rfl (by rw [hs]; rfl) f
    | error x =>
      exact connections_keep h d { failWith d now _ x.message with stage := .returning w true } hd
        rfl (by rw [hs]; rfl) f
  | callOff d w hd he hs hc =>
    exact connections_keep h d { d with
      docket := (d.docket.cancelRemaining now).1, errands := (d.docket.cancelRemaining now).2
      stage := .returning w true } hd rfl (by rw [hs]; rfl) f
  | checkin d w broken healthy hd he hs =>
    exact connections_checkin h d w broken settings.reusable healthy hd hs f
  | leave d hd he hs =>
    have hgone := weigh_without s.dispatches h.numbers d hd
      (fun d => weigh f d.stage.worker?.toList) (by rw [hs]; rfl)
    simp only [connections, leave, weigh_append, weigh_flatMap, hgone, Option.toList_none,
      weigh_nil]
    omega
  | parts c _ hc hparts =>
    obtain ⟨p, l, rfl, -⟩ := hparts.exists_eq
    rfl

theorem connections_hands (h : s.Sound) {x : Errand} {more : List Errand} (hh : s.Hands x more s')
    (f : WorkerId → Nat) : weigh f s'.connections = weigh f s.connections := by
  cases hh with
  | loop _ rest _ he => rfl
  | dispatch d _ rest _ hd he =>
    exact connections_keep h d { d with errands := more ++ rest } hd rfl rfl f

end Shift

end Retest
