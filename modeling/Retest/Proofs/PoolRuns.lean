import Mathlib.Data.List.Induction
import Mathlib.Data.List.Nodup
import Retest.Run.Pool

namespace Retest

/-- A call to a pool that runs to its end. The workers say by themselves whether they are healthy,
and whether another one can be started is known only when it is tried. -/
inductive PoolMove where
  | checkout (healthy : WorkerId → Bool) (failure : Option WorkerError)
  | checkin (w : WorkerId) (broken healthy : Bool)
  | shutdown

def WorkerId.first (n : Nat) : List WorkerId := (List.range n).map fun k => ⟨k + 1⟩

theorem WorkerId.first_succ (n : Nat) : first (n + 1) = first n ++ [⟨n + 1⟩] := by
  simp [first, List.range_succ]

theorem WorkerId.nodup_first (n : Nat) : (first n).Nodup :=
  List.nodup_range.map fun _ _ h => Nat.succ.inj (congrArg number h)

namespace Pool

/-- The unhealthy connections in front are passed over, and the next one is found. -/
theorem takeIdle_eq (healthy : WorkerId → Bool) (l : List WorkerId) :
    takeIdle healthy l =
      ((l.dropWhile (!healthy ·)).head?, l.takeWhile (!healthy ·),
        (l.dropWhile (!healthy ·)).tail) := by
  induction l with
  | nil => rfl
  | cons w l ih =>
    by_cases hw : healthy w = true
    · simp [takeIdle, hw]
    · simp [takeIdle, hw, ih]

/-- Hands out an idle connection or else a new one, if that can be started. The second part is to be
shut down. -/
def checkout (p : Pool) (healthy : WorkerId → Bool) (failure : Option WorkerError) :
    Pool × List WorkerId × Except WorkerError WorkerId :=
  let (left, retired, found) := p.reuse healthy
  match found, failure with
  | some w, _ => (left, retired, .ok w)
  | none, some x => (left, retired, .error x)
  | none, none => (left.noteSpawned, retired, .ok ⟨left.spawned + 1⟩)

/-- The first healthy connection is handed out. If there is none, then all are passed over and a
worker is to be started. -/
theorem checkout_eq (p : Pool) (healthy : WorkerId → Bool) (failure : Option WorkerError) :
    p.checkout healthy failure =
      match p.idle.dropWhile (!healthy ·), failure with
      | w :: left, _ => ({ p with idle := left }, p.idle.takeWhile (!healthy ·), .ok w)
      | [], none =>
        ({ p with idle := [], spawned := p.spawned + 1 }, p.idle, .ok ⟨p.spawned + 1⟩)
      | [], some x => ({ p with idle := [] }, p.idle, .error x) := by
  have hsplit : p.idle.takeWhile (!healthy ·) ++ p.idle.dropWhile (!healthy ·) = p.idle :=
    List.takeWhile_append_dropWhile
  cases hrest : p.idle.dropWhile (!healthy ·) with
  | nil =>
    rw [hrest, List.append_nil] at hsplit
    cases failure <;> simp [checkout, reuse, takeIdle_eq, noteSpawned, hrest, hsplit]
  | cons w left => simp [checkout, reuse, takeIdle_eq, hrest]

end Pool

/-- A pool with the connections that are lent, those that were shut down, the first one in front,
and every loan so far. -/
structure WorkerPool where
  pool : Pool := {}
  out : List WorkerId := []
  gone : List WorkerId := []
  loans : List WorkerId := []

namespace WorkerPool

def act (reusable : Bool) (d : WorkerPool) : PoolMove → WorkerPool
  | .checkout healthy failure =>
    let (pool, retired, answer) := d.pool.checkout healthy failure
    let lent := answer.toOption.toList
    { pool, out := lent ++ d.out, gone := d.gone ++ retired, loans := d.loans ++ lent }
  | .checkin w broken healthy =>
    if w ∈ d.out then
      let (pool, shut) := d.pool.checkin reusable healthy broken w
      { d with pool, out := d.out.erase w, gone := if shut then d.gone ++ [w] else d.gone }
    else d
  | .shutdown =>
    let (pool, retired) := d.pool.shutdown
    { d with pool, gone := d.gone ++ retired }

def after (reusable : Bool) (moves : List PoolMove) : WorkerPool := moves.foldl (act reusable) {}

inductive Does (reusable : Bool) (d : WorkerPool) : PoolMove → WorkerPool → Prop where
  | reuses (healthy : WorkerId → Bool) (failure : Option WorkerError) (w : WorkerId)
      (retired left : List WorkerId) (idle : d.pool.idle = retired ++ w :: left)
      (passed : retired = d.pool.idle.takeWhile (!healthy ·)) :
      Does reusable d (.checkout healthy failure)
        { pool := { d.pool with idle := left }, out := w :: d.out, gone := d.gone ++ retired,
          loans := d.loans ++ [w] }
  | starts (healthy : WorkerId → Bool) (passed : d.pool.idle = d.pool.idle.takeWhile (!healthy ·)) :
      Does reusable d (.checkout healthy none)
        { pool := { d.pool with idle := [], spawned := d.pool.spawned + 1 },
          out := ⟨d.pool.spawned + 1⟩ :: d.out, gone := d.gone ++ d.pool.idle,
          loans := d.loans ++ [⟨d.pool.spawned + 1⟩] }
  | fails (healthy : WorkerId → Bool) (x : WorkerError)
      (passed : d.pool.idle = d.pool.idle.takeWhile (!healthy ·)) :
      Does reusable d (.checkout healthy (some x))
        { d with pool := { d.pool with idle := [] }, gone := d.gone ++ d.pool.idle }
  | keeps (w : WorkerId) (lent : w ∈ d.out) (reuse : reusable = true)
      (running : d.pool.stopping = false) :
      Does reusable d (.checkin w false true)
        { d with pool := { d.pool with idle := w :: d.pool.idle }, out := d.out.erase w }
  | retires (w : WorkerId) (broken healthy : Bool) (lent : w ∈ d.out) :
      Does reusable d (.checkin w broken healthy)
        { d with out := d.out.erase w, gone := d.gone ++ [w] }
  | stays (w : WorkerId) (broken healthy : Bool) (other : w ∉ d.out) :
      Does reusable d (.checkin w broken healthy) d
  | closes :
      Does reusable d .shutdown
        { d with
          pool := { d.pool with idle := [], stopping := true }
          gone := d.gone ++ d.pool.idle.reverse }

variable {reusable : Bool} {d d' : WorkerPool} {m : PoolMove}

theorem does_checkout (d : WorkerPool) (healthy : WorkerId → Bool) (failure : Option WorkerError) :
    Does reusable d (.checkout healthy failure) (d.act reusable (.checkout healthy failure)) := by
  have hsplit : d.pool.idle.takeWhile (!healthy ·) ++ d.pool.idle.dropWhile (!healthy ·) =
      d.pool.idle := List.takeWhile_append_dropWhile
  rw [act, Pool.checkout_eq]
  cases hrest : d.pool.idle.dropWhile (!healthy ·) with
  | nil =>
    rw [hrest, List.append_nil] at hsplit
    cases failure with
    | none => exact Does.starts healthy hsplit.symm
    | some x =>
      simp only [Except.toOption, Option.toList_none, List.nil_append, List.append_nil]
      exact Does.fails healthy x hsplit.symm
  | cons w left =>
    rw [hrest] at hsplit
    exact Does.reuses healthy failure w _ left hsplit.symm rfl

theorem does_act (reusable : Bool) (d : WorkerPool) (m : PoolMove) :
    Does reusable d m (d.act reusable m) := by
  cases m with
  | checkout healthy failure => exact d.does_checkout healthy failure
  | checkin w broken healthy =>
    by_cases hw : w ∈ d.out
    · by_cases hk : (!broken && reusable && !d.pool.stopping && healthy) = true
      · simp only [Bool.and_eq_true, Bool.not_eq_true'] at hk
        obtain ⟨⟨⟨rfl, hr⟩, hs⟩, rfl⟩ := hk
        have hkeeps := Does.keeps w hw hr hs
        simpa [act, Pool.checkin, hw, hr, hs] using hkeeps
      · have hretires : Does reusable d _ _ := Does.retires w broken healthy hw
        simpa only [act, Pool.checkin, if_pos hw, if_neg hk, if_true] using hretires
    · have hstays : Does reusable d _ _ := Does.stays w broken healthy hw
      simpa only [act, if_neg hw] using hstays
  | shutdown => exact Does.closes

def Placed (d : WorkerPool) : Prop :=
  (d.pool.idle ++ d.out ++ d.gone).Perm (WorkerId.first d.pool.spawned)

/-- A call moves connections about, and only one that starts a worker adds to them. -/
theorem placed_does (h : d.Placed) (hd : Does reusable d m d') : d'.Placed := by
  rw [Placed, List.perm_iff_count] at h ⊢
  intro v
  have hv := h v
  simp only [List.count_append] at hv ⊢
  cases hd with
  | reuses healthy failure w retired left idle passed =>
    rw [idle] at hv
    simp only [List.count_append, List.count_cons] at hv ⊢
    omega
  | starts healthy passed =>
    simp only [WorkerId.first_succ, List.count_append, List.count_cons, List.count_nil]
    omega
  | fails healthy x passed =>
    simp only [List.count_append, List.count_nil]
    omega
  | keeps w lent reuse running =>
    have hcount := (List.perm_cons_erase lent).count_eq v
    simp only [List.count_cons] at hcount ⊢
    omega
  | retires w broken healthy lent =>
    have hcount := (List.perm_cons_erase lent).count_eq v
    simp only [List.count_append, List.count_cons, List.count_nil] at hcount ⊢
    omega
  | stays w broken healthy other => exact hv
  | closes =>
    simp only [List.count_append, List.count_reverse, List.count_nil]
    omega

theorem after_concat (moves : List PoolMove) (m : PoolMove) :
    after reusable (moves ++ [m]) = (after reusable moves).act reusable m := by
  simp [after]

theorem placed_after (moves : List PoolMove) : (after reusable moves).Placed := by
  induction moves using List.reverseRecOn with
  | nil => exact List.Perm.refl []
  | append_singleton moves m ih =>
    rw [after_concat]
    exact placed_does ih (does_act reusable _ m)

theorem Placed.nodup (h : d.Placed) : (d.pool.idle ++ d.out ++ d.gone).Nodup :=
  h.nodup_iff.mpr (WorkerId.nodup_first d.pool.spawned)

/-- What was shut down stays so, and a call lends nothing of it, nor of what it shuts down itself.
-/
theorem loans_does (h : d.Placed) (hd : Does reusable d m d') :
    d.gone ⊆ d'.gone ∧ ∃ lent, d'.loans = d.loans ++ lent ∧ ∀ w ∈ d'.gone, w ∉ lent := by
  have hnew := (placed_does h hd).nodup
  have hnone (gone : List WorkerId) : ∃ lent, d.loans = d.loans ++ lent ∧ ∀ w ∈ gone, w ∉ lent :=
    ⟨[], (List.append_nil _).symm, fun _ _ => List.not_mem_nil⟩
  cases hd with
  | reuses healthy failure w retired left idle passed =>
    refine ⟨List.subset_append_left _ _, [w], rfl, ?_⟩
    intro v hv hw
    rw [List.mem_singleton] at hw
    subst hw
    -- it would be lent and shut down at the same time
    have hout : v ∈ left ++ v :: d.out := by simp
    exact (List.disjoint_of_nodup_append hnew) hout hv
  | starts healthy passed =>
    refine ⟨List.subset_append_left _ _, [⟨d.pool.spawned + 1⟩], rfl, ?_⟩
    intro v hv hw
    rw [List.mem_singleton] at hw
    subst hw
    exact (List.disjoint_of_nodup_append hnew) List.mem_cons_self hv
  | fails healthy x passed => exact ⟨List.subset_append_left _ _, hnone _⟩
  | keeps w lent reuse running => exact ⟨List.Subset.refl _, hnone _⟩
  | retires w broken healthy lent => exact ⟨List.subset_append_left _ _, hnone _⟩
  | stays w broken healthy other => exact ⟨List.Subset.refl _, hnone _⟩
  | closes => exact ⟨List.subset_append_left _ _, hnone _⟩

/-- However a run goes on, nothing that was shut down is lent again. -/
theorem loans_append (reusable : Bool) (moves more : List PoolMove) :
    (after reusable moves).gone ⊆ (after reusable (moves ++ more)).gone ∧
      ∃ lent, (after reusable (moves ++ more)).loans = (after reusable moves).loans ++ lent ∧
        ∀ w ∈ (after reusable moves).gone, w ∉ lent := by
  induction more using List.reverseRecOn with
  | nil =>
    rw [List.append_nil]
    exact ⟨List.Subset.refl _, [], (List.append_nil _).symm, fun _ _ => List.not_mem_nil⟩
  | append_singleton more m ih =>
    obtain ⟨hgone, lent, hlent, hnever⟩ := ih
    obtain ⟨hgone', lent', hlent', hnever'⟩ :=
      loans_does (placed_after (moves ++ more)) (does_act reusable _ m)
    rw [← List.append_assoc, after_concat]
    refine ⟨fun _ hw => hgone' (hgone hw), lent ++ lent', ?_, ?_⟩
    · rw [hlent', hlent, List.append_assoc]
    · intro w hw hmem
      rcases List.mem_append.mp hmem with hold | hnew
      · exact hnever w hw hold
      · exact hnever' w (hgone' (hgone hw)) hnew

/-- The call shows that a connection is of no more use: it comes back broken or unhealthy, or it is
passed over as unhealthy. -/
def Condemns (d : WorkerPool) (w : WorkerId) : PoolMove → Prop
  | .checkout healthy _ => w ∈ d.pool.idle.takeWhile (!healthy ·)
  | .checkin v broken healthy => v = w ∧ w ∈ d.out ∧ (broken = true ∨ healthy = false)
  | .shutdown => False

/-- Such a connection is shut down at once. -/
theorem mem_gone_of_condemns {w : WorkerId} (hd : Does reusable d m d') (hw : d.Condemns w m) :
    w ∈ d'.gone := by
  cases hd with
  | reuses healthy failure v retired left idle passed =>
    rw [Condemns, ← passed] at hw
    exact List.mem_append_right _ hw
  | starts healthy passed =>
    rw [Condemns, ← passed] at hw
    exact List.mem_append_right _ hw
  | fails healthy x passed =>
    rw [Condemns, ← passed] at hw
    exact List.mem_append_right _ hw
  | keeps v lent reuse running =>
    obtain ⟨-, -, hbad | hbad⟩ := hw <;> cases hbad
  | retires v broken healthy lent =>
    obtain ⟨rfl, -, -⟩ := hw
    exact List.mem_append_right _ List.mem_cons_self
  | stays v broken healthy other =>
    obtain ⟨rfl, hout, -⟩ := hw
    exact absurd hout other
  | closes => cases hw

/-- Where workers are not used again, none is ever idle, and each loan is of a new one. -/
theorem loans_single (moves : List PoolMove) :
    (after false moves).pool.idle = [] ∧
      (after false moves).loans = WorkerId.first (after false moves).pool.spawned := by
  induction moves using List.reverseRecOn with
  | nil => exact ⟨rfl, rfl⟩
  | append_singleton moves m ih =>
    obtain ⟨hidle, hloans⟩ := ih
    have hd := does_act false (after false moves) m
    rw [after_concat]
    generalize (after false moves).act false m = d' at hd ⊢
    cases hd with
    | reuses healthy failure w retired left idle passed =>
      rw [hidle] at idle
      cases retired <;> cases idle
    | starts healthy passed => exact ⟨rfl, by rw [hloans, WorkerId.first_succ]⟩
    | fails healthy x passed => exact ⟨rfl, hloans⟩
    | keeps w lent reuse running => cases reuse
    | retires w broken healthy lent => exact ⟨hidle, hloans⟩
    | stays w broken healthy other => exact ⟨hidle, hloans⟩
    | closes => exact ⟨rfl, hloans⟩

/-- A pool that was shut down keeps nothing idle. -/
theorem idle_of_shutdown (reusable : Bool) (moves : List PoolMove) :
    ((after reusable moves).pool.stopping = true ↔ .shutdown ∈ moves) ∧
      ((after reusable moves).pool.stopping = true → (after reusable moves).pool.idle = []) := by
  induction moves using List.reverseRecOn with
  | nil => simp [after]
  | append_singleton moves m ih =>
    obtain ⟨hstop, hidle⟩ := ih
    have hd := does_act reusable (after reusable moves) m
    rw [after_concat, List.mem_append, List.mem_singleton, ← hstop]
    generalize (after reusable moves).act reusable m = d' at hd ⊢
    cases hd with
    | reuses healthy failure w retired left idle passed =>
      refine ⟨by simp, ?_⟩
      intro hs
      rw [hidle hs] at idle
      cases retired <;> cases idle
    | starts healthy passed => simp
    | fails healthy x passed => simp
    | keeps w lent reuse running => simp [running]
    | retires w broken healthy lent => simpa using hidle
    | stays w broken healthy other => simpa using hidle
    | closes => simp

/-- A connection that is found is lent, and so is a new one. Where none can be started, all that the
call did was to pass over the idle ones. -/
theorem checkout_answer (d : WorkerPool) (healthy : WorkerId → Bool)
    (failure : Option WorkerError) :
    match (d.pool.checkout healthy failure).2.2 with
    | .ok w => (d.act reusable (.checkout healthy failure)).out = w :: d.out ∧
        (d.act reusable (.checkout healthy failure)).loans = d.loans ++ [w]
    | .error x => failure = some x ∧ d.act reusable (.checkout healthy failure) =
        { d with pool := { d.pool with idle := [] }, gone := d.gone ++ d.pool.idle } := by
  rw [act, Pool.checkout_eq]
  cases d.pool.idle.dropWhile (!healthy ·) with
  | nil =>
    cases failure with
    | none => exact ⟨rfl, rfl⟩
    | some x => simp [Except.toOption]
  | cons w left => exact ⟨rfl, rfl⟩

/-- In every run, whether workers may be used again or not: each worker that was started is lent,
idle or shut down, in one of these places and once. A connection that comes back broken or turns
out unhealthy is shut down and never lent again. Where workers are not used again, no connection is
lent twice. A start that fails adds nothing; before it only the idle connections were passed over.
After the shutdown nothing is idle, whatever comes back. -/
theorem connections_in_one_place (reusable : Bool) (moves : List PoolMove) :
    let d := after reusable moves
    (d.pool.idle ++ d.out ++ d.gone).Perm (WorkerId.first d.pool.spawned) ∧
      d.pool.spawned = d.pool.idle.length + d.out.length + d.gone.length ∧
      (∀ m w, d.Condemns w m → ∀ more,
        w ∈ (after reusable (moves ++ m :: more)).gone ∧
          ∃ lent, (after reusable (moves ++ m :: more)).loans = d.loans ++ lent ∧ w ∉ lent) ∧
      (reusable = false → d.loans.Nodup) ∧
      (∀ healthy failure, match (d.pool.checkout healthy failure).2.2 with
        | .ok w => (d.act reusable (.checkout healthy failure)).out = w :: d.out ∧
            (d.act reusable (.checkout healthy failure)).loans = d.loans ++ [w]
        | .error x => failure = some x ∧ d.act reusable (.checkout healthy failure) =
            { d with pool := { d.pool with idle := [] }, gone := d.gone ++ d.pool.idle }) ∧
      (.shutdown ∈ moves → d.pool.idle = []) := by
  intro d
  have hplaced : d.Placed := placed_after moves
  refine ⟨hplaced, ?_, ?_, ?_, d.checkout_answer, ?_⟩
  · have hlength := hplaced.length_eq
    simp only [WorkerId.first, List.length_append, List.length_map, List.length_range] at hlength
    omega
  · intro m w hw more
    have hm : Does reusable d m (after reusable (moves ++ [m])) := by
      rw [after_concat]
      exact does_act reusable d m
    have hgone := mem_gone_of_condemns hm hw
    obtain ⟨-, now, hnow, hfree⟩ := loans_does hplaced hm
    obtain ⟨hkept, later, hlater, hnever⟩ :=
      loans_append reusable (moves ++ [m]) more
    rw [List.append_assoc, List.singleton_append] at hkept hlater
    refine ⟨hkept hgone, now ++ later, ?_, ?_⟩
    · rw [hlater, hnow, List.append_assoc]
    · rw [List.mem_append]
      exact not_or.mpr ⟨hfree w hgone, hnever w hgone⟩
  · rintro rfl
    rw [(loans_single moves).2]
    exact WorkerId.nodup_first _
  · intro hmem
    obtain ⟨hstop, hidle⟩ := idle_of_shutdown reusable moves
    exact hidle (hstop.mpr hmem)

def firstLoans : List PoolMove :=
  [.checkout (fun _ => true) none, .checkout (fun _ => true) none, .checkin ⟨1⟩ false true]

/-- The second one comes back broken, no other worker can be started for the next caller, and the
last one comes back after the shutdown. -/
def lastReturns : List PoolMove :=
  [.checkin ⟨2⟩ true true, .checkout (fun _ => true) (some .noCommand), .shutdown,
    .checkin ⟨3⟩ false true]

/-- The first worker dies while it is idle: the next caller gets a third one instead. -/
theorem dead_worker_is_not_lent_again :
    (after true firstLoans).Condemns ⟨1⟩ (.checkout (fun _ => false) none) ∧
      (after true (firstLoans ++ .checkout (fun _ => false) none :: lastReturns)).gone =
        [⟨1⟩, ⟨2⟩, ⟨3⟩] ∧
      (∃ lent, (after true (firstLoans ++ .checkout (fun _ => false) none :: lastReturns)).loans =
        [⟨1⟩, ⟨2⟩] ++ lent ∧ ⟨1⟩ ∉ lent) ∧
      .shutdown ∈ firstLoans ++ .checkout (fun _ => false) none :: lastReturns ∧
      (after true (firstLoans ++ .checkout (fun _ => false) none :: lastReturns)).pool.idle = [] ∧
      (after false firstLoans).loans.Nodup := by
  have hdead : (after true firstLoans).Condemns ⟨1⟩ (.checkout (fun _ => false) none) :=
    List.mem_cons_self
  have hshutdown :
      .shutdown ∈ firstLoans ++ .checkout (fun _ => false) none :: lastReturns := by
    simp [firstLoans, lastReturns]
  obtain ⟨-, -, hnever, -⟩ := connections_in_one_place true firstLoans
  obtain ⟨-, -, -, -, -, hidle⟩ := connections_in_one_place true
    (firstLoans ++ .checkout (fun _ => false) none :: lastReturns)
  obtain ⟨-, -, -, hnodup, -⟩ := connections_in_one_place false firstLoans
  exact ⟨hdead, rfl, (hnever _ _ hdead lastReturns).2, hshutdown, hidle hshutdown, hnodup rfl⟩

end WorkerPool

end Retest
