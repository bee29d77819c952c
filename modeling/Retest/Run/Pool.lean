/-! Connections to workers. One is taken for a batch of tests and comes back afterwards; only
healthy ones are kept for another batch, and only if workers may be used again. -/

namespace Retest

structure WorkerId where
  number : Nat
  deriving Repr, DecidableEq, Inhabited

def WorkerId.text (w : WorkerId) : String := "worker-" ++ toString w.number

inductive WorkerError where
  | spawn (command reason : String)
  | io (reason : String)
  | crashed (status : String)
  | malformed (detail : String)
  | noCommand
  deriving Repr, DecidableEq

def WorkerError.message : WorkerError → String
  | .spawn command reason => "failed to spawn worker `" ++ command ++ "`: " ++ reason
  | .io reason => "worker i/o failed: " ++ reason
  | .crashed status => "worker exited before finishing the batch (" ++ status ++ ")"
  | .malformed detail => "worker sent a malformed message: " ++ detail
  | .noCommand => "worker command is empty"

/-- Idle connections, the one that came back last in front, how many workers were started, and
whether no more are kept. -/
structure Pool where
  idle : List WorkerId := []
  spawned : Nat := 0
  stopping : Bool := false
  deriving Repr, DecidableEq, Inhabited

namespace Pool

/-- Takes the connection that came back last among those that are healthy. Those passed over are to
be shut down; they are the second part. -/
def takeIdle (healthy : WorkerId → Bool) : List WorkerId →
    Option WorkerId × List WorkerId × List WorkerId
  | [] => (none, [], [])
  | w :: rest =>
    if healthy w then (some w, [], rest)
    else
      let (found, retired, left) := takeIdle healthy rest
      (found, w :: retired, left)

def reuse (p : Pool) (healthy : WorkerId → Bool) : Pool × List WorkerId × Option WorkerId :=
  let (found, retired, left) := takeIdle healthy p.idle
  ({ p with idle := left }, retired, found)

def noteSpawned (p : Pool) : Pool := { p with spawned := p.spawned + 1 }

/-- A connection comes back. It is kept, or else the second part is true and it is to be shut
down. -/
def checkin (p : Pool) (reusable healthy broken : Bool) (w : WorkerId) : Pool × Bool :=
  if !broken && reusable && !p.stopping && healthy then ({ p with idle := w :: p.idle }, false)
  else (p, true)

/-- No connection is kept any more. Those that were idle are to be shut down, the oldest first. -/
def shutdown (p : Pool) : Pool × List WorkerId :=
  ({ p with idle := [], stopping := true }, p.idle.reverse)

end Pool

end Retest
