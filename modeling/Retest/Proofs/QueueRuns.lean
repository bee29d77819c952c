import Mathlib.Data.List.Permutation
import Retest.Proofs.Queue

namespace Retest

/-- What can be done to a queue. A reader asks for a batch; one that was left waiting comes back to
look again, or goes away. With many readers the bell may stand anywhere when one of them comes back,
and so it is turned freely. -/
inductive QueueMove where
  | push (history : History) (session : SessionId) (tests : List String)
  | pop (max : Nat)
  | ask (max : Nat)
  | resume (max : Nat)
  | leave
  | turn (bell : Bell)
  | drain
  | close

namespace Queue

def act (p : Priority) (q : Queue) : QueueMove → Queue × Option Delivery
  | .push history session tests => (q.push p history session tests, none)
  | .pop max => ((q.pop max).1, some (.batch (q.pop max).2))
  | .ask max => ((q.ask max).1, some (q.ask max).2)
  | .resume max => ((q.resume max).1, some (q.resume max).2)
  | .leave => (q.leave, none)
  | .turn bell => ({ q with bell }, none)
  | .drain => (q.drain.1, some (.batch q.drain.2))
  | .close => (q.close, none)

def handed : Option Delivery → List QueueEntry
  | some (.batch entries) => entries
  | some .closed | some .waiting | none => []

structure Flow where
  queue : Queue := {}
  out : List QueueEntry := []

def Flow.step (p : Priority) (f : Flow) (m : QueueMove) : Flow :=
  ⟨(f.queue.act p m).1, f.out ++ handed (f.queue.act p m).2⟩

def after (p : Priority) (moves : List QueueMove) : Flow := moves.foldl (Flow.step p) {}

theorem after_concat (p : Priority) (moves : List QueueMove) (m : QueueMove) :
    after p (moves ++ [m]) = (after p moves).step p m := by
  simp [after]

end Queue

end Retest
