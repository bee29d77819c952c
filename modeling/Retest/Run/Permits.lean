/-! Permits to run workers. Their number can change while they are out: new ones can be used at
once, and surplus ones are destroyed when they come back. Only so many can be free at a time; who
asks for more is refused. -/

namespace Retest

abbrev Ticket := Nat

/-- A supply of permits. `free` can be taken at once; `inFlight` are held; those in `granted` are
set aside for tickets that have not come back for them; `debt` of the held ones are surplus. -/
structure Permits where
  limit : Nat
  debt : Nat := 0
  free : Nat
  inFlight : Nat := 0
  waiting : List Ticket := []
  granted : List Ticket := []
  closed : Bool := false
  deriving Repr, DecidableEq

inductive Grant where
  | held
  | waiting
  | refused
  deriving Repr, DecidableEq

namespace Permits

/-- The most permits that can be free at a time. -/
def maxPermits : Nat := Nat.pow 2 61 - 1

/-- There is always at least one permit. -/
def ofLimit (n : Nat) : Permits := { limit := Nat.max n 1, free := Nat.max n 1 }

/-- A new supply, if all its permits can be free. -/
def create? (n : Nat) : Option Permits :=
  if Nat.max n 1 ≤ maxPermits then some (ofLimit n) else none

instance : Inhabited Permits := ⟨ofLimit 1⟩

/-- Permits come back: the tickets that have waited longest get them, and what is left is free. -/
def giveBack (p : Permits) (count : Nat) : Permits :=
  { p with
    waiting := p.waiting.drop count
    granted := p.granted ++ p.waiting.take count
    free := p.free + (count - p.waiting.length) }

def request (p : Permits) (t : Ticket) : Permits × Grant :=
  if p.closed then (p, .refused)
  else
    match p.free with
    | 0 => ({ p with waiting := p.waiting ++ [t] }, .waiting)
    | n + 1 => ({ p with free := n, inFlight := p.inFlight + 1 }, .held)

/-- A ticket goes away. A permit that was set aside for it comes back. -/
def abandon (p : Permits) (t : Ticket) : Permits :=
  let q := { p with waiting := p.waiting.filter (· ≠ t), granted := p.granted.erase t }
  if p.granted.contains t then q.giveBack 1 else q

/-- A ticket asks whether it has a permit now. Once the supply is closed, it gets none. -/
def poll (p : Permits) (t : Ticket) : Permits × Grant :=
  if p.closed then (p.abandon t, .refused)
  else if p.granted.contains t then
    ({ p with granted := p.granted.erase t, inFlight := p.inFlight + 1 }, .held)
  else (p, .waiting)

def requestUnless (p : Permits) (cancelled : Bool) (t : Ticket) : Permits × Grant :=
  if cancelled then (p, .refused) else p.request t

def pollUnless (p : Permits) (cancelled : Bool) (t : Ticket) : Permits × Grant :=
  if cancelled then (p.abandon t, .refused) else p.poll t

/-- Who gives a permit back no longer counts as in flight, whatever becomes of the permit. -/
def countDown (p : Permits) : Permits := { p with inFlight := p.inFlight - 1 }

/-- A permit that comes back is destroyed if there are too many. -/
def settle? (p : Permits) : Option Permits :=
  match p.debt with
  | 0 => none
  | d + 1 => some { p with debt := d }

/-- A held permit comes back in one go: it is counted down, and then destroyed or returned. In a
shift these are steps of their own, and others may come in between. -/
def release (p : Permits) : Permits :=
  let q := p.countDown
  q.settle?.getD (q.giveBack 1)

/-- So many permits less: free ones are destroyed, and for each that is missing then, the next that
comes back will be. Once the supply is closed, no free one can be taken out of it. -/
def retire (p : Permits) (count : Nat) : Permits :=
  if p.closed then { p with debt := p.debt + count }
  else { p with free := p.free - count, debt := p.debt + (count - p.free) }

/-- Whether so many permits can be added: those that no ticket waits for have to be free. -/
def canAdd (p : Permits) (count : Nat) : Bool :=
  count ≤ p.waiting.length || p.free + (count - p.waiting.length) ≤ maxPermits

/-- Adds permits, or fails to. A failure comes when the waiting tickets are served, and with the
others counted as free, unless these are too many by themselves. -/
def add (p : Permits) (count : Nat) : Permits :=
  p.giveBack (if count - p.waiting.length ≤ maxPermits then count else p.waiting.length)

def repaid (p : Permits) (n : Nat) : Nat := Nat.min (Nat.max n 1 - p.limit) p.debt

def added (p : Permits) (n : Nat) : Nat := Nat.max n 1 - p.limit - p.repaid n

def refuses (p : Permits) (n : Nat) : Bool := !p.canAdd (p.added n)

/-- Sets the number of permits. Growing first takes back what was to be destroyed, and keeps that
even if the new limit is refused. -/
def setLimit (p : Permits) (n : Nat) : Permits :=
  if p.limit < Nat.max n 1 then
    let q := { p with debt := p.debt - p.repaid n }.add (p.added n)
    if p.refuses n then q else { q with limit := Nat.max n 1 }
  else { p.retire (p.limit - Nat.max n 1) with limit := Nat.max n 1 }

def close (p : Permits) : Permits := { p with closed := true, waiting := [] }

end Permits

end Retest
