import Retest.Regex.Octets
import Retest.Regex.Shape
import Std.Data.HashMap

/-! How much room the automata of a pattern take: the one that reads texts from their start, and the
one that reads them from their end. Counted repetitions are written out in them, so that short
patterns can stand for very large automata. -/

namespace Retest.Regex

/-- The room that an automaton takes while it is built: how many states there are, and how many
bytes lie outside of them. States are numbered in the order in which they are added. -/
structure Room where
  states : Nat := 0
  extra : Nat := 0
  deriving Repr, DecidableEq

def stateBytes : Nat := 32

def wayBytes : Nat := 8

def branchBytes : Nat := 4

def roomLimit : Nat := 10 * 1024 * 1024

namespace Room

def bytes (r : Room) : Nat := r.states * stateBytes + r.extra

def checked (r : Room) : Option Room := if roomLimit < r.bytes then none else some r

def add (r : Room) (count : Nat) : Option Room :=
  (Room.mk (r.states + count) r.extra).checked

def addWays (r : Room) (count : Nat) : Option Room :=
  (Room.mk (r.states + 1) (r.extra + count * wayBytes)).checked

def branch (r : Room) (count : Nat) : Option Room :=
  (Room.mk r.states (r.extra + count * branchBytes)).checked

/-- Leads a part that is complete on to what follows. If the part ends in a fork, that takes one
more way out of it. -/
def join (r : Room) (forked : Bool) : Option Room := r.branch (if forked then 1 else 0)

end Room

abbrev Built := Option (Room × Bool)

def hashOf (l : List Nat) : UInt64 :=
  l.foldl (fun h n => (h ^^^ n.toUInt64) * 1099511628211) 14695981039346656037

/-- Keeps states that can be used again, at most one at each place. A new one takes the place of an
older one. -/
structure StateCache (α : Type) where
  size : Nat
  entries : Std.HashMap Nat (α × Nat) := {}

namespace StateCache

variable {α : Type} [DecidableEq α]

def find? (c : StateCache α) (place : Nat) (key : α) : Option Nat :=
  match c.entries[place]? with
  | some (k, state) => if k = key then some state else none
  | none => none

def insert (c : StateCache α) (place : Nat) (key : α) (state : Nat) : StateCache α :=
  { c with entries := c.entries.insert place (key, state) }

end StateCache

abbrev Ways := List (ByteRange × Nat)

/-- A state that is not complete: its ways out, the last one first, and a range whose state is not
known yet. -/
structure OpenState where
  ways : Ways := []
  last : Option ByteRange := none

def OpenState.lead (s : OpenState) (target : Nat) : OpenState :=
  match s.last with
  | none => s
  | some r => ⟨(r, target) :: s.ways, none⟩

/-- Where the states of a class stand while its sequences are added in order: the open states, the
deepest first, and the states that can be used again. -/
structure ClassBuilder where
  room : Room
  target : Nat
  cache : StateCache Ways
  path : List OpenState := [{}]

namespace ClassBuilder

/-- The state for some ways out. An equal state is used again if it is still kept. -/
def state (b : ClassBuilder) (ways : Ways) : Option (ClassBuilder × Nat) := do
  let numbers := ways.flatMap fun w => [w.1.low, w.1.high, w.2]
  let place := (hashOf numbers).toNat % b.cache.size
  match b.cache.find? place ways with
  | some id => return (b, id)
  | none =>
    let id := b.room.states
    let room ← b.room.addWays ways.length
    return ({ b with room := room, cache := b.cache.insert place ways id }, id)

/-- Completes the deepest open states, of which there are so many, and lets the state above them
lead to them. -/
def complete : Nat → Nat → ClassBuilder → Option ClassBuilder
  | 0, target, b =>
    match b.path with
    | [] => some b
    | s :: rest => some { b with path := s.lead target :: rest }
  | count + 1, target, b =>
    match b.path with
    | [] => some b
    | s :: rest => do
      let (b, id) ← { b with path := rest }.state (s.lead target).ways.reverse
      complete count id b

def sharedLength : List ByteRange → List OpenState → Nat
  | r :: rs, s :: ss => if s.last = some r then 1 + sharedLength rs ss else 0
  | _, _ => 0

def addSequence (b : ClassBuilder) (l : List ByteRange) : Option ClassBuilder := do
  let shared := sharedLength l b.path.reverse
  let b ← complete (b.path.length - (shared + 1)) b.target b
  match l.drop shared, b.path with
  | r :: more, s :: rest =>
    let deeper := more.map fun r => OpenState.mk [] (some r)
    return { b with path := deeper.reverse ++ { s with last := some r } :: rest }
  | _, _ => return b

end ClassBuilder

def keptStates : Nat := 10000

def keptEndings : Nat := 1000

/-- A class that reads its characters forwards. Sequences share what they begin and end with. -/
def buildClass (sequences : List (List ByteRange)) (r : Room) : Built := do
  let target := r.states
  let room ← r.add 1
  let b ← sequences.foldlM ClassBuilder.addSequence ⟨room, target, ⟨keptStates, {}⟩, [{}]⟩
  let b ← ClassBuilder.complete (b.path.length - 1) target b
  match b.path with
  | [] => return (b.room, false)
  | root :: _ =>
    let (b, _) ← b.state root.ways.reverse
    return (b.room, false)

/-- The states of one sequence read backwards. Each is kept for sequences that begin like this
one. -/
def buildReversedSequence : List ByteRange → Nat → Room → StateCache (Nat × ByteRange) →
    Option (Room × StateCache (Nat × ByteRange))
  | [], _, r, cache => some (r, cache)
  | b :: rest, next, r, cache => do
    let place := (hashOf [next, b.low, b.high]).toNat % cache.size
    match cache.find? place (next, b) with
    | some id => buildReversedSequence rest id r cache
    | none =>
      let id := r.states
      let r ← r.add 1
      buildReversedSequence rest id r (cache.insert place (next, b) id)

def buildReversedClass (sequences : List (List ByteRange)) (r : Room) : Built := do
  let r ← r.add 2
  let target := r.states - 1
  let (r, _) ← sequences.foldlM
    (fun (r, cache) l => do
      let (r, cache) ← buildReversedSequence l target r cache
      return (← r.branch 1, cache))
    (r, StateCache.mk keptEndings {})
  return (r, false)

/-- The groups of the literals that pass through one node of a tree, the last group first. A literal
that ends at the node ends a group, since it is preferred to those behind it. -/
def nodeGroups (l : List (List Nat)) : List (List (List Nat)) :=
  l.foldl (fun groups literal =>
    match literal, groups with
    | [], _ => if 1 < groups.length && groups.all List.isEmpty then groups else [] :: groups
    | b :: rest, g :: more => (g ++ [b :: rest]) :: more
    | _, [] => [[literal]]) [[]]

def restsByFirst (group : List (List Nat)) : List (List (List Nat)) :=
  (group.filterMap List.head?).eraseDups.map fun b =>
    group.filterMap fun l => if l.head? = some b then some l.tail else none

/-- The tree of some literals below one of its nodes: a state for each group, with a way on for each
byte, and a fork of the groups. The fuel is more than the literals are long. -/
def buildNode : Nat → List (List Nat) → Room → Option Room
  | 0, _, r => some r
  | fuel + 1, l, r => do
    let groups := nodeGroups l
    if groups.all List.isEmpty then return r
    let r ← groups.foldlM (fun r group => do
      let rests := restsByFirst group
      let r ← rests.foldlM (fun r l => buildNode fuel l r) r
      match rests with
      | [] => return r
      | [_] => r.add 1
      | _ => r.addWays rests.length) r
    let filled := groups.countP fun g => !g.isEmpty
    (← r.add 1).branch (filled + groups.length - 1)

def buildLiterals (literals : List (List Nat)) (r : Room) : Built := do
  let r ← r.add 1
  let longest := literals.foldl (fun n l => Nat.max n l.length) 0
  return (← buildNode (longest + 1) literals r, false)

def bytesOfText (text : List Char) : List Nat := text.flatMap fun c => bytesOfCode c.toNat

def buildCopies (build : Room → Built) : Nat → Room → Bool → Built
  | 0, r, forked => some (r, forked)
  | count + 1, r, forked => do
    let (r, next) ← build r
    buildCopies build count (← r.join forked) next

def buildExactly (build : Room → Built) : Nat → Room → Built
  | 0, r => do return (← r.add 1, false)
  | count + 1, r => do
    let (r, forked) ← build r
    buildCopies build count r forked

def buildOptional (build : Room → Built) : Nat → Room → Bool → Built
  | 0, r, forked => some (r, forked)
  | count + 1, r, forked => do
    let (r, next) ← build (← r.add 1)
    buildOptional build count (← (← r.join forked).branch 2) next

/-- A part that is repeated at will. If it can match the empty text, repeating it and leaving it out
are two forks. -/
def buildStar (build : Room → Built) (advances : Bool) (r : Room) : Built := do
  if advances then
    let (r, forked) ← build (← r.add 1)
    return (← (← r.join forked).branch 1, true)
  else
    let (r, forked) ← build r
    let r ← (← r.add 1).join forked
    return (← (← r.add 2).branch 4, false)

def buildTimes (build : Room → Built) (advances : Bool) (min : Nat) (max : Option Nat) (r : Room) :
    Built :=
  match min, max with
  | 0, none => buildStar build advances r
  | min + 1, none => do
    let (r, forked) ← buildExactly build (min + 1) r
    return (← (← (← r.add 1).join forked).branch 1, true)
  | min, some max =>
    if min = max then buildExactly build min r
    else if min = 0 ∧ max = 1 then do
      let (r, forked) ← build (← r.add 1)
      return (← (← (← r.add 1).branch 2).join forked, false)
    else do
      let (r, forked) ← buildExactly build min r
      let (r, forked) ← buildOptional build (max - min) (← r.add 1) forked
      return (← r.join forked, false)

/-- A class. In ASCII one state with a way out for each range is enough. -/
def buildRanges (reversed : Bool) (ranges : List (Nat × Nat)) (sequences : List (List ByteRange))
    (r : Room) : Built :=
  if ranges.all fun range => range.2 < 0x80 then do
    return (← (← r.add 1).addWays ranges.length, false)
  else if reversed then buildReversedClass sequences r
  else buildClass sequences r

/-- Alternatives that are no literals: two of them lie before the fork that leads to all. -/
def buildBranches (first second : Room → Built) (more : List (Room → Built)) (r : Room) :
    Built := do
  let (r, firstForked) ← first r
  let (r, secondForked) ← second r
  let r ← (← (← (← r.add 2).branch 2).join firstForked).join secondForked
  let r ← more.foldlM (fun r build => do
    let (r, forked) ← build r
    (← r.branch 1).join forked) r
  return (r, false)

namespace Shape

def literal? : Shape → Option (List Nat)
  | .literal text => some (bytesOfText text)
  | _ => none

def buildOf (reversed : Bool) (s : Shape) (alternatives : List (Room → Built)) : Room → Built :=
  match alternatives with
  | [] => fun r => some (r, false)
  | [build] => build
  | first :: second :: more =>
    match s.branches.mapM literal? with
    | some literals =>
      buildLiterals (if reversed then literals.map List.reverse else literals)
    | none => buildBranches first second more

/-- What builds the automata of alternatives behind what is built already. Only automata that read
forwards keep what groups matched. -/
def builders (reversed : Bool) : Shape → List (Room → Built)
  | .empty | .assertion _ => [fun r => do return (← r.add 1, false)]
  | .literal text =>
    let count := (bytesOfText text).length
    [fun r => do return (← r.add count, false)]
  | .oneOf ranges => [buildRanges reversed ranges (octetsOf ranges)]
  | .capture s =>
    let inner := s.buildOf reversed (s.builders reversed)
    [if reversed then inner
      else fun r => do
        let (r, forked) ← inner (← r.add 1)
        return (← (← r.add 1).join forked, false)]
  | .times s min max =>
    [buildTimes (s.buildOf reversed (s.builders reversed)) (s.least.any (0 < ·)) min max]
  | .seq s t =>
    let buildS := s.buildOf reversed (s.builders reversed)
    let buildT := t.buildOf reversed (t.builders reversed)
    let (first, second) := if reversed then (buildT, buildS) else (buildS, buildT)
    [fun r => do
      let (r, forked) ← first r
      let (r, ending) ← second r
      return (← r.join forked, ending)]
  | .alt s t => s.buildOf reversed (s.builders reversed) :: t.builders reversed

def build (reversed : Bool) (s : Shape) : Room → Built := s.buildOf reversed (s.builders reversed)

end Shape

/-- What lets a match begin anywhere: a fork that leads over any byte back to itself, or on. It is
not needed where all matches have to begin at an end of the text. -/
def buildStart (anchored : Bool) : Option Room :=
  if anchored then Room.add {} 1 else do (← (← Room.add {} 2).addWays 1).branch 2

/-- The room of the automaton that reads forwards. It keeps where the whole match is. -/
def forwardRoom (s : Shape) : Option Room := do
  let (r, forked) ← s.build false (← (← buildStart (s.beginsWith .textStart)).add 1)
  (← r.join forked).add 2

def backwardRoom (s : Shape) : Option Room := do
  let (r, forked) ← s.build true (← buildStart (s.endsWith .textEnd))
  (← r.join forked).add 1

def Pattern.fits (p : Pattern) : Bool :=
  (forwardRoom p.shape).isSome && (backwardRoom p.shape).isSome

end Retest.Regex
