import Retest.Collection.SortedSet
import Retest.Run.Feed
import Retest.Run.History

/-! The tests that one worker was given, and what is known about each of them. The first result of a
test counts, and whatever concerns other tests is passed over. -/

namespace Retest

structure Docket where
  session : SessionId
  tests : List String
  started : SortedMap String Moment := .empty
  finished : SortedSet String := .empty
  deriving Repr, DecidableEq

inductive WorkerNews where
  | started (test : String)
  | finished (test : String) (outcome : Outcome) (diagnostic : Option Diagnostic)
  deriving Repr, DecidableEq

/-- What has to be done about a piece of news, one small step after the other: a result is noted in
the history, an event is published, a result is counted for its session. -/
inductive Errand where
  | note (result : TestResult)
  | publish (event : Event)
  | count (session : SessionId) (outcome : Outcome)
  deriving Repr, DecidableEq

def TestResult.announce (r : TestResult) : List Errand :=
  [.publish (.finished r), .count r.session r.outcome]

namespace Docket

def expects (d : Docket) (test : String) : Bool :=
  d.tests.contains test && !d.finished.contains test

/-- A test began. Only the first start of an expected test is news. -/
def start (d : Docket) (now : Moment) (test : String) : Docket × List Errand :=
  if !d.expects test || d.started.contains test then (d, [])
  else ({ d with started := d.started.insert test now }, [.publish (.started d.session test)])

/-- A test ended. It took the time since it was reported to begin. -/
def finish (d : Docket) (now : Moment) (test : String) (outcome : Outcome)
    (diagnostic : Option Diagnostic) : Docket × List Errand :=
  if !d.expects test then (d, [])
  else
    let duration := (d.started.find? test).map fun t => (now.millis - t.millis).toNat
    let result : TestResult :=
      { session := d.session, test, outcome, diagnostic, duration, finishedAt := now }
    ({ d with finished := d.finished.insert test }, .note result :: result.announce)

def hear (d : Docket) (now : Moment) : WorkerNews → Docket × List Errand
  | .started test => d.start now test
  | .finished test outcome diagnostic => d.finish now test outcome diagnostic

def hearAll (now : Moment) : Docket → List WorkerNews → Docket × List Errand
  | d, [] => (d, [])
  | d, news :: rest =>
    let (d, first) := d.hear now news
    let (d, more) := hearAll now d rest
    (d, first ++ more)

def unfinished (d : Docket) : List String := d.tests.filter fun t => !d.finished.contains t

def isComplete (d : Docket) : Bool := d.finished.size = d.tests.length

/-- Ends every test of a list with the same reason; the outcome may depend on the test. -/
def finishAll (now : Moment) (outcome : String → Outcome) (reason : String) :
    Docket → List String → Docket × List Errand
  | d, [] => (d, [])
  | d, t :: rest =>
    let (d, first) := d.finish now t (outcome t) (some { message := reason })
    let (d, more) := finishAll now outcome reason d rest
    (d, first ++ more)

/-- The worker went away: what was running crashed, and the rest was not run. -/
def failRemaining (d : Docket) (now : Moment) (reason : String) : Docket × List Errand :=
  finishAll now (fun t => if d.started.contains t then .crashed else .notRun) reason d d.unfinished

/-- The run was called off: what has no result counts as not run. -/
def cancelRemaining (d : Docket) (now : Moment) : Docket × List Errand :=
  finishAll now (fun _ => .notRun) "run cancelled" d d.unfinished

/-- The worker says that it is done: what has no result is an error. -/
def missRemaining (d : Docket) (now : Moment) : Docket × List Errand :=
  finishAll now (fun _ => .error) "worker finished without reporting a result" d d.unfinished

end Docket

structure Desk where
  feed : Feed
  history : History := {}
  deriving Repr, Inhabited

namespace Desk

/-- Does one errand. Counting the last result of a session leaves another one: to publish the
summary. -/
def deliver (k : Desk) (now : Moment) : Errand → Desk × List Errand
  | .note r => ({ k with history := k.history.record r.test r.outcome r.duration }, [])
  | .publish e => ({ k with feed := k.feed.publish e }, [])
  | .count session outcome =>
    match k.feed.countDown session outcome with
    | (feed, none) => ({ k with feed }, [])
    | (feed, some s) =>
      ({ k with feed }, [.publish (.complete session { s with finishedAt := some now })])

def settle (k : Desk) (now : Moment) (e : Errand) : Desk :=
  let (k, more) := k.deliver now e
  more.foldl (fun k e => (k.deliver now e).1) k

def settleAll (k : Desk) (now : Moment) (l : List Errand) : Desk :=
  l.foldl (fun k e => k.settle now e) k

end Desk

end Retest
