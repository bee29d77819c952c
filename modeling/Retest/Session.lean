import Retest.Run.Engine
import Retest.Select.Selection
import Retest.Select.Watchlist

namespace Retest

/-- What one pass found and queued. Nothing was queued if there is no session. -/
structure Update where
  changes : Changes := {}
  tests : SortedSet String := .empty
  session : Option SessionId := none
  deriving Repr, Inhabited

structure Session where
  watch : Watchlist := {}
  selection : Selection := {}
  engine : Engine
  deriving Inhabited

namespace Session

def ofDirs (dirs : List Path) (rules : RuleBook) (engine : Engine) : Session :=
  { watch := { roots := dirs }, selection := { rules, classDirs := dirs }, engine }

/-- Publishes why a selection failed. -/
def report (s : Session) (e : RuleFileError) : Session :=
  let feed := s.engine.desk.feed.diagnostic none e.message
  { s with engine := { s.engine with desk := { s.engine.desk with feed } } }

def queue (s : Session) (now : Moment) (changes : Changes) (tests : SortedSet String) :
    Session × Update :=
  let (engine, session) := s.engine.run now tests.toList
  ({ s with engine }, { changes, tests, session })

def indexAll (s : Session) (tree : FileTree) (source : ClassSource) : Session × Changes :=
  let (watch, changes) := s.watch.scan tree
  if changes.isEmpty then ({ s with watch }, changes)
  else
    let (catalog, _) := s.selection.catalog.update source tree.pathExists changes.all
    ({ s with watch, selection := { s.selection with catalog } }, changes)

/-- All tests that can run now. A failure is not published. -/
def currentTests (s : Session) (tree : FileTree) :
    Session × Except RuleFileError (SortedSet String) :=
  let (selection, tests) := s.selection.testsNow tree
  ({ s with selection }, tests)

/-- The tests that some files call for, without running them. -/
def testsFor (s : Session) (tree : FileTree) (source : ClassSource) (files : List Path) :
    Session × Except RuleFileError (SortedSet String) :=
  match s.selection.testsFor tree source files with
  | (selection, .error e) => ({ s with selection }.report e, .error e)
  | (selection, .ok tests) => ({ s with selection }, .ok tests)

def update (s : Session) (tree : FileTree) (source : ClassSource) (now : Moment) :
    Session × Except RuleFileError Update :=
  let (watch, changes) := s.watch.scan tree
  let s := { s with watch }
  if changes.isEmpty then (s, .ok {})
  else
    match s.testsFor tree source changes.all with
    | (s, .error e) => (s, .error e)
    | (s, .ok tests) =>
      let (s, u) := s.queue now changes tests
      (s, .ok u)

def runAll (s : Session) (tree : FileTree) (source : ClassSource) (now : Moment) :
    Session × Except RuleFileError Update :=
  let (s, changes) := s.indexAll tree source
  match s.currentTests tree with
  | (s, .error e) => (s.report e, .error e)
  | (s, .ok tests) =>
    let (s, u) := s.queue now changes tests
    (s, .ok u)

def clear (s : Session) : Session :=
  { s with watch := s.watch.clear, selection := { s.selection with catalog := .empty } }

end Session

end Retest
