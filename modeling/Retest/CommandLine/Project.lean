import Retest.ClassFile.Roots
import Retest.Config
import Retest.Run.Console
import Retest.Run.Process
import Retest.Session

namespace Retest

structure Verdict where
  code : Nat
  out : String := ""
  err : String := ""
  deriving Repr, DecidableEq

structure Project where
  name : String
  tree : FileTree
  source : ClassSource
  session : Session
  screen : Screen := {}

namespace Project

def ofConfig (c : Config) (tree : FileTree) (screen : Screen) (processors : Nat)
    (dirs : List Path) : Option Project :=
  let settings : EngineSettings :=
    { batchSize := c.batchSize, priority := .failFast, reusable := c.reuse }
  (Engine.create? settings (c.concurrency.getD processors) c.eventCapacity).map fun engine =>
    { name := c.name
      tree
      source := ClassFile.source tree dirs
      session := .ofDirs dirs { file := some c.rulesFile } engine
      screen }

/-- Does some work for a project. Where there is none the program breaks off, with a message that is
left out here. -/
def carryOut (p : Option Project) (work : Project → Option Verdict) : Option Verdict :=
  match p with
  | none => some { code := 101 }
  | some p => work p

def failText (screen : Screen) (message : String) : String :=
  screen.paintBold .red "Error:" ++ " " ++ message ++ "\n"

def fail (p : Project) (out : String) (e : RuleFileError) : Verdict :=
  { code := 1, out, err := failText p.screen e.fullMessage }

def testLines (p : Project) (paint : String → String) (tests : List String) : String :=
  String.join (tests.map fun t => "  " ++ p.screen.paint .green "•" ++ " " ++ paint t ++ "\n")

def list (p : Project) : Verdict :=
  let (s, _) := p.session.indexAll p.tree p.source
  match s.currentTests p.tree with
  | (_, .error e) => p.fail "" e
  | (s, .ok tests) =>
    let head := "\n" ++ p.screen.paint .cyan "📦" ++ " " ++ p.screen.paint .bold p.name ++ "\n\n"
    if tests.isEmpty then
      { code := 0, out := head ++ "  " ++ p.screen.paint .dimmed "No tests found" ++ "\n" }
    else
      { code := 0
        out := head ++ p.screen.paint .bold "Tests:" ++ "\n" ++
          p.testLines (p.screen.paint .cyan) tests.toList ++ "\n" ++ p.screen.paint .green "✓" ++
          " " ++ toString tests.size ++ " test(s), " ++ toString s.selection.catalog.size ++
          " classes indexed\n" }

/-- Tells which tests some files call for. Relative files start from the working directory. -/
def affected (p : Project) (files : List Path) : Verdict :=
  let files := files.map fun f => p.tree.currentDir.join f.text
  let (s, _) := p.session.indexAll p.tree p.source
  match s.testsFor p.tree p.source files with
  | (_, .error e) => p.fail "" e
  | (_, .ok tests) =>
    if tests.isEmpty then { code := 0, out := p.screen.paint .dimmed "No affected tests" ++ "\n" }
    else
      { code := 0
        out := p.screen.paint .blue "→" ++ " " ++ toString tests.size ++ " affected test(s):\n" ++
          p.testLines id tests.toList }

def untilComplete (session : SessionId) : List Event → List Event × Option Summary
  | [] => ([], none)
  | .complete s m :: rest =>
    if s = session then ([], some m)
    else
      let (before, found) := untilComplete session rest
      (.complete s m :: before, found)
  | e :: rest =>
    let (before, found) := untilComplete session rest
    (e :: before, found)

/-- Runs all tests that can run, with a crew of workers. The fuel bounds the steps of the run;
there is no verdict if the session does not come to its end. -/
def run {σ : Type} (p : Project) (crew : Crew σ) (workers : σ) (now : Moment) (fuel : Nat) :
    Option Verdict :=
  let head := p.screen.paint .cyan "🔍" ++ " Indexing " ++ p.screen.paint .bold p.name ++ "...\n"
  let seen := p.session.engine.desk.feed.tail
  match p.session.runAll p.tree p.source now with
  | (_, .error e) => some (p.fail head e)
  | (s, .ok u) =>
    match u.session with
    | none => some { code := 0, out := head ++ p.screen.paint .dimmed "No tests to run" ++ "\n" }
    | some id =>
      let floor := Floor.settle crew now fuel { engine := s.engine, crew := workers }
      let events := floor.engine.desk.feed.published.toList.drop seen
      let (before, summary) := untilComplete id events
      summary.map fun m =>
        { code := if m.allPassed then 0 else 1
          out := head ++ p.screen.paint .blue "→" ++ " Running " ++ toString u.tests.size ++
            " test(s)...\n\n" ++ String.join (before.map p.screen.eventText) ++
            p.screen.summaryText m }

end Project

end Retest
