import Retest.CommandLine.Project
import Retest.CommandLine.Request
import Retest.Run.Host

namespace Retest.CommandLine

structure Surroundings where
  tree : FileTree
  environment : Environment := {}
  processors : Nat := 1
  screen : Screen := {}

namespace Surroundings

def workforce (s : Surroundings) (c : Config) (command : List String) : Workforce :=
  let vars := (s.environment.set "TESTLOOP_PROJECT" c.name).vars
  let machine (tree : FileTree) : Machine := { tree, dir := some c.base, vars }
  { launch := fun tree => (machine tree).host.start command, tree := s.tree }

def fail (s : Surroundings) (message : String) : Verdict :=
  { code := 1, err := Project.failText s.screen message }

def patience : Nat := 1000000

/-- Does the work of a task for a project. There is no verdict for work that does not end. -/
def perform (task : Task) (now : Moment) (p : Project) (workers : Workforce) : Option Verdict :=
  match task with
  | .watch => none
  | .run => p.run Workforce.crew workers now patience
  | .list => some p.list
  | .affected files => some (p.affected files)

def answer (s : Surroundings) (r : Request) (now : Moment) : Option Verdict :=
  let file := r.config.getD ⟨ConfigError.fileName⟩
  match s.tree.canonical file with
  | .error e => some (s.fail ("Could not find config file: " ++ file.text ++ ": " ++ e.message))
  | .ok file =>
    match Config.load s.tree file with
    | .error e => some (s.fail ("Could not load " ++ file.text ++ ": " ++ e.fullMessage))
    | .ok c =>
      match c.dirs s.tree with
      | .error e => some (s.fail e.fullMessage)
      | .ok dirs =>
        match c.workerCommand s.environment with
        | .error e => some (s.fail e.fullMessage)
        | .ok command =>
          let project := Project.ofConfig c s.tree s.screen s.processors dirs
          Project.carryOut project fun p => perform r.task now p (s.workforce c command)

def versionText : String := "testloop 0.1.0\n"

def usageText : String :=
  "Usage: testloop [-c CONFIG] [-v] watch | run | list | affected FILE...\n"

def respond (s : Surroundings) (args : List String) (now : Moment) : Option Verdict :=
  match Request.ofArgs args with
  | .error .version => some { code := 0, out := versionText }
  | .error .usage => some { code := 2, err := usageText }
  | .ok r => s.answer r now

end Surroundings

end Retest.CommandLine
