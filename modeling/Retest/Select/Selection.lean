import Retest.Graph.Catalog
import Retest.Rules.RuleBook

namespace Retest

structure Selection where
  catalog : Catalog := .empty
  rules : RuleBook := {}
  classDirs : List Path := []
  deriving Repr, Inhabited

namespace Selection

def isOwn (s : Selection) (c : JvmClass) : Bool :=
  c.file.any fun file => s.classDirs.any fun dir => file.isUnder dir

def isEligible (s : Selection) (c : JvmClass) : Bool :=
  c.isTest && !c.isUnparsable && !s.rules.reports c.name && s.isOwn c

def eligible (s : Selection) (classes : SortedMap String JvmClass) : SortedSet String :=
  .ofList ((classes.values.filter s.isEligible).map (·.name))

def currentTests (s : Selection) : SortedSet String := s.eligible s.catalog.classes

def reloadRules (s : Selection) (tree : FileTree) : Selection × Except RuleFileError Unit :=
  let (rules, result) := s.rules.reload tree
  ({ s with rules }, result)

/-- The tests that some changed files call for. The rules are loaded first; where they fail to load
or leave nothing to run, the files are not looked at. -/
def testsFor (s : Selection) (tree : FileTree) (source : ClassSource) (files : List Path) :
    Selection × Except RuleFileError (SortedSet String) :=
  match s.reloadRules tree with
  | (s, .error e) => (s, .error e)
  | (s, .ok ()) =>
    if s.rules.acceptsNone then (s, .ok .empty)
    else
      let (catalog, changed) := s.catalog.update source tree.pathExists files
      let s := { s with catalog }
      (s, .ok (s.eligible (changed.union (catalog.dependents changed.keys))))

def testsNow (s : Selection) (tree : FileTree) :
    Selection × Except RuleFileError (SortedSet String) :=
  match s.reloadRules tree with
  | (s, .error e) => (s, .error e)
  | (s, .ok ()) => (s, .ok (if s.rules.acceptsNone then .empty else s.currentTests))

end Selection

end Retest
