import Runbook.Plan.Basic
import Runbook.Plan.Name

/-!
# Templates

Three kinds of work come with a plan to start from: criteria, commands that show where one stands,
and three tasks. A template gives everything but the name and the goal.
-/

set_option autoImplicit false

namespace Runbook

/-- The kinds of work that have a template. -/
inductive Template where
  | feature
  | bugfix
  | refactor
deriving DecidableEq, Repr

namespace Template

def all : List Template := [.feature, .bugfix, .refactor]

/-- The word in a plan's header. -/
def label : Template → String
  | .feature => "Feature"
  | .bugfix => "Bugfix"
  | .refactor => "Refactor"

/-- The word that chooses the template. -/
def word : Template → String
  | .feature => "feature"
  | .bugfix => "bugfix"
  | .refactor => "refactor"

/-- What a title says behind the name of the plan. -/
def titleSuffix : Template → String
  | .feature => "Implementation Plan"
  | .bugfix => "Bug Fix Plan"
  | .refactor => "Refactoring Plan"

/-- The template that a word chooses, whatever its case. -/
def ofWord? (word : String) : Option Template :=
  let said := Text.lower (Text.trim word.toList)
  all.find? fun t => t.word.toList == said

def unknown (word : String) : String :=
  "Invalid plan type: " ++ word ++ ". Use: feature, bugfix, or refactor"

def title (t : Template) (name : String) : String :=
  PlanName.titleCase name ++ " " ++ t.titleSuffix

def criteria : Template → List String
  | .feature =>
    ["All acceptance criteria met", "All tests passing", "Code reviewed and approved",
     "Documentation updated"]
  | .bugfix =>
    ["Bug reproduces before fix", "Bug no longer reproduces after fix", "Regression tests added",
     "All existing tests still pass"]
  | .refactor =>
    ["All tests pass before and after refactor", "Code complexity reduced",
     "Documentation updated", "No regressions introduced"]

def context : Template → List String
  | .feature => ["ls -la src/ tests/", "git status --short"]
  | .bugfix => ["git log --oneline -10", "git status --short"]
  | .refactor => ["git status --short", "make test"]

/-- A task of a template. -/
def task (number : Nat) (name context : String) (steps : List String) (verify : String) : Task :=
  { Task.new number name with context, steps, verify }

def tasks : Template → List Task
  | .feature =>
    [task 1 "Setup and Foundation" "src/, tests/"
      ["Review existing codebase structure", "Set up necessary directories",
       "Configure development dependencies"] "ls -la src/ tests/",
     task 2 "Core Implementation" "src/feature/, tests/feature/"
      ["Implement core feature logic", "Add comprehensive tests", "Export and integrate"]
      "make test",
     task 3 "Integration and Polish" "src/, docs/"
      ["Integrate with existing system", "Update documentation", "Run full test suite"]
      "make test"]
  | .bugfix =>
    [task 1 "Reproduce and Investigate" "src/, tests/, logs/"
      ["Reproduce the bug reliably", "Add reproduction test case", "Investigate root cause"] "",
     task 2 "Implement Fix" "src/, tests/"
      ["Implement the fix", "Verify fix resolves issue", "Add regression tests"] "make test",
     task 3 "Verify and Deploy" "src/, tests/"
      ["Run full test suite", "Check for regressions", "Document the fix"] "make test"]
  | .refactor =>
    [task 1 "Prepare Baseline" "src/, tests/"
      ["Ensure all tests pass", "Document current behavior", "Take code coverage snapshot"]
      "make test",
     task 2 "Apply Refactoring" "src/module/, tests/module/"
      ["Apply refactoring changes", "Verify tests still pass", "Update type annotations"]
      "make test",
     task 3 "Cleanup and Verify" "src/, tests/, docs/"
      ["Remove deprecated code", "Update documentation", "Run full test suite"] "make test"]

def plan (t : Template) (goal : String) : Plan :=
  { spec := { goal, criteria := t.criteria, kind := t.label, status := .draft }
    context := t.context
    groups := [{ TaskGroup.new TaskGroup.general with tasks := t.tasks }] }

end Template

end Runbook
