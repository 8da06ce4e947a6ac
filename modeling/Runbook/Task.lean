import Runbook.Status

/-!
# Tasks

A task is the smallest unit of work: steps in order, some of them commands, and a verify command
whose exit code decides whether the task is accepted.
-/

set_option autoImplicit false

namespace Runbook

/-- One task of a plan. -/
structure Task where
  /-- `task-<number>` for every task read from a plan. -/
  id : String
  number : Nat
  name : String
  context : String := ""
  steps : List String := []
  /-- The command that accepts the task; blank when there is none. -/
  verify : String := ""
  status : TaskStatus := .pending
  /-- The diagnostic of the command that failed. -/
  error : Option String := none
  /-- The lines of the plan's text that hold the steps, counted from zero. -/
  stepLines : List Nat := []
deriving DecidableEq, Repr, Inhabited

namespace Task

/-- Task numbers are below 2^32. -/
def numberBound : Nat := 4294967296

def idOf (number : Nat) : String := "task-" ++ toString number

def new (number : Nat) (name : String) : Task :=
  { id := idOf number, number, name }

/-- Is there a command that accepts the task? -/
def hasVerify (t : Task) : Bool := !Text.isBlankText t.verify

def fail (t : Task) (diagnostic : String) : Task :=
  { t with status := .failed, error := some diagnostic }

def addStep (t : Task) (step : String) (line : Nat) : Task :=
  { t with steps := t.steps ++ [step], stepLines := t.stepLines ++ [line] }

/-- Is there nothing left to do for the task? -/
def isTerminal (t : Task) : Bool := t.status.isTerminal

end Task

end Runbook
