/-!
# Settings of a run
-/

set_option autoImplicit false

namespace Runbook

/-- How plans are carried out. Times are in seconds. -/
structure RunSettings where
  /-- How many groups may run side by side. -/
  batchSize : Nat := 3
  commandTimeout : Nat := 60
  contextTimeout : Nat := 30
  /-- The words that make a step a command. -/
  programs : List String := ["$", "git", "npm", "python", "cargo", "make", "sh", "bash"]
  /-- Also tick the steps of completed tasks in the plan's text. -/
  markSteps : Bool := false
  /-- Where to keep the entries of runs. -/
  logDirectory : Option String := none
deriving DecidableEq, Repr, Inhabited

namespace RunSettings

/-- A batch holds at least one group. -/
def effectiveBatchSize (s : RunSettings) : Nat := max s.batchSize 1

def commandMillis (s : RunSettings) : Nat := s.commandTimeout * 1000

def contextMillis (s : RunSettings) : Nat := s.contextTimeout * 1000

end RunSettings

end Runbook
