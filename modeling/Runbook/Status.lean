import Runbook.Text.Blank
import Runbook.Text.Case

/-!
# Status of tasks, groups and plans

Tasks and groups move through a closed set of states. A plan shows its state as a word in its
header that people also edit, so beside the four words this library writes it may hold any other
(`PlanStatus.other`).
-/

set_option autoImplicit false

namespace Runbook

/-- How far a task or a group has come. -/
inductive TaskStatus where
  | pending
  | inProgress
  | completed
  | failed
  | skipped
deriving DecidableEq, Repr, Inhabited

/-- Nothing follows: the task is not taken up again. -/
def TaskStatus.isTerminal : TaskStatus → Bool
  | .completed | .failed | .skipped => true
  | .pending | .inProgress => false

def TaskStatus.word : TaskStatus → String
  | .pending => "pending"
  | .inProgress => "in_progress"
  | .completed => "completed"
  | .failed => "failed"
  | .skipped => "skipped"

/-- All statuses, in the order in which a task may pass through them. -/
def TaskStatus.all : List TaskStatus := [.pending, .inProgress, .completed, .failed, .skipped]

def TaskStatus.ofWord? (word : String) : Option TaskStatus :=
  TaskStatus.all.find? (·.word == word)

theorem TaskStatus.ofWord?_word (s : TaskStatus) : TaskStatus.ofWord? s.word = some s := by
  cases s <;> decide

/-- The state of a plan as its header shows it. -/
inductive PlanStatus where
  | draft
  | inProgress
  | completed
  | failed
  | other (word : String)
deriving DecidableEq, Repr, Inhabited

/-- The word written into the header. -/
def PlanStatus.marker : PlanStatus → String
  | .draft => "DRAFT"
  | .inProgress => "IN_PROGRESS"
  | .completed => "COMPLETED"
  | .failed => "FAILED"
  | .other word => word

/-- The state that a header word stands for, read without regard to case. No word at all is a
draft. -/
def PlanStatus.ofWord (word : String) : PlanStatus :=
  let shown := Text.trim word.toList
  let upper := Text.upper shown
  if upper = "".toList ∨ upper = "DRAFT".toList then .draft
  else if upper = "IN_PROGRESS".toList then .inProgress
  else if upper = "COMPLETED".toList then .completed
  else if upper = "FAILED".toList then .failed
  else .other (String.ofList shown)

end Runbook
