import Runbook.Error
import Runbook.Files.Path
import Runbook.TaskGroup

/-!
# Plans

A plan is the text it was read from together with what was read. Carrying it out changes the
statuses of its groups and tasks; of the text only the status word and the step boxes change
(`Runbook.Plan.Marks`), which is why the text is kept whole.
-/

set_option autoImplicit false

namespace Runbook

/-- What a plan is for. Whatever the document does not say is what it is here, so that a plan can be
made without a header. -/
structure Specification where
  goal : String := ""
  criteria : List String := []
  kind : String := "Unknown"
  status : PlanStatus := .draft
deriving DecidableEq, Repr, Inhabited

/-- A plan with the text that it was read from. The statuses of groups and tasks belong to a run and are
never read; the status of the plan is. -/
structure Plan where
  /-- The file that holds the text, when there is one. -/
  path : Option String := none
  text : String := ""
  spec : Specification := {}
  /-- Commands to run before the first group. -/
  context : List String := []
  groups : List TaskGroup := []
  /-- The line that holds the status word, counted from zero. -/
  statusLine : Option Nat := none
deriving DecidableEq, Repr, Inhabited

namespace Plan

/-- The plan's file name without its extension, or `plan` for one without a file. -/
def name (p : Plan) : String := (p.path.bind Files.stem?).getD "plan"

def groupNames (p : Plan) : List String := p.groups.map (·.name)

def tasks (p : Plan) : List Task := p.groups.flatMap (·.tasks)

def totalTasks (p : Plan) : Nat := p.tasks.length

/-- The greatest number of a task, over all groups: a task that is added is numbered behind it. -/
def maxTaskNumber (p : Plan) : Nat := p.tasks.foldl (fun m t => max m t.number) 0

end Plan

end Runbook
