import Runbook.Plan.Parser
import Runbook.Plan.Printer

/-!
# Adding a group to a plan

A new group is written behind the last line of the section of tasks, under a heading one level
below the section's own, and its tasks are numbered on from the highest number there is. A document
without such a section gets one at its end. Everything else stays as it is.
-/

set_option autoImplicit false

namespace Runbook.Plan

open Text Markdown

/-- The text as something may be written behind it: with its last line ended and a blank line. -/
def spaced (text : List Char) : List Char :=
  if text = [] then []
  else
    let ended := if text.getLast? = some '\n' then text else text ++ ['\n']
    if ['\n', '\n'].isSuffixOf ended then ended else ended ++ ['\n']

/-- Tasks with the numbers from one on. What belongs to a run or to another text is left out. -/
def renumbered (first : Nat) (tasks : List Task) : List Task :=
  tasks.zipIdx.map fun (t, i) =>
    { Task.new (first + i) t.name with context := t.context, verify := t.verify, steps := t.steps }

/-- A group of some name with tasks numbered from one on. -/
def newGroup (name : String) (first : Nat) (tasks : List Task) : TaskGroup :=
  { TaskGroup.new (trimmed name) with tasks := renumbered first tasks }

/-- The text with a block between two of its chunks. -/
def insertAt (text : List Char) (line : Nat) (block : List Char) : List Char :=
  spaced ((chunks text).take line).flatten ++ block ++ ((chunks text).drop line).flatten

/-- The text of a plan with a group of tasks added to it. -/
def extend (text name : String) (tasks : List Task) : Except ParseError String :=
  let outline := Outline.ofText text.toList
  match taskSection? outline with
  | none =>
    let block := (newGroup name 1 tasks).render 3 true
    .ok (String.ofList (insertAt text.toList outline.lines.length
      (tasksHeading ++ block).toList))
  | some found =>
    let level := found.heading.level + 1
    if level > 6 then .error (.atLine found.heading.line .tasksTooDeep)
    else
      (parse text).map fun p =>
        let block := (newGroup name (p.maxTaskNumber + 1) tasks).render level true
        String.ofList (insertAt text.toList found.stop block.toList)

end Runbook.Plan
