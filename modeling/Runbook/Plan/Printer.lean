import Runbook.Markdown.CodeSpan
import Runbook.Plan.Basic

/-!
# Writing a plan

The text of a plan, in the one form that this library writes. What a plan says is written so that
it is read back (`Runbook.Plan.Parser`): the group without a heading comes first, steps have empty
boxes, and a task ends with a rule. Statuses of tasks are not written; they belong to a run.
-/

set_option autoImplicit false

namespace Runbook

open Markdown

/-- Texts, each on a line of its own. -/
def unlines (texts : List String) : String := String.join (texts.map (· ++ "\n"))

/-- The lines of numbered steps with empty boxes. -/
def numberedItems (steps : List String) : List String :=
  steps.zipIdx.map fun (step, i) => toString (i + 1) ++ ". [ ] " ++ step

/-- A task under a heading of the given number signs. -/
def Task.render (hashes : String) (t : Task) : String :=
  hashes ++ " Task " ++ toString t.number ++ ": " ++ t.name ++ "\n\n"
    ++ (if t.context = "" then "" else "**Context:** " ++ quoted t.context ++ "\n\n")
    ++ (if t.steps = [] then "" else "**Steps:**\n\n" ++ unlines (numberedItems t.steps) ++ "\n")
    ++ (if t.hasVerify then "**Verify:** " ++ quoted t.verify ++ "\n\n" else "")
    ++ "---\n\n"

/-- The mark of a heading of some level. -/
def headingMark (level : Nat) : String := String.ofList (List.replicate level '#')

/-- A group whose headings have the given level. -/
def TaskGroup.render (level : Nat) (withHeading : Bool) (g : TaskGroup) : String :=
  (if withHeading then headingMark level ++ " " ++ g.name ++ "\n\n" else "")
    ++ String.join (g.tasks.map (Task.render (headingMark level)))

namespace Plan

/-- The heading of the section of tasks. -/
def tasksHeading : String := "## Tasks\n\n"

/-- The section of tasks. The general group has no heading where it comes first. -/
def renderTasks : List TaskGroup → String
  | [] => tasksHeading
  | g :: gs =>
    tasksHeading ++ g.render 3 (g.name ≠ TaskGroup.general)
      ++ String.join (gs.map (TaskGroup.render 3 true))

def renderCommand (command : String) : String :=
  let fence := String.ofList (List.replicate 3 codeQuote)
  fence ++ "bash\n" ++ command ++ "\n" ++ fence ++ "\n\n"

/-- A plan as a whole document, with a title and perhaps the day it was made. -/
def render (p : Plan) (title : String) (created : Option String) : String :=
  "# " ++ title ++ "\n\n"
    ++ "> **Status:** " ++ p.spec.status.marker ++ "\n"
    ++ "> **Type:** " ++ p.spec.kind ++ "\n"
    ++ (match created with
        | some day => "> **Created:** " ++ day ++ "\n"
        | none => "")
    ++ "\n## Specification\n\n**Goal:** " ++ p.spec.goal ++ "\n\n"
    ++ (if p.spec.criteria = [] then ""
        else "**Success Criteria:**\n\n" ++ unlines (p.spec.criteria.map ("- [ ] " ++ ·)) ++ "\n")
    ++ (if p.context = [] then ""
        else "## Context Loading\n\n_Run before starting:_\n\n"
          ++ String.join (p.context.map renderCommand))
    ++ renderTasks p.groups

/-- The plan in a few lines, shown before it is carried out. -/
def summary (p : Plan) : String :=
  let rule := String.ofList (List.replicate 60 '=')
  "\n" ++ rule ++ "\n"
    ++ "Plan: " ++ p.name ++ "\n"
    ++ "Type: " ++ p.spec.kind ++ "\n"
    ++ "Goal: " ++ (if p.spec.goal = "" then "Not specified" else p.spec.goal) ++ "\n"
    ++ "\nTask Groups: " ++ toString p.groups.length ++ "\n"
    ++ unlines (p.groups.map fun g =>
        "  - " ++ g.name ++ ": " ++ toString g.tasks.length ++ " tasks")
    ++ rule ++ "\n"

end Plan

end Runbook
