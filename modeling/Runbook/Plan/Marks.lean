import Runbook.Markdown.Checkbox
import Runbook.Markdown.Field
import Runbook.Plan.Basic

/-!
# Marks in a plan's text

Carrying out a plan leaves two kinds of marks in its text: the status word in the header and the
boxes of the steps. Both are written chunk by chunk (`Text.chunks`), so that every byte outside of
a mark, line ends included, stays as its author wrote it.
-/

set_option autoImplicit false

namespace Runbook.Plan

open Text Markdown

/-- The text with every chunk changed by a function of its number and itself. -/
def mapChunks (f : Nat → List Char → List Char) (text : String) : String :=
  String.ofList ((chunks text.toList).zipIdx.flatMap fun (chunk, number) => f number chunk)

/-- The text with another status word on a line; without a line to write to it stays as it is. -/
def rewriteStatus (text : String) (line : Option Nat) (status : PlanStatus) : String :=
  match line with
  | none => text
  | some line =>
    mapChunks (fun number chunk =>
      if number = line then rewriteField "Status" status.marker.toList chunk else chunk) text

/-- The text with the empty boxes ticked on some lines. -/
def tickSteps (text : String) (lines : List Nat) : String :=
  mapChunks (fun number chunk => if number ∈ lines then tick chunk else chunk) text

/-- The lines of all steps of completed tasks. -/
def doneLines (p : Plan) : List Nat :=
  (p.tasks.filter (·.status == .completed)).flatMap (·.stepLines)

/-- The plan with a status, and with the status word in its text if it has one. -/
def withStatus (p : Plan) (status : PlanStatus) : Plan :=
  { p with
    text := rewriteStatus p.text p.statusLine status
    spec := { p.spec with status } }

def withTicks (p : Plan) : Plan := { p with text := tickSteps p.text p.doneLines }

end Runbook.Plan
