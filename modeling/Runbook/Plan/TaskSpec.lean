import Runbook.Text.Split
import Runbook.Task

/-!
# Tasks in one line

A task can be given as `name|context|verify|step;step`. Only the name is needed; bars behind the
third one belong to the steps.
-/

set_option autoImplicit false

namespace Runbook

open Text

/-- The first parts between bars, as many as asked for, and the rest as it is. -/
def partsAtBars : Nat → List Char → List (List Char)
  | 0, cs => [cs]
  | n + 1, cs =>
    match firstPiece '|' cs with
    | (part, some rest) => part :: partsAtBars n rest
    | (part, none) => [part]

/-- The steps between semicolons, without empty ones. -/
def stepsOf (cs : List Char) : List String :=
  (((pieces ';' cs).map trim).filter (· ≠ [])).map String.ofList

/-- The task that a line describes, not numbered yet. A line without a name is given back as the
error's text. -/
def Task.ofSpec (line : String) : Except String Task :=
  let parts := (partsAtBars 3 line.toList).map trim
  let part (i : Nat) := String.ofList (parts.getD i [])
  if part 0 = "" then .error ("Task needs a name: '" ++ line ++ "'")
  else .ok { Task.new 0 (part 0) with
    context := part 1, verify := part 2, steps := stepsOf (parts.getD 3 []) }

end Runbook
