import Runbook.Text.Split

/-!
# Commands and their answers

A step of a task is a command when it starts with `$` or with one of the configured words; any
other step is addressed to a reader. A command that is carried out answers with an exit code and
its output, or gives no answer for one of three reasons (`CommandError`).
-/

set_option autoImplicit false

namespace Runbook

open Text

/-! ## Steps that are commands -/

/-- Does a word name a program of the configured name? A version may stand behind the name, so that
`python3.12` is found under `python`. -/
def isVersionOf (name word : List Char) : Bool :=
  match name.isPrefixOf? word with
  | some rest => rest.all fun c => c.isDigit || c == '.'
  | none => false

/-- The command that a step stands for. -/
def executableCommand? (programs : List String) (step : String) : Option String :=
  match trim step.toList with
  | '$' :: rest =>
    let command := trimStart rest
    if command = [] then none else some (String.ofList command)
  | step =>
    match words step with
    | [] => none
    | word :: _ =>
      let names := (programs.map fun p => trim p.toList).filter fun p => p != [] && p != ['$']
      if names.any (isVersionOf · word) then some (String.ofList step) else none

/-! ## Answers -/

/-- What a command that has ended leaves behind. -/
structure Output where
  exitCode : Int
  stdout : String := ""
  stderr : String := ""
deriving DecidableEq, Repr, Inhabited

namespace Output

def succeeded (o : Output) : Bool := o.exitCode == 0

/-- Why the command failed, in its own words if it left any. -/
def failureDetail (o : Output) : String :=
  if trimmed o.stderr ≠ "" then trimmed o.stderr
  else if trimmed o.stdout ≠ "" then trimmed o.stdout
  else "exit code " ++ toString o.exitCode

end Output

/-- Why a command has no exit code. -/
inductive CommandError where
  | notStarted (cause : String)
  | timedOut (millis : Nat)
  | cancelled
deriving DecidableEq, Repr

def CommandError.message : CommandError → String
  | .notStarted cause => "Failed to execute command: " ++ cause
  | .timedOut millis => "timed out after " ++ toString (millis / 1000) ++ "s"
  | .cancelled => "cancelled before start"

end Runbook
