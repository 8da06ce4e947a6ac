import Runbook.Execution.World
import Runbook.Files.Tree

/-!
# A host that follows a script

Commands are answered from a list of rules instead of being run: the first rule that a command
matches gives the answer, every use of a rule its next one, and the last one stays. A command that
no rule matches succeeds at once. Files are written to a tree in memory, so a run can be rehearsed
with all its effects and none of its consequences.
-/

set_option autoImplicit false

namespace Runbook.Rehearsal

/-- Which commands a rule is for. -/
inductive Pattern where
  | equals (text : String)
  | contains (text : String)
deriving DecidableEq, Repr

def Pattern.matches (p : Pattern) (command : String) : Bool :=
  match p with
  | .equals text => command == text
  | .contains text => Text.occursIn text.toList command.toList

inductive Part where
  | exits (output : Output)
  /-- It takes longer than it is given. -/
  | timesOut
  | cancels
  | doesNotStart (cause : String)
  | crashes (message : String)
deriving DecidableEq, Repr

/-- The reply of a command that is given some milliseconds. -/
def Part.reply (timeout : Nat) : Part → Reply
  | .exits output => .exited output
  | .timesOut => .refused (.timedOut timeout)
  | .cancels => .refused .cancelled
  | .doesNotStart cause => .refused (.notStarted cause)
  | .crashes message => .crashed message

/-- A line of the script: after some milliseconds a command comes out in some way. -/
structure Cue where
  delay : Nat := 0
  part : Part := .exits { exitCode := 0 }
deriving DecidableEq, Repr, Inhabited

structure Rule where
  pattern : Pattern
  cues : List Cue
deriving DecidableEq, Repr

/-- The answer of a rule that has been used some times before. -/
def Rule.cue (r : Rule) (uses : Nat) : Cue := r.cues.getD uses (r.cues.getLastD {})

/-- The rules with the number of their uses, and the files. -/
structure Stage where
  rules : List (Rule × Nat)
  files : Files.Tree := {}

/-- The answer of the first rule that matches, and the rules after this use. -/
def ask (command : String) : List (Rule × Nat) → Cue × List (Rule × Nat)
  | [] => ({}, [])
  | (rule, uses) :: rest =>
    if rule.pattern.matches command then (rule.cue uses, (rule, uses + 1) :: rest)
    else
      let (cue, rest) := ask command rest
      (cue, (rule, uses) :: rest)

/-- The host that follows a script. -/
def host : Host Stage where
  run stage command timeout :=
    let (cue, rules) := ask command stage.rules
    ({ delay := cue.delay, reply := cue.part.reply timeout }, { stage with rules })
  write stage path text :=
    match stage.files.writeText path text with
    | .ok files => (.ok (), { stage with files })
    | .error e => (.error e, stage)

end Runbook.Rehearsal
