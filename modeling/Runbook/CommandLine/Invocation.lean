import Runbook.CommandLine.Parameter
import Runbook.Plan.TaskSpec
import Runbook.Plan.Template

/-!
# Invocations

What a command line asks for, once it has been understood, and why it may not be. An invocation is
built up in a *draft* per scope: what has been given there so far (`Draft.give`). Nothing may be
given twice but tasks, and a value has to be one of its parameter's kind.
-/

set_option autoImplicit false

namespace Runbook.CommandLine

/-- What is wrong with a command line. -/
inductive UsageError where
  | unknownArgument (argument : String)
  | unknownVerb (word : String)
  /-- An option at its end. -/
  | noValue (p : Parameter)
  | emptyValue (p : Parameter)
  | badValue (p : Parameter) (value : String)
  | unexpectedValue (p : Parameter) (value : String)
  | repeated (p : Parameter)
  | missing (p : Parameter)
deriving DecidableEq, Repr

namespace UsageError

def message : UsageError → String
  | unknownArgument argument => "unexpected argument '" ++ argument ++ "'"
  | unknownVerb word => "unrecognized subcommand '" ++ word ++ "'"
  | noValue p | emptyValue p => "a value is required for '" ++ p.word ++ "' but none was supplied"
  | badValue p value => "invalid value '" ++ value ++ "' for '" ++ p.word ++ "'"
  | unexpectedValue p value => "unexpected value '" ++ value ++ "' for '" ++ p.word ++ "'"
  | repeated p => "'" ++ p.word ++ "' cannot be used multiple times"
  | missing p => "'" ++ p.word ++ "' is required but was not provided"

end UsageError

/-- Why reading a command line ends early. -/
inductive Stop where
  | help (scope : Scope)
  | version
  | wrong (e : UsageError)
deriving DecidableEq, Repr

/-- What the program is to do. -/
inductive Command where
  | run (plan : String) (batchSize : Option Nat) (dryRun quiet markSteps : Bool)
  | list
  | new (template : Template) (name goal : String)
  | addGroup (plan name : String) (tasks : List Task)
deriving DecidableEq, Repr

/-- A command, if any, and what holds for every command. -/
structure Invocation where
  config : Option String := none
  logLevel : Option String := none
  command : Option Command := none
deriving DecidableEq, Repr

/-! ## Values -/

/-- A whole number below 2^64, in decimal digits, with a plus sign in front if it likes. -/
def count? (text : String) : Option Nat :=
  let digits := match text.toList with
    | '+' :: cs => cs
    | cs => cs
  if digits.isEmpty || !digits.all Char.isDigit then none
  else
    let n := digits.foldl (fun n c => n * 10 + (c.toNat - '0'.toNat)) 0
    if n < 18446744073709551616 then some n else none

/-! ## Drafts -/

/-- What has been given in one scope. -/
structure Draft where
  config : Option String := none
  logLevel : Option String := none
  plan : Option String := none
  batchSize : Option Nat := none
  dryRun : Bool := false
  quiet : Bool := false
  markSteps : Bool := false
  template : Option Template := none
  name : Option String := none
  goal : Option String := none
  tasks : List Task := []
deriving DecidableEq, Repr

namespace Draft

/-- Whether a parameter has been given. Tasks are never done. -/
def has (d : Draft) : Parameter → Bool
  | .config => d.config.isSome
  | .logLevel => d.logLevel.isSome
  | .plan => d.plan.isSome
  | .batchSize => d.batchSize.isSome
  | .dryRun => d.dryRun
  | .quiet => d.quiet
  | .markSteps => d.markSteps
  | .template => d.template.isSome
  | .name => d.name.isSome
  | .goal => d.goal.isSome
  | .task | .help | .version => false

/-- The draft with a parameter given. The value does not matter where none is taken. -/
def give (scope : Scope) (d : Draft) (p : Parameter) (value : String) : Except Stop Draft :=
  if d.has p then .error (.wrong (.repeated p))
  else
    let bad : Stop := .wrong (.badValue p value)
    let empty : Stop := .wrong (.emptyValue p)
    match p with
    | .help => .error (.help scope)
    | .version => .error .version
    | .config => if value = "" then .error empty else .ok { d with config := some value }
    | .plan => if value = "" then .error empty else .ok { d with plan := some value }
    | .logLevel => .ok { d with logLevel := some value }
    | .name => .ok { d with name := some value }
    | .goal => .ok { d with goal := some value }
    | .dryRun => .ok { d with dryRun := true }
    | .quiet => .ok { d with quiet := true }
    | .markSteps => .ok { d with markSteps := true }
    | .batchSize =>
      match count? value with
      | some n => .ok { d with batchSize := some n }
      | none => .error bad
    | .template =>
      match Template.ofWord? value with
      | some t => .ok { d with template := some t }
      | none => .error bad
    | .task =>
      match Task.ofSpec value with
      | .ok t => .ok { d with tasks := d.tasks ++ [t] }
      | .error _ => .error bad

def missing? (scope : Scope) (d : Draft) : Option Parameter :=
  (Scope.required scope).find? fun p => !d.has p

/-- The command of a verb. Without a choice a new plan is for a feature. -/
def command (d : Draft) : Verb → Command
  | .run => .run (d.plan.getD "") d.batchSize d.dryRun d.quiet d.markSteps
  | .list => .list
  | .new => .new (d.template.getD .feature) (d.name.getD "") (d.goal.getD "")
  | .addGroup => .addGroup (d.plan.getD "") (d.name.getD "") d.tasks

end Draft

end Runbook.CommandLine
