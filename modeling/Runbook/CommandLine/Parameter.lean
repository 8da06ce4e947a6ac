/-!
# Parameters

What may be said on a command line. A line is read on two levels: first the program's own, where
two parameters and the name of a verb may come, and then that of the verb. Every level has
*options*, which are called by name, and *places*, which are filled in order.
-/

set_option autoImplicit false

namespace Runbook.CommandLine

/-- What the program can be told to do. -/
inductive Verb where
  | run
  | list
  | new
  | addGroup
deriving DecidableEq, Repr

namespace Verb

def all : List Verb := [.run, .list, .new, .addGroup]

def name : Verb → String
  | .run => "run"
  | .list => "list"
  | .new => "new"
  | .addGroup => "add-group"

def summary : Verb → String
  | .run => "Execute a plan"
  | .list => "List plans in the plans directory"
  | .new => "Create a new plan from a template"
  | .addGroup => "Append a task group to an existing plan"

def ofName? (name : String) : Option Verb := all.find? (·.name == name)

end Verb

/-- Everything that an argument may give. -/
inductive Parameter where
  | config
  | logLevel
  | help
  | version
  | plan
  | batchSize
  | dryRun
  | quiet
  | markSteps
  | template
  | name
  | goal
  | task
deriving DecidableEq, Repr

namespace Parameter

/-- The name after two hyphens, or between angle brackets for a place. -/
def word : Parameter → String
  | .config => "config"
  | .logLevel => "log-level"
  | .help => "help"
  | .version => "version"
  | .plan => "plan"
  | .batchSize => "batch-size"
  | .dryRun => "dry-run"
  | .quiet => "quiet"
  | .markSteps => "mark-steps"
  | .template => "type"
  | .name => "name"
  | .goal => "goal"
  | .task => "task"

/-- The letter after one hyphen. -/
def letter? : Parameter → Option Char
  | .config => some 'c'
  | .logLevel => some 'l'
  | .help => some 'h'
  | .version => some 'V'
  | .batchSize => some 'b'
  | .dryRun => some 'n'
  | .quiet => some 'q'
  | .template => some 't'
  | .goal => some 'g'
  | .plan | .markSteps | .name | .task => none

def takesValue : Parameter → Bool
  | .help | .version | .dryRun | .quiet | .markSteps => false
  | .config | .logLevel | .plan | .batchSize | .template | .name | .goal | .task => true

def summary : Parameter → String
  | .config => "Path to config file"
  | .logLevel => "Log level (TRACE, DEBUG, INFO, WARN, ERROR)"
  | .help => "Print help"
  | .version => "Print version"
  | .plan => "Plan file (absolute, relative to cwd, or relative to plans-dir)"
  | .batchSize => "Maximum number of groups run concurrently"
  | .dryRun => "Print the plan summary without executing anything"
  | .quiet => "Only print errors"
  | .markSteps => "Tick the steps of completed tasks in the plan file"
  | .template => "Plan template (feature, bugfix, refactor)"
  | .name => "Name of the plan or group"
  | .goal => "High-level goal"
  | .task => "Task as \"name|context|verify|step;step\" (repeatable)"

end Parameter

/-- The part of a command line that is read: the program's own or a verb's. -/
abbrev Scope := Option Verb

namespace Scope

/-- The options of a scope. The first ones are the same everywhere. -/
def options (s : Scope) : List Parameter :=
  [.config, .logLevel, .help] ++
    match s with
    | none => [.version]
    | some .run => [.batchSize, .dryRun, .quiet, .markSteps]
    | some .list => []
    | some .new => [.template, .name, .goal]
    | some .addGroup => [.name, .task]

def places : Scope → List Parameter
  | some .run | some .addGroup => [.plan]
  | none | some .list | some .new => []

/-- What must be given. -/
def required : Scope → List Parameter
  | some .run => [.plan]
  | some .new => [.name, .goal]
  | some .addGroup => [.plan, .name]
  | none | some .list => []

def named? (s : Scope) (word : String) : Option Parameter := (options s).find? (·.word == word)

def lettered? (s : Scope) (letter : Char) : Option Parameter :=
  (options s).find? (·.letter? == some letter)

end Scope

end Runbook.CommandLine
