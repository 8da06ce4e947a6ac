import Runbook.Files.Error

/-!
# What can go wrong with a plan

Errors are causes; their wording is in one function each (`ParseError.message`,
`PlanError.message`). A parse error names its line counted from one, because it is shown to people
who look the line up in an editor; inside the library lines count from zero (`ParseError.atLine`).
-/

set_option autoImplicit false

namespace Runbook

/-- What is wrong with a line of a plan. -/
inductive Fault where
  | unterminatedFence
  | numberOutOfRange (digits : String)
  | repeatedTask (id group : String)
  | repeatedGroup (name : String)
  | tasksTooDeep
  | other (reason : String)
deriving DecidableEq, Repr

def Fault.message : Fault → String
  | .unterminatedFence => "unterminated code fence"
  | .numberOutOfRange digits => "task number out of range: " ++ digits
  | .repeatedTask id group => "duplicate task id " ++ id ++ " in group " ++ group
  | .repeatedGroup name => "duplicate task group " ++ name
  | .tasksTooDeep => "Tasks heading too deep to nest task groups"
  | .other reason => reason

/-- A structural problem of a plan's text. -/
inductive ParseError where
  | missingTasks
  | invalid (line : Nat) (fault : Fault)
deriving DecidableEq, Repr

namespace ParseError

/-- The error at a line counted from zero. -/
def atLine (index : Nat) (fault : Fault) : ParseError := .invalid (index + 1) fault

def message : ParseError → String
  | .missingTasks => "no Tasks section found"
  | .invalid line fault => "line " ++ toString line ++ ": " ++ fault.message

end ParseError

/-- Why a plan cannot be loaded, made or carried out. -/
inductive PlanError where
  | planNotFound (path : String)
  | planExists (path : String)
  | malformed (path : String) (cause : ParseError)
  | stepFailed (task command detail : String)
  | verifyFailed (task command detail : String)
  | unmetDependency (pending : List String)
  | circularDependency (detail : String)
  | workerPanicked (group detail : String)
  | file (cause : FileError)
deriving DecidableEq, Repr

namespace PlanError

def message : PlanError → String
  | .planNotFound path => "Plan not found: " ++ path
  | .planExists path => "Plan already exists: " ++ path
  | .malformed path cause => "Malformed plan " ++ path ++ ": " ++ cause.message
  | .stepFailed task command detail =>
    "Step failed in " ++ task ++ ": `" ++ command ++ "`: " ++ detail
  | .verifyFailed task command detail =>
    "Verification failed in " ++ task ++ ": `" ++ command ++ "`: " ++ detail
  | .unmetDependency pending =>
    "No ready groups found - unmet dependencies for: " ++ ", ".intercalate pending
  | .circularDependency detail => "Possible circular dependency: " ++ detail
  | .workerPanicked group detail => "Worker for group " ++ group ++ " panicked: " ++ detail
  | .file cause => "IO error: " ++ cause.message

/-- Was the error found before anything was carried out? -/
def isLoadError : PlanError → Bool
  | .planNotFound _ | .malformed _ _ => true
  | _ => false

end PlanError

end Runbook
