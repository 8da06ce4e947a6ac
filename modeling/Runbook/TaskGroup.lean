import Runbook.Task

/-!
# Task groups

A group is a named list of tasks that share a context. Tasks of one group are carried out strictly
in order; groups are what depends on one another and what may run side by side.

Dependencies are a set of names. It is kept as a list in code point order without repeats
(`insertName`), because that order is seen: it decides which cycle of dependencies is reported.
-/

set_option autoImplicit false

namespace Runbook

/-- A name put into a list in code point order, unless it is there already. -/
def insertName (name : String) : List String → List String
  | [] => [name]
  | n :: ns =>
    if name = n then n :: ns
    else if name < n then name :: n :: ns
    else n :: insertName name ns

/-- The names of a list as a set. -/
def nameSet (names : List String) : List String := names.foldl (fun set n => insertName n set) []

theorem mem_insertName {a name : String} {names : List String} :
    a ∈ insertName name names ↔ a = name ∨ a ∈ names := by
  induction names with
  | nil => simp [insertName]
  | cons n ns ih =>
    unfold insertName
    split
    · subst_vars; simp
    · split
      · simp
      · simp [ih]; grind

structure TaskGroup where
  name : String
  subsystem : String
  tasks : List Task := []
  dependencies : List String := []
  status : TaskStatus := .pending
deriving DecidableEq, Repr, Inhabited

namespace TaskGroup

/-- The name of the group of tasks that no heading has put into another. -/
def general : String := "General"

def new (name : String) : TaskGroup := { name, subsystem := name }

def addTask (g : TaskGroup) (t : Task) : TaskGroup := { g with tasks := g.tasks ++ [t] }

def addDependency (g : TaskGroup) (name : String) : TaskGroup :=
  { g with dependencies := insertName name g.dependencies }

/-- Are all groups completed that this one waits for? -/
def isReady (g : TaskGroup) (completed : List String) : Bool :=
  g.dependencies.all completed.contains

def task? (g : TaskGroup) (id : String) : Option Task := g.tasks.find? (·.id == id)

def completedTasks (g : TaskGroup) : Nat := g.tasks.countP (·.status == .completed)

def failedTask? (g : TaskGroup) : Option Task := g.tasks.find? (·.status == .failed)

end TaskGroup

end Runbook
