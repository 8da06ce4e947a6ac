import Runbook.Journal.Basic
import Runbook.Json.Record
import Runbook.TaskGroup

/-!
# Tasks and groups as records

How tasks, groups, statuses and levels are read from JSON. The lines of a task's steps are no part
of its record: they belong to a text, and a record is read without one.
-/

set_option autoImplicit false

namespace Runbook

open Json

def Level.ofValue? (v : Value) : Option Level := v.word?.bind Level.ofWord?

def TaskStatus.ofValue? (v : Value) : Option TaskStatus := v.word?.bind TaskStatus.ofWord?

namespace Task

def fieldNames : List String :=
  ["id", "number", "name", "context", "steps", "verify", "status", "error"]

/-- The task that a value describes. Only the diagnostic may be missing. -/
def ofValue? (v : Value) : Option Task := do
  let fields ← v.fields? fieldNames
  let id ← fields.get? "id" Value.string?
  let number ← fields.get? "number" (Value.natBelow? numberBound)
  let name ← fields.get? "name" Value.string?
  let context ← fields.get? "context" Value.string?
  let steps ← fields.get? "steps" (Value.list? Value.string?)
  let verify ← fields.get? "verify" Value.string?
  let status ← fields.get? "status" TaskStatus.ofValue?
  let error ← ((fields.lookup "error").getD .null).optionalString?
  return { id, number, name, context, steps, verify, status, error }

end Task

namespace TaskGroup

def fieldNames : List String := ["name", "subsystem", "tasks", "dependencies", "status"]

/-- The group that a value describes. -/
def ofValue? (v : Value) : Option TaskGroup := do
  let fields ← v.fields? fieldNames
  let name ← fields.get? "name" Value.string?
  let subsystem ← fields.get? "subsystem" Value.string?
  let tasks ← fields.get? "tasks" (Value.list? Task.ofValue?)
  let dependencies ← fields.get? "dependencies" (Value.list? Value.string?)
  let status ← fields.get? "status" TaskStatus.ofValue?
  return { name, subsystem, tasks, dependencies := nameSet dependencies, status }

end TaskGroup

end Runbook
