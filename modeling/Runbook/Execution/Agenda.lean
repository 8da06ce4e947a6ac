import Runbook.Execution.World
import Runbook.TaskGroup

/-!
# What a worker has to do

A worker carries out tasks one after the other. All it will do is known beforehand and is written
down as an *agenda* (`Task.agenda`): take the task up, announce a step, run its command, and at the
end set the task down. A *job* is the tasks that are done with those still to do and their agendas.

A job goes forward by `Job.move`, one act at a time, and stops when nothing is left, when a command
fails or when it is cancelled. Whether it is cancelled is asked before a task is taken up and before
a command is handed over, never in between. What a command's reply means for the job is told by
`Asked.settle`.

Main statements: `Job.size_of_go` and `Job.size_of_ask` — every move makes a job smaller, so it ends
however its commands come out.
-/

set_option autoImplicit false

namespace Runbook

/-! ## Agendas -/

/-- What a command of a task is for. -/
inductive Phase where
  | step
  | verify
deriving DecidableEq, Repr

/-- One thing to do for a task. -/
inductive Act where
  /-- Take the task up. -/
  | enter
  | announce (line : String)
  | run (phase : Phase) (command : String)
  /-- Set the task down, completed. -/
  | leave
deriving DecidableEq, Repr

namespace Task

/-- The acts for a step: it is announced, and run if it is a command. -/
def stepActs (programs : List String) (step : String) : List Act :=
  .announce ("    Step: " ++ step) ::
    match executableCommand? programs step with
    | some command => [.run .step command]
    | none => []

/-- The acts that accept a task. A task without a verify command is accepted as it is. -/
def verifyActs (t : Task) : List Act :=
  if t.hasVerify then
    let command := Text.trimmed t.verify
    [.announce ("    Verify: " ++ command), .run .verify command]
  else []

/-- All there is to do for a task, in order. It is made out before the task is taken up, so no reply
changes what comes later; a reply can only end it. -/
def agenda (programs : List String) (t : Task) : List Act :=
  .enter :: t.steps.flatMap (stepActs programs) ++ t.verifyActs ++ [.leave]

end Task

/-! ## Jobs -/

/-- A task with what is left to do for it. -/
structure Assignment where
  task : Task
  acts : List Act
deriving DecidableEq, Repr

/-- The tasks that are done, and those to do. -/
structure Job where
  finished : List Task := []
  left : List Assignment
deriving DecidableEq, Repr

/-- How a job ends: everything done, a command failed, or called off. -/
inductive Outcome where
  | completed
  | failed (error : PlanError)
  | cancelled
deriving DecidableEq, Repr

/-- The tasks as a job leaves them. -/
structure Ending where
  tasks : List Task
  outcome : Outcome
deriving DecidableEq, Repr

/-- A command to hand over, with the job as it is once the command has succeeded. -/
structure Asked where
  phase : Phase
  command : String
  next : Job
deriving DecidableEq, Repr

/-- What a job does next. -/
inductive Move where
  | go (lines : List Journal.Line) (next : Job)
  | ask (asked : Asked)
  | stop (ending : Ending)
deriving DecidableEq, Repr

namespace Job

def ofTask (programs : List String) (t : Task) : Job := { left := [⟨t, t.agenda programs⟩] }

/-- The job of carrying out tasks. Nothing is left to do for a terminal one. -/
def ofTasks (programs : List String) (tasks : List Task) : Job :=
  { left := tasks.map fun t => ⟨t, if t.isTerminal then [] else t.agenda programs⟩ }

/-- All tasks of a job, with the one in hand changed. -/
def tasksWith (j : Job) (change : Task → Task) : List Task :=
  match j.left with
  | [] => j.finished
  | a :: rest => j.finished ++ change a.task :: rest.map (·.task)

/-- How much is left to do. -/
def size (j : Job) : Nat := j.left.foldr (fun a n => a.acts.length + 1 + n) 0

/-- What is said when a task is taken up. -/
def entryLines (t : Task) : List Journal.Line :=
  .info ("  Task: " ++ t.name) ::
    if t.context = "" then [] else [.detail ("    Context: " ++ t.context)]

/-- The next move of a job that may have been cancelled. A cancelled job gives back the task in
hand as one to do. -/
def move (cancelled : Bool) (j : Job) : Move :=
  match j.left with
  | [] => .stop ⟨j.finished, .completed⟩
  | ⟨t, []⟩ :: rest => .go [] ⟨j.finished ++ [t], rest⟩
  | ⟨t, act :: acts⟩ :: rest =>
    match act with
    | .enter =>
      if cancelled then .stop ⟨j.tasksWith id, .cancelled⟩
      else .go (entryLines t)
        ⟨j.finished, ⟨{ t with status := .inProgress, error := none }, acts⟩ :: rest⟩
    | .announce line => .go [.detail line] ⟨j.finished, ⟨t, acts⟩ :: rest⟩
    | .run phase command =>
      if cancelled then .stop ⟨j.tasksWith ({ · with status := .pending }), .cancelled⟩
      else .ask ⟨phase, command, ⟨j.finished, ⟨t, acts⟩ :: rest⟩⟩
    | .leave =>
      .go [.success ("    Task completed: " ++ t.name)]
        ⟨j.finished, ⟨{ t with status := .completed }, acts⟩ :: rest⟩

end Job

/-! ## Replies -/

/-- What a reply means for the job that waits for it. -/
inductive Settled where
  | goOn
  | stop (lines : List Journal.Line) (ending : Ending)
  /-- The worker is gone, and with it what it knew. -/
  | dead (message : String)
deriving DecidableEq, Repr

namespace Phase

/-- What is said when a command of the phase fails. -/
def failureLine (p : Phase) (detail : String) : Journal.Line :=
  match p with
  | .step => .error ("    Step failed: " ++ detail)
  | .verify => .error ("    Verification failed: " ++ detail)

/-- The error that a failed command of the phase is. -/
def planError (p : Phase) (task command detail : String) : PlanError :=
  match p with
  | .step => .stepFailed task command detail
  | .verify => .verifyFailed task command detail

end Phase

namespace Asked

def taskName (a : Asked) : String :=
  match a.next.left with
  | [] => ""
  | assignment :: _ => assignment.task.name

def failing (a : Asked) (detail : String) : Settled :=
  .stop [a.phase.failureLine detail]
    ⟨a.next.tasksWith (·.fail detail),
     .failed (a.phase.planError a.taskName a.command detail)⟩

/-- The job goes on after exit code zero and stops after any other reply. A command that reports
itself cancelled leaves the task to do. -/
def settle (a : Asked) : Reply → Settled
  | .exited output => if output.succeeded then .goOn else a.failing output.failureDetail
  | .refused .cancelled =>
    .stop [] ⟨a.next.tasksWith ({ · with status := .pending }), .cancelled⟩
  | .refused error => a.failing error.message
  | .crashed message => .dead message

end Asked

/-! ## Every job ends -/

namespace Job

/-- A move that goes on takes one act off, or a task that has none left. -/
theorem size_of_go {cancelled : Bool} {j next : Job} {lines : List Journal.Line}
    (h : j.move cancelled = .go lines next) : next.size < j.size := by
  obtain ⟨finished, left⟩ := j
  unfold move at h
  split at h
  · simp at h
  · rename_i hl
    simp only [Move.go.injEq] at h
    obtain ⟨-, rfl⟩ := h
    simp only at hl
    subst hl
    simp [size]
  · rename_i hl
    simp only at hl
    subst hl
    split at h
    · split at h
      · simp at h
      · simp only [Move.go.injEq] at h
        obtain ⟨-, rfl⟩ := h
        simp [size]
    · simp only [Move.go.injEq] at h
      obtain ⟨-, rfl⟩ := h
      simp [size]
    · split at h <;> simp at h
    · simp only [Move.go.injEq] at h
      obtain ⟨-, rfl⟩ := h
      simp [size]

/-- Once a command has been handed over there is one act less. -/
theorem size_of_ask {cancelled : Bool} {j : Job} {asked : Asked}
    (h : j.move cancelled = .ask asked) : asked.next.size < j.size := by
  obtain ⟨finished, left⟩ := j
  unfold move at h
  split at h
  · simp at h
  · simp at h
  · rename_i hl
    simp only at hl
    subst hl
    split at h
    · split at h <;> simp at h
    · simp at h
    · split at h
      · simp at h
      · simp only [Move.ask.injEq] at h
        subst h
        simp [size]
    · simp at h

end Job

end Runbook
