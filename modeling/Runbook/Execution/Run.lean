import Runbook.Execution.Schedule
import Runbook.Plan.Marks
import Runbook.Plan.Printer

/-!
# Carrying out a plan

A run writes the status word, runs the commands that prepare it, makes every group wait for the one
before it, carries the groups out, and writes down how it came out. A rehearsal (`dryRun`) only says
what the plan is.

## Writing

The plan's text is changed first and the file after it (`update`). When the file cannot be
written the text stays changed, and the failure is one of the run's.
-/

set_option autoImplicit false

namespace Runbook

variable {σ : Type}

/-! ## Keeping the file up to date -/

namespace Run

/-- The plan with another text. The file is written only if the text is another one and there is a
file. -/
def update (h : Host σ) (w : World σ) (p : Plan) (text : String) :
    Except PlanError Bool × Plan × World σ :=
  if text = p.text then (.ok false, p, w)
  else
    let changed := { p with text }
    match p.path with
    | none => (.ok true, changed, w)
    | some path =>
      match w.write h path text with
      | (.ok (), w) => (.ok true, changed, w)
      | (.error e, w) => (.error (.file e), changed, w)

/-- Set the plan's status, in its text if there is a place for it. Has the text changed? -/
def saveStatus (h : Host σ) (w : World σ) (p : Plan) (status : PlanStatus) :
    Except PlanError Bool × Plan × World σ :=
  let marked := p.withStatus status
  update h w { marked with text := p.text } marked.text

/-- Tick the steps of the completed tasks. Has the text changed? -/
def saveTicks (h : Host σ) (w : World σ) (p : Plan) : Except PlanError Bool × Plan × World σ :=
  update h w p p.withTicks.text

end Run

/-! ## Reports -/

structure RunReport where
  completedGroups : List String
  failedGroups : List String
  error : Option PlanError
  finalStatus : PlanStatus
deriving DecidableEq, Repr

namespace RunReport

def of (p : Plan) (error : Option PlanError) : RunReport :=
  { completedGroups := (p.groups.filter (·.status == .completed)).map (·.name)
    failedGroups := (p.groups.filter (·.status == .failed)).map (·.name)
    error
    finalStatus := p.spec.status }

def succeeded (r : RunReport) : Bool := r.error.isNone

def exitCode (r : RunReport) : Nat := if r.succeeded then 0 else 1

end RunReport

namespace Run

/-- A plan after a run, with the report and the world as it is then. -/
structure Result (σ : Type) where
  plan : Plan
  report : RunReport
  world : World σ

/-- Run one of the commands that prepare a run. How it comes out is said and nothing else. -/
def prepare (h : Host σ) (timeout : Nat) (w : World σ) (command : String) :
    Except LastWords (World σ) :=
  match (w.say h [.detail ("  $ " ++ command)]).call h none command timeout with
  | (answer, w) =>
    let w := w.waitUntil (w.clock + answer.delay)
    let warn (detail : String) :=
      w.say h [.warn ("Context command failed: " ++ command ++ ": " ++ detail)]
    match answer.reply with
    | .exited output => .ok (if output.succeeded then w else warn output.failureDetail)
    | .refused error => .ok (warn error.message)
    | .crashed message => .error message

def prepareAll (h : Host σ) (timeout : Nat) (w : World σ) (commands : List String) :
    Except LastWords (World σ) :=
  if commands = [] then .ok w
  else commands.foldlM (prepare h timeout) (w.say h [.info "Loading context..."])

/-- Prepare a run and carry out the groups. -/
def carryOut (h : Host σ) (s : RunSettings) (w : World σ) (p : Plan) :
    Except LastWords (Schedule.Report σ) :=
  (prepareAll h s.contextMillis w p.context).bind fun w =>
    Schedule.run { host := h, programs := s.programs, timeout := s.commandMillis }
      s.effectiveBatchSize w (Dependency.chained p.groups)

def statusNotWritten (e : PlanError) : Journal.Line :=
  .error ("Failed to update plan status: " ++ e.message)

/-- Tick steps if that is wanted. A failure is said and does not count. -/
def tickIfWanted (h : Host σ) (s : RunSettings) (w : World σ) (p : Plan) : Plan × World σ :=
  if s.markSteps then
    match saveTicks h w p with
    | (.ok _, p, w) => (p, w)
    | (.error e, p, w) =>
      (p, w.say h [.warn ("Failed to update step checklist: " ++ e.message)])
  else (p, w)

def conclude (h : Host σ) (w : World σ) (p : Plan) (error : Option PlanError) : Result σ :=
  let status : PlanStatus := if error.isNone then .completed else .failed
  let (error, p, w) :=
    match saveStatus h w p status with
    | (.ok _, p, w) => (error, p, w)
    | (.error e, p, w) => (error.or (some e), p, w.say h [statusNotWritten e])
  let last : Journal.Line :=
    if error.isNone then .success "Plan execution completed successfully!"
    else .error "Plan execution failed. Check logs for details."
  { plan := p, report := .of p error, world := w.say h [last] }

/-- Carry out a plan, or with `dryRun` only say what it is. -/
def execute (h : Host σ) (s : RunSettings) (dryRun : Bool) (w : World σ) (p : Plan) :
    Except LastWords (Result σ) :=
  let w := w.say h [.info ("Starting execution of plan: " ++ p.name), .detail p.summary]
  if dryRun then
    let w := w.say h [.info "DRY RUN MODE - No changes will be made"]
    .ok { plan := p, report := .of p none, world := w }
  else
    match saveStatus h w p .inProgress with
    | (.error e, p, w) =>
      let (p, w) := tickIfWanted h s (w.say h [statusNotWritten e]) p
      .ok (conclude h w p (some e))
    | (.ok _, p, w) =>
      (carryOut h s w p).map fun report =>
        let (p, w) := tickIfWanted h s report.world { p with groups := report.groups }
        conclude h w p report.error

end Run

end Runbook
