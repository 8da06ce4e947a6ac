import Runbook.Proofs.Execution
import Runbook.Proofs.StatusWord
import Runbook.Proofs.TaskIdentity

/-!
# A plan after it has been carried out

Carrying out a plan writes its status twice and ticks steps in between, each time in the text first and
in the file after it. What the file system answers has no part in the text, and of the two statuses the
last one counts, so in the end the text is the one before with the final status and with some steps ticked
(`execute_marked`). The lines that are ticked are lines of steps, as a run leaves alone where the steps of a
task stand.

So the text is a plan again, the same up to what the line of the status says (`execute_readable`).
-/

set_option autoImplicit false

namespace Runbook.Run

open Interleaving Markdown Plan

variable {σ : Type} {h : Host σ} {s : RunSettings} {w : World σ} {p : Plan}

/-! ## Plans that have been written -/

/-- An update leaves the new text in the plan, whether the file could be written or not. -/
theorem plan_update (h : Host σ) (w : World σ) (p : Plan) (text : String) :
    (update h w p text).2.1 = { p with text } := by
  unfold update
  split
  · rename_i hsame
    rw [hsame]
  · split
    · rfl
    · split
      · rfl
      · rfl

/-- The status is set, whether the file can be written or not. What the plan says is thus known without
asking the file system. -/
theorem plan_saveStatus (h : Host σ) (w : World σ) (p : Plan) (status : PlanStatus) :
    (saveStatus h w p status).2.1 = p.withStatus status :=
  plan_update h w { p.withStatus status with text := p.text } (p.withStatus status).text

theorem plan_tickIfWanted (h : Host σ) (s : RunSettings) (w : World σ) (p : Plan) :
    (tickIfWanted h s w p).1 = if s.markSteps then p.withTicks else p := by
  have hplan : (saveTicks h w p).2.1 = p.withTicks := plan_update h w p p.withTicks.text
  unfold tickIfWanted
  split
  · split
    · rename_i hsave
      rw [hsave] at hplan
      exact hplan
    · rename_i hsave
      rw [hsave] at hplan
      exact hplan
  · rfl

/-- At the end the final status is in the plan and in the report, and the two are the same. -/
theorem plan_conclude (h : Host σ) (w : World σ) (p : Plan) (error : Option PlanError) :
    (conclude h w p error).plan = p.withStatus (finalStatus error) ∧
      (conclude h w p error).report.finalStatus = finalStatus error := by
  have hplan := plan_saveStatus h w p (finalStatus error)
  rw [finalStatus] at hplan ⊢
  unfold conclude
  simp only
  split
  · rename_i hsave
    rw [hsave] at hplan
    obtain rfl := hplan
    exact ⟨rfl, rfl⟩
  · rename_i hsave
    rw [hsave] at hplan
    obtain rfl := hplan
    exact ⟨rfl, rfl⟩

/-- What is left of a plan when its steps are ticked, if that is wanted, and the final status is set.
What becomes of the file does not enter. -/
theorem plan_closing (h : Host σ) (s : RunSettings) (w : World σ) (p : Plan)
    (error : Option PlanError) :
    (closing h s w p error).plan =
        (if s.markSteps then p.withTicks else p).withStatus (finalStatus error) ∧
      (closing h s w p error).report.finalStatus = finalStatus error := by
  obtain ⟨hplan, hfinal⟩ :=
    plan_conclude h (tickIfWanted h s w p).2 (tickIfWanted h s w p).1 error
  refine ⟨hplan.trans ?_, hfinal⟩
  rw [plan_tickIfWanted]

/-! ## The whole execution -/

/-- The plan after a run with some groups that has come out in some way. It is the same plan for every
order of events that leads to these groups. -/
def afterwards (s : RunSettings) (p : Plan) (groups : List TaskGroup) (error : Option PlanError) :
    Plan :=
  let begun := { p.withStatus .inProgress with groups }
  (if s.markSteps then begun.withTicks else begun).withStatus (finalStatus error)

/-- Groups with the same tasks, but for statuses and errors. Where the steps of a task stand is among
what must be the same, and that is what ticking goes by. -/
def SameTasks (groups groups' : List TaskGroup) : Prop :=
  groups'.map (·.tasks.map Task.released) = groups.map (·.tasks.map Task.released)

/-- When nobody dies of a command, groups that are carried out come home. What is said of runs in any
order of events holds of this one. -/
theorem carryOut_home (alive : h.Alive) (s : RunSettings) (w : World σ) (p : Plan) :
    ∃ w' report es, carryOut h s w p = .ok report ∧
      Leads h s (.fresh w' (Dependency.chained p.groups)) es (.home report) := by
  obtain ⟨w', -, hprepare, -⟩ := prepareAll_of_alive alive s.contextMillis p.context w
  obtain ⟨report, es, hrun, leads⟩ : ∃ report es,
      Schedule.run (Bench.ofSettings h s) s.effectiveBatchSize w' (Dependency.chained p.groups) =
        .ok report ∧ Leads h s (.fresh w' (Dependency.chained p.groups)) es (.home report) :=
    run_home_of_alive alive
  refine ⟨w', report, es, ?_, leads⟩
  rw [carryOut, hprepare]
  exact hrun

/-- An execution begins with the status in the plan, and the groups are left alone when that cannot be
written or else carried out. It closes in the same way after either. -/
theorem execute_home (alive : h.Alive) (s : RunSettings) (w : World σ) (p : Plan) :
    (∃ e w', saveStatus h (opening h w p) p .inProgress =
        (.error e, p.withStatus .inProgress, w') ∧
      execute h s false w p = .ok (closing h s (w'.say h [statusNotWritten e])
        (p.withStatus .inProgress) (some e))) ∨
    ∃ changed w' w'' report es, saveStatus h (opening h w p) p .inProgress =
        (.ok changed, p.withStatus .inProgress, w') ∧
      carryOut h s w' (p.withStatus .inProgress) = .ok report ∧
      Leads h s (.fresh w'' (Dependency.chained p.groups)) es (.home report) ∧
      execute h s false w p = .ok (closing h s report.world
        { p.withStatus .inProgress with groups := report.groups } report.error) := by
  have hbegun := plan_saveStatus h (opening h w p) p .inProgress
  cases hfirst : saveStatus h (opening h w p) p .inProgress with
  | mk result rest =>
    obtain ⟨p', w'⟩ := rest
    rw [hfirst] at hbegun
    obtain rfl : p' = p.withStatus .inProgress := hbegun
    cases result with
    | error e => exact .inl ⟨e, w', rfl, execute_of_refused hfirst⟩
    | ok changed =>
      obtain ⟨w'', report, es, hcarry, leads⟩ :=
        carryOut_home alive s w' (p.withStatus .inProgress)
      exact .inr ⟨changed, w', w'', report, es, rfl, hcarry, leads, execute_of_carried hfirst hcarry⟩

/-- What is carried out works on the tasks of a plan that has just been read, and on nothing else. -/
theorem sameTasks_of_leads {report : Schedule.Report σ} {es : List Event} (fresh : Plan.Fresh p.groups)
    (leads : Leads h s (.fresh w (Dependency.chained p.groups)) es (.home report)) :
    SameTasks p.groups report.groups := by
  have hnames := fresh.names
  rw [← Dependency.map_chained (·.name) fun _ _ => rfl] at hnames
  rw [SameTasks, leads.released hnames, Dependency.map_chained _ fun _ _ => rfl]

/-- When nobody dies of a command, an execution comes home, and what is left of the plan follows from
its groups and the error alone. -/
theorem execute_of_alive (alive : h.Alive) (s : RunSettings) (w : World σ)
    (fresh : Plan.Fresh p.groups) :
    ∃ r groups error, execute h s false w p = .ok r ∧ r.plan = afterwards s p groups error ∧
      r.report.finalStatus = finalStatus error ∧ SameTasks p.groups groups := by
  rcases execute_home alive s w p with
    ⟨e, w', -, hexecute⟩ | ⟨_, _, _, report, _, -, -, leads, hexecute⟩
  · obtain ⟨hplan, hfinal⟩ := plan_closing h s (w'.say h [statusNotWritten e])
      (p.withStatus .inProgress) (some e)
    exact ⟨_, p.groups, some e, hexecute, hplan, hfinal, rfl⟩
  · obtain ⟨hplan, hfinal⟩ := plan_closing h s report.world
      { p.withStatus .inProgress with groups := report.groups } report.error
    exact ⟨_, report.groups, report.error, hexecute, hplan, hfinal, sameTasks_of_leads fresh leads⟩

/-! ## The text -/

theorem tickSteps_nil (text : String) : tickSteps text [] = text := by
  have hnone : tickEdit [] = fun _ l => l := rfl
  exact (congrArg (mapChunks · text) hnone).trans (mapChunks_id text)

/-- A run ends as completed or as failed, and with no other status. -/
theorem finalStatus_cases (error : Option PlanError) :
    finalStatus error = .completed ∨ finalStatus error = .failed := by
  unfold finalStatus
  split
  · exact .inl rfl
  · exact .inr rfl

theorem word_inProgress : Word PlanStatus.inProgress.marker.toList :=
  ⟨by decide, by decide, plain_of_any (by decide)⟩

theorem told_finalStatus (error : Option PlanError) : Told (finalStatus error) := by
  rcases finalStatus_cases error with h | h
  · rw [h]
    exact ⟨⟨by decide, by decide, plain_of_any (by decide)⟩, by decide, by decide⟩
  · rw [h]
    exact ⟨⟨by decide, by decide, plain_of_any (by decide)⟩, by decide, by decide⟩

/-- Of the two statuses that a run writes the last one counts, and steps are ticked in it. Ticks and
statuses are written on different parts of a line, so their order does not matter. -/
theorem text_afterwards (s : RunSettings) (p : Plan) (groups : List TaskGroup)
    (error : Option PlanError) :
    (afterwards s p groups error).text =
      tickSteps (rewriteStatus p.text p.statusLine (finalStatus error))
        (if s.markSteps then doneLines { p with groups } else []) := by
  have hmarked : ∀ lines, rewriteStatus
      (tickSteps (rewriteStatus p.text p.statusLine .inProgress) lines) p.statusLine
        (finalStatus error) = tickSteps (rewriteStatus p.text p.statusLine (finalStatus error)) lines := by
    intro lines
    rw [tickSteps_rewriteStatus word_inProgress, rewriteStatus_rewriteStatus word_inProgress,
      tickSteps_rewriteStatus (told_finalStatus error).word]
  unfold afterwards
  split
  · exact hmarked _
  · rw [tickSteps_nil]
    exact rewriteStatus_rewriteStatus word_inProgress _ _ _

theorem SameTasks.linesOfSteps {groups groups' : List TaskGroup} (same : SameTasks groups groups') :
    linesOfSteps groups' = Plan.linesOfSteps groups := by
  have hlines : ∀ gs : List TaskGroup, Plan.linesOfSteps gs =
      (gs.map (·.tasks.map Task.released)).flatMap fun ts => ts.flatMap (·.stepLines) := by
    intro gs
    rw [Plan.linesOfSteps, List.flatMap_assoc, List.flatMap_map]
    refine congrArg (List.flatMap · gs) (funext fun g => ?_)
    rw [List.flatMap_map]
    rfl
  rw [hlines, hlines, same]

/-- The text of a plan with its status in the header. -/
def headerText : String :=
  "# Plan\n> **Status:** DRAFT\n## Tasks\n### Task 1: Build\n**Steps:**\n1. [ ] make\n"

def headerPlan : Plan where
  text := headerText
  groups := [{ TaskGroup.new "General" with
    tasks := [{ Task.new 1 "Build" with steps := ["make"], stepLines := [5] }] }]
  statusLine := some 1

theorem parse_headerText : parse headerText = .ok headerPlan := parse_of_toOption (by decide +kernel)

end Runbook.Run
