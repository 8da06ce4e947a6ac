import Runbook.Dependency
import Runbook.Execution.Crew
import Runbook.Execution.Settings

/-!
# Batches

Groups are carried out in rounds. A round takes the first groups that are ready, as many as a batch
may hold: one by itself is carried out alone, several by a crew. A failure ends the rounds.

What has been completed is a set of names. The rounds end well when it has as many names as there
are groups; they end badly when no group is ready, and when there have been twice as many rounds as
groups, which only happens to groups whose commands report themselves cancelled.
-/

set_option autoImplicit false

namespace Runbook

variable {σ : Type}

namespace Schedule

/-- What rounds leave behind: the groups as they stand, and what went wrong. -/
structure Report (σ : Type) where
  world : World σ
  groups : List TaskGroup
  error : Option PlanError := none

/-- An error that is said before it is reported. -/
def Report.refuse (h : Host σ) (w : World σ) (groups : List TaskGroup) (e : PlanError) :
    Report σ :=
  { world := w.say h [.error e.message], groups, error := some e }

/-- The names of the groups that have been completed. -/
def completedNames (groups : List TaskGroup) : List String :=
  nameSet ((groups.filter (·.status == .completed)).map (·.name))

/-- Carry out the groups at some places. One by itself has no crew around it: nothing is said of a
batch, and if its worker dies there is nobody to report it. -/
def runBatch (b : Bench σ) (w : World σ) (groups : List TaskGroup) (batch : List Nat) :
    Except LastWords (Report σ) :=
  match batch with
  | [place] =>
    match groups[place]? with
    | none => .ok { world := w, groups }
    | some g =>
      (b.groupAlone w g).map fun ((left, outcome), w) =>
        { world := w, groups := groups.set place left, error := Crew.failure? outcome }
  | batch =>
    let crew := Crew.run b w groups batch
    .ok { world := crew.world, groups := crew.groups, error := crew.error }

/-- The set of completed names, with those of a batch that has been carried out. -/
def addCompleted (groups : List TaskGroup) (batch : List Nat) (completed : List String) :
    List String :=
  batch.foldl (fun names place =>
    match groups[place]? with
    | some g => if g.status = .completed then insertName g.name names else names
    | none => names) completed

/-- Why rounds that do not come to an end are given up. -/
def givenUp (groups : List TaskGroup) : PlanError :=
  .circularDependency ("maximum iterations (" ++ toString (groups.length * 2) ++ ") reached")

/-- At most the given number of rounds, after some names have been completed. -/
def rounds (b : Bench σ) (batchSize : Nat) :
    Nat → World σ → List TaskGroup → List String → Except LastWords (Report σ)
  | left, w, groups, completed =>
    if groups.length ≤ completed.length then .ok { world := w, groups }
    else
      match left with
      | 0 => .ok (.refuse b.host w groups (givenUp groups))
      | left + 1 =>
        match Dependency.ready groups completed with
        | [] =>
          let pending := (groups.filter fun g => !completed.contains g.name).map (·.name)
          .ok (.refuse b.host w groups (.unmetDependency pending))
        | ready =>
          let batch := ready.take batchSize
          match runBatch b w groups batch with
          | .error message => .error message
          | .ok report =>
            -- after a failure no further batch begins, though the rest of this one has come home
            if report.error.isSome then .ok report
            else rounds b batchSize left report.world report.groups
              (addCompleted report.groups batch completed)

/-- Carry out groups, each after those it waits for. A cycle is refused before anything is done. -/
def run (b : Bench σ) (batchSize : Nat) (w : World σ) (groups : List TaskGroup) :
    Except LastWords (Report σ) :=
  match Dependency.cycle? groups with
  | some path =>
    .ok (.refuse b.host w groups (.circularDependency (" -> ".intercalate path)))
  | none => rounds b batchSize (groups.length * 2) w groups (completedNames groups)

end Schedule

end Runbook
