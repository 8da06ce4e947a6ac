import Runbook.Proofs.PlanAfterRun

/-!
# What a report says

A report has an error and a status, and it is a success when there is no error. The groups of a run that has
come home without an error have all been completed (`Leads.all_completed`): the names that the rounds count
are different ones, each of a completed group, and when there are as many of them as groups, all groups are
counted. Neither distinct names nor anything about the host is needed for this.

The status is set by how the groups came out, before it is written. So the error and the status agree unless
the last of all writes fails, after everything else has gone well: then the report has the error of the file,
and the status says that the plan has been completed (`execute_reported`).
-/

set_option autoImplicit false

namespace Runbook

variable {σ : Type} {h : Host σ} {s : RunSettings} {w : World σ}

namespace Interleaving

open Schedule (IsCompleted)

variable {groups : List TaskGroup} {completed : List String} {batch : List Nat} {es : List Event}
  {c c' : Config σ}

/-! ## Groups that are counted -/

/-- Different names, each of a completed group. They are in ascending order, which is how one sees that
they are different. -/
structure Counted (groups : List TaskGroup) (completed : List String) : Prop where
  sorted : completed.Pairwise (· < ·)
  known : ∀ name ∈ completed, IsCompleted groups name

/-- When as many names are counted as there are groups, all groups have been completed. There are no
more names than groups, so each group has had its name counted. -/
theorem Counted.all (counted : Counted groups completed) (all : groups.length ≤ completed.length) :
    ∀ g ∈ groups, g.status = .completed := by
  have hsubset : completed ⊆ (groups.filter (·.status == .completed)).map (·.name) := by
    intro name hname
    obtain ⟨g, hg, hstatus, rfl⟩ := counted.known name hname
    exact List.mem_map_of_mem (List.mem_filter.mpr ⟨hg, by simp [hstatus]⟩)
  have hle := (nodup_of_pairwise_lt counted.sorted).length_le_of_subset hsubset
  rw [List.length_map] at hle
  have hfilter := List.length_filter_eq_length_iff.mp
    (Nat.le_antisymm (List.length_filter_le _ groups) (all.trans hle))
  intro g hg
  simpa using hfilter g hg

/-- A group that was still to do has no part in what is counted, so another one may take its place. -/
theorem Counted.set (counted : Counted groups completed) {place : Nat} {g g' : TaskGroup}
    (found : groups[place]? = some g) (pending : g.status = .pending) :
    Counted (groups.set place g') completed where
  sorted := counted.sorted
  known name hname := (counted.known name hname).set found pending g'

theorem Counted.addCompleted (counted : Counted groups completed) (batch : List Nat) :
    Counted groups (Schedule.addCompleted groups batch completed) where
  sorted := Schedule.addCompleted_pairwise counted.sorted
  known name hname := by
    rcases Schedule.mem_addCompleted.mp hname with hname | ⟨_, -, g, hg, hstatus, hsame⟩
    · exact counted.known name hname
    · exact ⟨g, List.mem_of_getElem? hg, hstatus, hsame⟩

/-- Workers hold groups at different places, all of them still to do. So what one of them brings back
cannot undo what another one has. -/
structure Holds (groups : List TaskGroup) (workers : List Worker) : Prop where
  places : (workers.map (·.place)).Nodup
  found : ∀ worker ∈ workers, groups[worker.place]? = some worker.group
  pending : ∀ worker ∈ workers, worker.group.status = .pending

theorem holds_freshHands (among : batch.Sublist (Dependency.ready groups completed)) :
    Holds groups ((freshHands groups batch).map (·.1)) := by
  have hready : ∀ i ∈ batch, ∃ g, groups[i]? = some g ∧ g.status = .pending := by
    intro i hi
    obtain ⟨g, hg, hpending, -⟩ := Dependency.mem_ready.mp (among.subset hi)
    exact ⟨g, hg, hpending⟩
  have hfound : ∀ worker ∈ (freshHands groups batch).map (·.1),
      worker.place ∈ batch ∧ groups[worker.place]? = some worker.group := by
    intro worker hworker
    obtain ⟨hand, hhand, rfl⟩ := List.mem_map.mp hworker
    exact ⟨(mem_freshHands.mp hhand).1, (mem_freshHands.mp hhand).2.1⟩
  refine ⟨?_, fun worker hworker => (hfound worker hworker).2, fun worker hworker => ?_⟩
  · have hplaces := places_freshHands fun i hi => (hready i hi).imp fun _ hg => hg.1
    rw [List.map_map]
    exact hplaces.symm ▸ (Dependency.ready_nodup _ _).sublist among
  · obtain ⟨hplace, hgroup⟩ := hfound worker hworker
    obtain ⟨g, hg, hpending⟩ := hready _ hplace
    rw [hgroup, Option.some.injEq] at hg
    rw [hg]
    exact hpending

section Holds

variable {worker : Worker} {workers workers' : List Worker}

theorem Holds.perm (holds : Holds groups workers) (same : workers.Perm workers') :
    Holds groups workers' :=
  ⟨(same.map _).nodup_iff.mp holds.places, fun worker hw => holds.found worker (same.mem_iff.mpr hw),
    fun worker hw => holds.pending worker (same.mem_iff.mpr hw)⟩

/-- What one worker brings back has no part in what the others hold. -/
theorem Holds.tail (holds : Holds groups (worker :: workers)) (g' : TaskGroup) :
    Holds (groups.set worker.place g') workers := by
  obtain ⟨hplaces, hfound, hpending⟩ := holds
  rw [List.map_cons, List.nodup_cons] at hplaces
  refine ⟨hplaces.2, fun other hother => ?_, fun other hother => hpending other (.tail _ hother)⟩
  have hne : worker.place ≠ other.place := fun heq =>
    hplaces.1 (heq ▸ List.mem_map_of_mem hother)
  rw [List.getElem?_set_ne hne]
  exact hfound other (.tail _ hother)

end Holds

/-- What is counted at every moment of a run, and what that comes to at the end. While a batch is under
way the count is of the groups from before it. -/
def Config.Tallied : Config σ → Prop
  | .fresh _ _ | .lost _ => True
  | .between _ _ groups completed => Counted groups completed
  | .within _ crew completed _ hands =>
    Counted crew.groups completed ∧ Holds crew.groups (hands.map (·.1))
  | .home report => report.error = none → ∀ g ∈ report.groups, g.status = .completed

/-- One step keeps the tally. A run comes home without an error only when all groups are counted. -/
theorem Step.tallied (step : Step h s c es c') (before : c.Tallied) : c'.Tallied := by
  cases step with
  | refuse | tire | starve =>
    intro hnone
    cases hnone
  | accept => exact ⟨nameSet_pairwise _, fun name hname => Schedule.mem_completedNames.mp hname⟩
  | finish all => exact fun _ => Counted.all before all
  | take _ _ first => exact ⟨before, holds_freshHands (first ▸ List.take_sublist _ _)⟩
  | work step => exact before
  | @notice _ crew _ _ worker r hands =>
    obtain ⟨hcounted, hholds⟩ := before
    have hfound := hholds.found _ List.mem_cons_self
    have hgroups := groups_collect (h := h) (r := r) hfound
    show Counted (crew.collect h (worker, r)).groups _ ∧ Holds (crew.collect h (worker, r)).groups _
    rw [hgroups]
    exact ⟨hcounted.set hfound (hholds.pending _ List.mem_cons_self), hholds.tail _⟩
  | lose => trivial
  | pass later same => exact ⟨before.1, before.2.perm (same.map _)⟩
  | abort failed =>
    intro hnone
    rw [failed] at hnone
    cases hnone
  | next => exact before.1.addCompleted _

theorem Leads.tallied (leads : Leads h s (.fresh w groups) es c) : c.Tallied := by
  induction leads with
  | refl => trivial
  | step leads next ih => exact next.tallied ih

/-- When a run comes home without an error, all groups have been completed, whatever their names and
whoever the host is. -/
theorem Leads.all_completed {report : Schedule.Report σ}
    (leads : Leads h s (.fresh w groups) es (.home report)) (fine : report.error = none) :
    ∀ g ∈ report.groups, g.status = .completed := by
  have htallied : Config.Tallied (.home report) := leads.tallied
  exact htallied fine

end Interleaving

namespace Run

open Interleaving

variable {p : Plan} {error : Option PlanError}

/-! ## The last write -/

theorem groups_closing (h : Host σ) (s : RunSettings) (w : World σ) (p : Plan)
    (error : Option PlanError) : (closing h s w p error).plan.groups = p.groups := by
  rw [(plan_closing h s w p error).1]
  split <;> rfl

/-- What goes wrong first is the error of a report. -/
theorem error_closing (h : Host σ) (s : RunSettings) (w : World σ) (p : Plan)
    (error : Option PlanError) :
    (closing h s w p error).report.error = error.or
      (match (saveStatus h (tickIfWanted h s w p).2 (tickIfWanted h s w p).1 (finalStatus error)).1 with
        | .ok _ => none
        | .error e => some e) := by
  rw [closing, conclude, finalStatus]
  simp only
  split
  · rename_i hsave
    rw [hsave]
    exact error.or_none.symm
  · rename_i hsave
    rw [hsave]
    rfl

/-- Everything goes well up to the final status, which cannot be written. The final status was chosen
before, and nobody goes back on it. -/
def LastWriteFails (h : Host σ) (s : RunSettings) (w : World σ) (p : Plan) : Prop :=
  ∃ changed p' w' report e, saveStatus h (opening h w p) p .inProgress = (.ok changed, p', w') ∧
    carryOut h s w' p' = .ok report ∧ report.error = none ∧
    (saveStatus h (tickIfWanted h s report.world { p' with groups := report.groups }).2
      (tickIfWanted h s report.world { p' with groups := report.groups }).1 .completed).1 = .error e

/-! ## The whole execution -/

/-- What the parts of a report have to do with each other. There is one thing that is not said here: a
plan can be completed and its report have an error. -/
structure Agrees (r : Result σ) : Prop where
  succeeded : r.report.succeeded = true ↔ r.report.error = none
  status : r.report.finalStatus = .completed ∨ r.report.finalStatus = .failed
  /-- A success is a completed plan. -/
  completed : r.report.error = none → r.report.finalStatus = .completed
  /-- In a completed plan all groups have been completed. -/
  groups : r.report.finalStatus = .completed → ∀ g ∈ r.plan.groups, g.status = .completed

theorem finalStatus_eq_completed : finalStatus error = .completed ↔ error = none := by
  cases error <;> simp [finalStatus]

/-- However a run is closed, the parts of its report agree, given that a run without an error has
completed all groups. -/
theorem agrees_closing (home : error = none → ∀ g ∈ p.groups, g.status = .completed) :
    Agrees (closing h s w p error) := by
  obtain ⟨-, hfinal⟩ := plan_closing h s w p error
  refine { succeeded := Option.isNone_iff_eq_none, status := ?status, completed := ?completed,
           groups := ?groups }
  case status =>
    rw [hfinal]
    exact finalStatus_cases error
  case completed =>
    intro hnone
    rw [error_closing, Option.or_eq_none_iff] at hnone
    rw [hfinal, finalStatus_eq_completed]
    exact hnone.1
  case groups =>
    rw [hfinal, finalStatus_eq_completed, groups_closing]
    exact home

/-- The error and the status of a report agree unless the last write is the first thing to go wrong. An
earlier error makes the status that of a failure, and then both tell the same. -/
theorem closing_agrees_iff :
    ((closing h s w p error).report.error = none ↔
        (closing h s w p error).report.finalStatus = .completed) ↔
      ¬ (error = none ∧ ∃ e, (saveStatus h (tickIfWanted h s w p).2 (tickIfWanted h s w p).1
        .completed).1 = .error e) := by
  rw [(plan_closing h s w p error).2, finalStatus_eq_completed, error_closing]
  cases error with
  | some e => simp
  | none =>
    have hcompleted : finalStatus none = .completed := rfl
    rw [hcompleted]
    cases (saveStatus h (tickIfWanted h s w p).2 (tickIfWanted h s w p).1 .completed).1 <;> simp

/-- When nobody dies of a command, an execution comes home with a report. Its error and its status agree
unless the last write fails, after everything else has gone well. -/
theorem execute_reported (alive : h.Alive) (s : RunSettings) (w : World σ) (p : Plan) :
    ∃ r, execute h s false w p = .ok r ∧ Agrees r ∧
      ((r.report.error = none ↔ r.report.finalStatus = .completed) ↔ ¬ LastWriteFails h s w p) := by
  rcases execute_home alive s w p with
    ⟨e, w', hfirst, hexecute⟩ | ⟨changed, w', _, report, _, hfirst, hcarry, leads, hexecute⟩
  · refine ⟨_, hexecute, agrees_closing fun hnone => (Option.some_ne_none e hnone).elim, ?_⟩
    rw [closing_agrees_iff, not_iff_not]
    refine ⟨fun ⟨hnone, _⟩ => (Option.some_ne_none e hnone).elim, ?_⟩
    rintro ⟨_, _, _, _, _, hfirst', -⟩
    rw [hfirst] at hfirst'
    cases hfirst'
  · refine ⟨_, hexecute, agrees_closing leads.all_completed, ?_⟩
    rw [closing_agrees_iff, not_iff_not]
    constructor
    · rintro ⟨hnone, e, hlast⟩
      exact ⟨changed, _, w', report, e, hfirst, hcarry, hnone, hlast⟩
    · -- a run is one way only, so it is this last write that fails
      rintro ⟨_, _, _, _, e, hfirst', hcarry', hnone, hlast⟩
      rw [hfirst, Prod.mk.injEq, Prod.mk.injEq] at hfirst'
      obtain ⟨-, rfl, rfl⟩ := hfirst'
      rw [hcarry, Except.ok.injEq] at hcarry'
      subst hcarry'
      exact ⟨hnone, e, hlast⟩

/-! ## A plan that is completed, and a file that does not say so -/

/-- Groups that nobody has begun are carried out without an error when every command succeeds. -/
theorem carryOut_of_succeeding (steady : h.Steady)
    (succeeds : ∀ memory command millis, (h.run memory command millis).1.reply.succeeded = true)
    (s : RunSettings) (w : World σ) (fresh : Plan.Fresh p.groups) :
    ∃ report, carryOut h s w p = .ok report ∧ report.error = none := by
  obtain ⟨report, _, carried, hcarry, -, -, -, -, hanswered, hserial⟩ :=
    carryOut_of_fresh steady s w fresh
  refine ⟨report, hcarry, ?_⟩
  have hfine : ∀ c ∈ carried, c.succeeded = true := by
    intro c hc
    obtain ⟨-, memory, hanswer⟩ := hanswered c hc
    rw [Call.succeeded, hanswer]
    exact succeeds _ _ _
  obtain ⟨outcome, through, herror, hends⟩ := hserial.ends
  rw [tasks_chained] at hends
  have hfresh : ∀ t ∈ p.groups.flatMap (·.tasks), t.Fresh := by
    intro t ht
    obtain ⟨g, hg, htask⟩ := List.mem_flatMap.mp ht
    exact (fresh.groups g hg).tasks t htask
  obtain ⟨rfl, -, -⟩ := ends_whole hfresh hends through hfine
  exact herror.symm

end Run

/-- A host on which every command succeeds and no file can be written. Its steadiness shows that the
commands have nothing to do with what goes wrong. -/
def Host.sealed : Host Unit where
  run := fun _ _ _ => ({ reply := .exited { exitCode := 0 } }, ())
  write := fun _ _ _ => (.error .notFound, ())

theorem Host.sealed_steady : Host.sealed.Steady :=
  ⟨fun _ _ _ => by simp [Host.sealed], fun _ _ _ _ => by simp [Host.sealed]⟩

namespace Run

open Plan

section Sealed

variable {p : Plan} {status : PlanStatus}

/-- A status that the text shows already is not written. -/
theorem saveStatus_of_shown {σ : Type} {h : Host σ} {w : World σ}
    (shown : rewriteStatus p.text p.statusLine status = p.text) :
    (saveStatus h w p status).1 = .ok false := by
  rw [saveStatus, update]
  exact congrArg Prod.fst (ite_cond_eq_true _ _ (eq_true shown))

theorem saveStatus_sealed (w : World Unit) {file : String} (path : p.path = some file)
    (other : rewriteStatus p.text p.statusLine status ≠ p.text) :
    (saveStatus Host.sealed w p status).1 = .error (.file .notFound) := by
  have hpath : (p.withStatus status).path = some file := path
  simp only [saveStatus, update, hpath]
  exact congrArg Prod.fst (ite_cond_eq_false _ _ (eq_false other))

/-- When all has gone well but the final status, which cannot be written, the plan has been completed and the
run is no success. -/
theorem closing_sealed (w : World Unit) {file : String} (path : p.path = some file)
    (other : rewriteStatus p.text p.statusLine .completed ≠ p.text) :
    (closing Host.sealed {} w p none).report.error = some (.file .notFound) ∧
      (closing Host.sealed {} w p none).report.finalStatus = .completed := by
  have hlast : (saveStatus Host.sealed w p (finalStatus none)).1 = .error (.file .notFound) :=
    saveStatus_sealed w path other
  have hticked : tickIfWanted Host.sealed {} w p = (p, w) := rfl
  refine ⟨?_, (plan_closing _ _ _ _ _).2⟩
  rw [error_closing, hticked, hlast]
  rfl

/-- The first status of a plan that has been begun is in its text already, so only the last one is to be
written, and that write is the only thing that can fail. -/
theorem execute_sealed (w : World Unit) {file : String} (path : p.path = some file)
    (fresh : Plan.Fresh p.groups) (shown : rewriteStatus p.text p.statusLine .inProgress = p.text)
    (other : rewriteStatus p.text p.statusLine .completed ≠ p.text) :
    ∃ r, execute Host.sealed {} false w p = .ok r ∧ r.report.error = some (.file .notFound) ∧
      r.report.finalStatus = .completed := by
  rcases execute_home Host.sealed_steady.alive {} w p with
    ⟨e, w', hfirst, -⟩ | ⟨_, w', _, report, _, -, hcarry, -, hexecute⟩
  · have hok := saveStatus_of_shown (h := Host.sealed) (w := opening Host.sealed w p) shown
    rw [hfirst] at hok
    cases hok
  · obtain ⟨report', hcarry', hfine⟩ := carryOut_of_succeeding (p := p.withStatus .inProgress)
      Host.sealed_steady (fun _ _ _ => rfl) {} w' fresh
    rw [hcarry, Except.ok.injEq] at hcarry'
    subst hcarry'
    rw [hfine] at hexecute
    have htext : (p.withStatus .inProgress).text = p.text := shown
    exact ⟨_, hexecute, closing_sealed report.world path (htext.symm ▸ other)⟩

end Sealed

/-- The text of a plan that has been begun. -/
def begunText : String :=
  "# Plan\n> **Status:** IN_PROGRESS\n## Tasks\n### Task 1: Build\n**Steps:**\n1. [ ] make\n"

def begunPlan : Plan where
  text := begunText
  spec := { status := .inProgress }
  groups := [{ TaskGroup.new "General" with
    tasks := [{ Task.new 1 "Build" with steps := ["make"], stepLines := [5] }] }]
  statusLine := some 1

theorem parse_begunText : parse begunText = .ok begunPlan := parse_of_toOption (by decide +kernel)

/-- A plan that has been begun is completed, but its file does not say so: the run is no success, and its
status is that of a completed plan. -/
theorem execute_at_odds_of_begun :
    parse begunText = .ok begunPlan ∧ Host.sealed.Alive ∧
      ∃ r, execute Host.sealed {} false { host := () } { begunPlan with path := some "plan.md" } =
          .ok r ∧
        r.report.error = some (.file .notFound) ∧ r.report.finalStatus = .completed := by
  have hshown : rewriteStatus begunText (some 1) .inProgress = begunText := by decide +kernel
  have hother : rewriteStatus begunText (some 1) .completed ≠ begunText := by decide +kernel
  have hfresh : Plan.Fresh begunPlan.groups := parse_fresh parse_begunText
  exact ⟨parse_begunText, Host.sealed_steady.alive, execute_sealed
    (p := { begunPlan with path := some "plan.md" }) { host := () } rfl hfresh hshown hother⟩

/-- The report of this plan has parts that agree but for its error and its status. -/
theorem execute_reported_of_begun :
    Host.sealed.Alive ∧ ∃ r, execute Host.sealed {} false { host := () }
        { begunPlan with path := some "plan.md" } = .ok r ∧ Agrees r ∧
      ((r.report.error = none ↔ r.report.finalStatus = .completed) ↔
        ¬ LastWriteFails Host.sealed {} { host := () } { begunPlan with path := some "plan.md" }) :=
  ⟨Host.sealed_steady.alive, execute_reported Host.sealed_steady.alive {} { host := () }
    { begunPlan with path := some "plan.md" }⟩

end Run

end Runbook
