import Runbook.Proofs.PlanAfterRun

/-!
# Carrying out a plan again

A plan that has been carried out from top to bottom is left in one of two ways: all groups have been
completed, or some first ones have, the next one has failed and nobody has begun the others. When it is
carried out again as it stands, its groups are chained already (`Linked.chained_eq`), and there is nothing to
do. In the first case all groups are counted, and in the second one none is ready, because everyone behind the
group that has failed waits, by way of others, for it (`Linked.idle`). So no command of a task is run, and the
groups that are missing are reported (`run_again`).

The marks in the text are the same again, too (`afterwards_afterwards`), so in the end the plan is the very
same (`execute_again`).
-/

set_option autoImplicit false

namespace Runbook

/-! ## Chains that have been carried out -/

namespace Dependency

variable {previous : Option String} {groups groups' done gs : List TaskGroup} {g : TaskGroup}

/-- In a chain every group waits for the one before it, so there is nothing to add. -/
theorem Linked.chainedAfter_eq {name : String} (linked : Linked (some name) groups) :
    chainedAfter name groups = groups := by
  induction groups generalizing name with
  | nil => rfl
  | cons g gs ih =>
    obtain ⟨hfirst, hrest⟩ := linked
    have hsame : g.addDependency name = g := by
      rw [TaskGroup.addDependency, hfirst, Option.toList_some, insertName, if_pos rfl]
      exact congrArg (fun dependencies => { g with dependencies }) hfirst.symm
    rw [chainedAfter, hsame, ih hrest]

/-- A chain is not changed by chaining it again. This is why a plan can be carried out as it was left.
-/
theorem Linked.chained_eq (linked : Linked none groups) : chained groups = groups := by
  cases groups with
  | nil => rfl
  | cons g gs => rw [chained, linked.2.chainedAfter_eq]

/-- Whether groups are a chain is a matter of their outlines, and these a run leaves alone. -/
theorem Linked.of_outline (linked : Linked previous groups)
    (outline : groups'.map (·.outline) = groups.map (·.outline)) : Linked previous groups' := by
  induction groups generalizing previous groups' with
  | nil =>
    rw [List.map_eq_nil_iff.mp outline]
    trivial
  | cons g gs ih =>
    obtain ⟨g', gs', rfl, hg, hgs⟩ := List.map_eq_cons_iff.mp outline
    rw [Linked, TaskGroup.dependencies_eq_of_outline hg, TaskGroup.name_eq_of_outline hg]
    exact ⟨linked.1, ih linked.2 hgs⟩

theorem Linked.behind (linked : Linked previous (done ++ gs)) : ∃ previous', Linked previous' gs := by
  induction done generalizing previous with
  | nil => exact ⟨previous, linked⟩
  | cons x done ih => exact ih linked.2

/-- Behind a group that will not be completed no group of a chain becomes ready. The first of them waits
for it, and each of the others for one that is not completed either. -/
theorem Linked.idle {completed : List String} (linked : Linked previous (done ++ g :: gs))
    (names : ((done ++ g :: gs).map (·.name)).Nodup) (finished : ∀ x ∈ done, x.status = .completed)
    (stuck : g.status ≠ .pending) (missing : ∀ x ∈ g :: gs, x.status ≠ .completed)
    (known : ∀ name ∈ completed, Schedule.IsCompleted (done ++ g :: gs) name) :
    Dependency.ready (done ++ g :: gs) completed = [] := by
  have hunknown : ∀ x ∈ g :: gs, x.name ∉ completed := by
    intro x hx hmem
    obtain ⟨y, hy, hstatus, hname⟩ := known x.name hmem
    rw [eq_of_name_eq names hy (List.mem_append_right _ hx) hname] at hstatus
    exact missing x hx hstatus
  obtain ⟨_, hbehind⟩ := linked.behind
  exact List.eq_nil_iff_forall_not_mem.mpr fun i hi =>
    stuck (hbehind.eq_of_mem_ready finished hunknown hi).2

end Dependency

namespace Schedule

open Dependency (Linked)

variable {σ : Type} {groups : List TaskGroup} {g : TaskGroup}

/-! ## Groups that have been carried out -/

/-- Where names are distinct, a name is counted exactly when its own group has been completed. -/
theorem mem_completedNames_iff (names : (groups.map (·.name)).Nodup) (mem : g ∈ groups) :
    g.name ∈ completedNames groups ↔ g.status = .completed := by
  rw [mem_completedNames]
  constructor
  · rintro ⟨g', hg', hstatus, hname⟩
    rw [eq_of_name_eq names mem hg' hname.symm]
    exact hstatus
  · exact fun hstatus => ⟨g, mem, hstatus, rfl⟩

theorem length_completedNames (names : (groups.map (·.name)).Nodup) :
    (completedNames groups).length = (groups.filter (·.status == .completed)).length :=
  length_of_completed names (nameSet_pairwise _) fun _ => mem_completedNames

/-- A chain of groups that have all been completed is done: nothing is called, and nothing is reported.
-/
theorem run_of_completed (b : Bench σ) (size : Nat) (w : World σ) (linked : Linked none groups)
    (names : (groups.map (·.name)).Nodup) (all : ∀ g ∈ groups, g.status = .completed) :
    run b size w groups = .ok { world := w, groups } := by
  have hfilter : groups.filter (·.status == .completed) = groups :=
    List.filter_eq_self.mpr fun g hg => by simp [all g hg]
  rw [run, (Dependency.cycle?_eq_none_iff names).mpr (linked.acyclic names)]
  refine Interleaving.rounds_all ?_
  rw [length_completedNames names, hfilter]

/-- A chain of groups, of which one has failed and nobody has begun the others behind it, cannot be
carried on. It is refused before any command is handed over. -/
theorem run_of_failed (b : Bench σ) (size : Nat) (w : World σ) (linked : Linked none groups)
    (names : (groups.map (·.name)).Nodup) {before after : List TaskGroup}
    (split : groups = before ++ g :: after) (finished : ∀ x ∈ before, x.status = .completed)
    (failed : g.status = .failed) (rest : ∀ x ∈ after, x.status = .pending) :
    run b size w groups = .ok (.refuse b.host w groups (.unmetDependency
      ((groups.filter fun g => g.status ≠ .completed).map (·.name)))) := by
  have hmissing : ∀ x ∈ g :: after, x.status ≠ .completed := by
    intro x hx
    rcases List.mem_cons.mp hx with rfl | hx
    · simp [failed]
    · simp [rest x hx]
  have hidle : Dependency.ready groups (completedNames groups) = [] := by
    rw [split] at linked names ⊢
    exact linked.idle names finished (by simp [failed]) hmissing fun name hname =>
      mem_completedNames.mp hname
  -- the failed group is missing, so the rounds do not stop before they look for ready ones
  have hunfinished : (completedNames groups).length < groups.length := by
    rw [length_completedNames names]
    refine lt_of_le_of_ne (List.length_filter_le _ _) fun heq => ?_
    have hall := List.length_filter_eq_length_iff.mp heq g (by simp [split])
    exact hmissing g List.mem_cons_self (by simpa using hall)
  have hunknown : (groups.filter fun g => !(completedNames groups).contains g.name) =
      groups.filter fun g => g.status ≠ .completed := by
    refine List.filter_congr fun g hg => ?_
    have hknown := mem_completedNames_iff names hg
    by_cases hstatus : g.status = .completed
    · simp [hstatus, hknown.mpr hstatus]
    · simp [hstatus, mt hknown.mp hstatus]
  obtain ⟨left, hleft⟩ : ∃ left, groups.length * 2 = left + 1 :=
    Nat.exists_eq_add_one_of_ne_zero (by simp [split])
  rw [run, (Dependency.cycle?_eq_none_iff names).mpr (linked.acyclic names)]
  simp only [hleft]
  rw [Interleaving.rounds_idle hunfinished hidle, hunknown]

end Schedule

namespace Run

open Dependency (Linked)
open Plan Interleaving

variable {σ τ : Type} {h : Host σ} {h' : Host τ} {s : RunSettings} {w : World σ} {w' : World τ}
  {p : Plan} {groups : List TaskGroup} {error : Option PlanError}

/-! ## What a run leaves behind -/

/-- Groups as a run that goes from top to bottom leaves them, with what went wrong. There is no third
case: a chain stops at its first failure. -/
structure Halted (groups : List TaskGroup) (error : Option PlanError) : Prop where
  linked : Linked none groups
  names : (groups.map (·.name)).Nodup
  statuses : (error = none ∧ ∀ g ∈ groups, g.status = .completed) ∨
    (error.isSome = true ∧ ∃ before g after, groups = before ++ g :: after ∧
      (∀ x ∈ before, x.status = .completed) ∧ g.status = .failed ∧ ∀ x ∈ after, x.status = .pending)

/-- Groups that have been carried out one after the other are left so. -/
theorem halted_of_serial {programs : List String} {calls : List Call} (fresh : Plan.Fresh p.groups)
    (serial : Serial programs (Dependency.chained p.groups) calls groups error) :
    Halted groups error := by
  obtain ⟨houtline, hstatuses⟩ := serial.statuses (pending_chained fresh)
  refine ⟨(Dependency.linked_chained fun g hg => (fresh.groups g hg).free).of_outline houtline, ?_,
    hstatuses⟩
  rw [names_of_outline houtline, Dependency.map_chained (·.name) fun _ _ => rfl]
  exact fresh.names

/-- The names of the groups that have not been completed, as what a run waits for in vain. The group
that has failed is among them, at the head. -/
def unmet (groups : List TaskGroup) : PlanError :=
  .unmetDependency ((groups.filter fun g => g.status ≠ .completed).map (·.name))

/-- Nothing is left to do for groups that a run has left behind. Whoever the host is, it is not asked.
-/
theorem Halted.run (halted : Halted groups error) (b : Bench σ) (size : Nat) (w : World σ) :
    ∃ report, Schedule.run b size w groups = .ok report ∧ report.groups = groups ∧
      report.world.calls = w.calls ∧ report.error = error.map fun _ => unmet groups := by
  rcases halted.statuses with ⟨rfl, hall⟩ | ⟨hsome, before, g, after, hsplit, hbefore, hg, hafter⟩
  · exact ⟨_, Schedule.run_of_completed b size w halted.linked halted.names hall, rfl, rfl, rfl⟩
  · obtain ⟨e, rfl⟩ := Option.isSome_iff_exists.mp hsome
    exact ⟨_, Schedule.run_of_failed b size w halted.linked halted.names hsplit hbefore hg hafter, rfl,
      rfl, rfl⟩

/-- The first execution leaves the groups halted, with what the report says went wrong. -/
theorem execute_halted (steady : h.Steady) (fresh : Plan.Fresh p.groups)
    (written : StatusWritten h s w p) :
    ∃ r groups, execute h s false w p = .ok r ∧ r.plan = afterwards s p groups r.report.error ∧
      Halted groups r.report.error := by
  obtain ⟨changed, p', w', hfirst, hlast⟩ := written
  obtain rfl : p.withStatus .inProgress = p' := by
    rw [← plan_saveStatus h (opening h w p) p .inProgress, hfirst]
  obtain ⟨report, -, carried, hcarry, -, -, -, -, -, hserial⟩ :=
    carryOut_of_fresh (p := p.withStatus .inProgress) steady s w' fresh
  obtain ⟨changed', hlast⟩ := hlast report hcarry
  obtain ⟨-, herror, -⟩ := conclude_of_written hlast
  refine ⟨_, report.groups, execute_of_carried hfirst hcarry, ?_, ?_⟩
  · rw [closing, herror]
    exact (plan_closing _ _ _ _ _).1
  · rw [closing, herror]
    exact halted_of_serial fresh hserial

/-! ## The same marks again -/

theorem afterwards_eq (s : RunSettings) (p : Plan) (groups : List TaskGroup)
    (error : Option PlanError) :
    afterwards s p groups error =
      { p with
        text := (afterwards s p groups error).text
        spec := { p.spec with status := finalStatus error }
        groups } := by
  unfold afterwards
  split <;> rfl

/-- A run that leaves the groups alone and comes out the same way leaves the same plan: the same boxes
are ticked again, and the same status is written last. -/
theorem afterwards_afterwards {error' : Option PlanError}
    (same : finalStatus error' = finalStatus error) :
    afterwards s (afterwards s p groups error) groups error' = afterwards s p groups error := by
  have hword := (told_finalStatus error).word
  have htext : (afterwards s (afterwards s p groups error) groups error').text =
      (afterwards s p groups error).text := by
    have hlines : doneLines { afterwards s p groups error with groups } = doneLines { p with groups } :=
      rfl
    have hline : (afterwards s p groups error).statusLine = p.statusLine := by rw [afterwards_eq]
    rw [text_afterwards, hlines, hline, text_afterwards s p, same, ← tickSteps_rewriteStatus hword,
      tickSteps_tickSteps, rewriteStatus_rewriteStatus hword]
  rw [afterwards_eq s (afterwards s p groups error), htext, same, afterwards_eq s p groups error]

theorem finalStatus_map (error : Option PlanError) (f : PlanError → PlanError) :
    finalStatus (error.map f) = finalStatus error := by
  cases error <;> rfl

/-! ## The whole execution -/

/-- A report has the status of its plan, for a rehearsal as well. -/
theorem status_of_execute {dryRun : Bool} {r : Result σ} (executed : execute h s dryRun w p = .ok r) :
    r.report.finalStatus = r.plan.spec.status := by
  have hconclude : ∀ (w : World σ) (p : Plan) (error : Option PlanError),
      (conclude h w p error).report.finalStatus = (conclude h w p error).plan.spec.status :=
    fun _ _ _ => rfl
  unfold execute at executed
  simp only at executed
  split at executed
  · cases executed
    rfl
  · split at executed
    · cases executed
      exact hconclude _ _ _
    · rename_i p' w' _
      cases hcarry : carryOut h s w' p' with
      | error message =>
        rw [hcarry] at executed
        cases executed
      | ok report =>
        rw [hcarry] at executed
        cases executed
        exact hconclude _ _ _

/-- A second run repeats nothing of a first one but the commands that prepare it, and comes out the same
way. -/
structure Repeats (h' : Host τ) (s : RunSettings) (w' : World τ) (r : Result σ) (r' : Result τ)
    (prepared : List Call) : Prop where
  /-- No other call is made. -/
  calls : r'.world.calls = w'.calls ++ prepared
  context : prepared.map (·.command) = r.plan.context
  answered : ∀ c ∈ prepared, c.group = none ∧ Answered h' s.contextMillis c
  /-- Groups, tasks, statuses, dependencies and the text are left alone. -/
  plan : r'.plan = r.plan
  succeeded : r'.report.succeeded = r.report.succeeded
  finalStatus : r'.report.finalStatus = r.report.finalStatus
  /-- After a failure the groups that have not been completed are missed. -/
  missing : r.report.succeeded = false → r'.report.error = some (unmet r.plan.groups)

/-- What a run has left behind is left alone by the next one, which makes the calls that prepare it and
no others. -/
theorem execute_of_halted (alive : h'.Alive) {q : Plan} (plan : q = afterwards s p groups error)
    (halted : Halted groups error) (written : StatusWritten h' s w' q) :
    ∃ r' prepared, execute h' s false w' q = .ok r' ∧ r'.world.calls = w'.calls ++ prepared ∧
      prepared.map (·.command) = q.context ∧
      (∀ c ∈ prepared, c.group = none ∧ Answered h' s.contextMillis c) ∧
      r'.plan = q ∧ r'.report.error = error.map fun _ => unmet groups := by
  obtain ⟨changed, q', w₁, hfirst, hlast⟩ := written
  have hbegun := saveStatus_written h' (opening h' w' q) q .inProgress
  obtain rfl : q.withStatus .inProgress = q' := by
    rw [← plan_saveStatus h' (opening h' w' q) q .inProgress, hfirst]
  rw [hfirst] at hbegun
  have hgroups : q.groups = groups := by rw [plan, afterwards_eq]
  obtain ⟨w₂, prepared, hprepare, hprepared, -, hcommands, hanswered⟩ :=
    prepareAll_of_alive alive s.contextMillis q.context w₁
  -- the groups are chained already, so they are carried out as they stand
  obtain ⟨report, hrun, hsame, hcalls, herror⟩ :=
    halted.run (Bench.ofSettings h' s) s.effectiveBatchSize w₂
  have hcarry : carryOut h' s w₁ (q.withStatus .inProgress) = .ok report := by
    have hchained : Dependency.chained q.groups = groups := by rw [hgroups, halted.linked.chained_eq]
    rw [carryOut]
    simp only [withStatus, hprepare, hchained]
    exact hrun
  obtain ⟨changed', hlast⟩ := hlast report hcarry
  have hticked := tickIfWanted_written h' s report.world
    { q.withStatus .inProgress with groups := report.groups }
  obtain ⟨-, herror', hcalls'⟩ := conclude_of_written hlast
  refine ⟨_, prepared, execute_of_carried hfirst hcarry, ?_, hcommands, hanswered, ?_,
    herror'.trans herror⟩
  · rw [closing, hcalls', hticked.calls, hcalls, hprepared]
    exact congrArg (· ++ prepared) hbegun.calls
  · have hplan : afterwards s q groups (error.map fun _ => unmet groups) = q := by
      rw [plan]
      exact afterwards_afterwards (finalStatus_map error _)
    rw [hsame, herror]
    exact (plan_closing _ _ _ _ _).1.trans hplan

/-- The execution of a plan that has just been read, on a steady host, and then again as it was left, on a
host where nobody dies of a command: the second one finds nothing to do. -/
theorem execute_again {text : String} (path : Option String) (parsed : parse text = .ok p)
    (steady : h.Steady) (alive : h'.Alive)
    (written : path = none ∨ StatusWritten h s w { p with path }) :
    ∃ r, execute h s false w { p with path } = .ok r ∧
      ∀ w' : World τ, path = none ∨ StatusWritten h' s w' r.plan →
        ∃ r' prepared, execute h' s false w' r.plan = .ok r' ∧ Repeats h' s w' r r' prepared := by
  have hwritten : StatusWritten h s w { p with path } :=
    written.elim (fun hnone => statusWritten_of_no_path h s w hnone) id
  have hfresh := parse_fresh parsed
  obtain ⟨r, groups, hexecute, hplan, halted⟩ :=
    execute_halted (p := { p with path }) steady hfresh hwritten
  have hgroups : r.plan.groups = groups := by rw [hplan, afterwards_eq]
  refine ⟨r, hexecute, fun w' written' => ?_⟩
  have hwritten' : StatusWritten h' s w' r.plan := by
    refine written'.elim (fun hnone => statusWritten_of_no_path h' s w' ?_) id
    rw [hplan, afterwards_eq]
    exact hnone
  -- the second run begins with what the first one has left, so the first one's host has no part in it
  obtain ⟨r', prepared, hexecute', hcalls, hcontext, hanswered, hplan', herror⟩ :=
    execute_of_halted alive hplan halted hwritten'
  refine ⟨r', prepared, hexecute', {
    calls := hcalls
    context := hcontext
    answered := hanswered
    plan := hplan'
    succeeded := ?succeeded
    finalStatus := ?finalStatus
    missing := ?missing }⟩
  case succeeded =>
    rw [RunReport.succeeded, RunReport.succeeded, herror, Option.isNone_map]
  case finalStatus => rw [status_of_execute hexecute', status_of_execute hexecute, hplan']
  case missing =>
    intro failed
    rw [herror, hgroups]
    cases he : r.report.error with
    | none =>
      rw [RunReport.succeeded, he] at failed
      cases failed
    | some e => rfl

/-- The small plan is carried out twice on a host on which everything succeeds. -/
theorem execute_again_of_small :
    parse smallText = .ok smallPlan ∧ Host.obliging.Steady ∧ Host.obliging.Alive ∧
      ∃ r r' prepared,
        execute Host.obliging {} false { host := () } { smallPlan with path := none } = .ok r ∧
          execute Host.obliging {} false { host := () } r.plan = .ok r' ∧
            Repeats Host.obliging {} { host := () } r r' prepared := by
  have hsteady := Host.obliging_steady
  obtain ⟨r, hexecute, hagain⟩ := execute_again (s := {}) (w := { host := () }) none parse_smallText
    hsteady hsteady.alive (.inl rfl)
  obtain ⟨r', prepared, hexecute', hrepeats⟩ := hagain { host := () } (.inl rfl)
  exact ⟨parse_smallText, hsteady, hsteady.alive, r, r', prepared, hexecute, hexecute', hrepeats⟩

end Run

end Runbook
