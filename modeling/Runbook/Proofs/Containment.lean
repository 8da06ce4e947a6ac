import Runbook.Proofs.Outcome
import Runbook.Proofs.TaskIdentity

/-!
# How far a failure reaches

However commands come out, and even when workers die, every group is left in order: a group that was
never taken up is as it was, and a group that was taken up has one of five shapes (`Shape`). The
shapes are read off the six ways in which a worker can come back (`Comes.shape`).

What is assumed is that groups which are still to do hold only tasks which are still to do. This
stays so when a worker gives a group back, so it can be taken up again (`Taken.tasks_pending`).
-/

set_option autoImplicit false

namespace Runbook.Interleaving

variable {σ : Type} {h : Host σ} {s : RunSettings} {w : World σ} {groups now : List TaskGroup}
  {es since : List Event} {c : Config σ} {place : Nat} {before g : TaskGroup}

/-! ## Shapes -/

/-- All tasks have some status. -/
def All (status : TaskStatus) (tasks : List Task) : Prop := ∀ t ∈ tasks, t.status = status

/-- What a group can look like that has been taken up. The names are those of the status, but for a
group whose worker died: it has failed as well, and yet none of its tasks has. -/
inductive Shape where
  | completed
  | failed
  /-- The worker died, and nothing is known of what it did. -/
  | lost
  | skipped
  | pending
deriving DecidableEq, Repr

/-- Does a group that stood `before` when it was taken up have this shape afterwards? Tasks are carried
out from the top down, so those that are through stand above those that are still to do. -/
def Shape.Fits (before after : TaskGroup) : Shape → Prop
  | .completed => after.status = .completed ∧ All .completed after.tasks
  | .failed => after.status = .failed ∧ ∃ done t rest diagnostic,
      after.tasks = done ++ t :: rest ∧ All .completed done ∧ t.status = .failed ∧
        t.error = some diagnostic ∧ All .pending rest
  | .lost => after.status = .failed ∧ after.tasks = before.tasks
  | .skipped => after.status = .skipped ∧ ∃ done rest, after.tasks = done ++ rest ∧ done ≠ [] ∧
      rest ≠ [] ∧ All .completed done ∧ All .pending rest
  | .pending => after.status = .pending ∧ All .pending after.tasks

def Shape.status : Shape → TaskStatus
  | .completed => .completed
  | .failed | .lost => .failed
  | .skipped => .skipped
  | .pending => .pending

theorem Shape.Fits.status_eq {shape : Shape} {after : TaskGroup} (fits : shape.Fits before after) :
    after.status = shape.status := by
  cases shape <;> exact fits.1

/-- The two shapes of a group that has failed exclude each other: in the one a task has failed, in the
other all tasks are still to do. -/
theorem Shape.not_failed_and_lost {after : TaskGroup} (fresh : All .pending before.tasks)
    (failed : Shape.failed.Fits before after) : ¬ Shape.lost.Fits before after := by
  intro lost
  obtain ⟨-, done, t, rest, diagnostic, htasks, -, hfailed, -⟩ := failed
  obtain ⟨-, hsame⟩ := lost
  rw [hsame] at htasks
  have hpending := fresh t (by rw [htasks]; simp)
  rw [hfailed] at hpending
  cases hpending

/-- No group has two shapes. The status tells them apart, but for the two that have failed. -/
theorem Shape.Fits.unique {shape shape' : Shape} {after : TaskGroup}
    (fresh : All .pending before.tasks) (fits : shape.Fits before after)
    (fits' : shape'.Fits before after) : shape' = shape := by
  have hsame : shape'.status = shape.status := by rw [← fits.status_eq, ← fits'.status_eq]
  -- only a failed group and a lost one have the same status
  cases shape <;> cases shape' <;> try first | rfl | cases hsame
  · exact absurd fits' (Shape.not_failed_and_lost fresh fits)
  · exact absurd fits (Shape.not_failed_and_lost fresh fits')

/-- A group of whatever shape is left in order: nothing of it says that somebody is still at work. -/
theorem Shape.Fits.not_inProgress {shape : Shape} {after : TaskGroup}
    (fresh : All .pending before.tasks) (fits : shape.Fits before after) :
    after.status ≠ .inProgress ∧ ∀ t ∈ after.tasks, t.status ≠ .inProgress := by
  constructor
  · rw [fits.status_eq]
    cases shape <;> simp [Shape.status]
  · intro t ht
    cases shape with
    | completed => simp [fits.2 t ht]
    | pending => simp [fits.2 t ht]
    | lost =>
      rw [fits.2] at ht
      simp [fresh t ht]
    | failed =>
      obtain ⟨-, done, t', rest, diagnostic, htasks, hdone, hfailed, -, hrest⟩ := fits
      rw [htasks, List.mem_append, List.mem_cons] at ht
      rcases ht with ht | rfl | ht
      · simp [hdone t ht]
      · simp [hfailed]
      · simp [hrest t ht]
    | skipped =>
      obtain ⟨-, done, rest, htasks, -, -, hdone, hrest⟩ := fits
      rw [htasks, List.mem_append] at ht
      rcases ht with ht | ht
      · simp [hdone t ht]
      · simp [hrest t ht]

/-! ## Workers that come back -/

section Worker

variable {programs : List String} {stopped : Bool} {calls : List Call} {r : Result}

theorem completed_settled {tasks : List Task} (fresh : All .pending tasks) :
    All .completed (tasks.map Task.settled) := by
  intro t ht
  obtain ⟨t', ht', rfl⟩ := List.mem_map.mp ht
  have hopen : t'.isTerminal = false := by
    rw [Task.isTerminal, fresh t' ht']
    rfl
  rw [Task.settled_of_open hopen]

/-- A group whose worker was called off is skipped if a task has been completed, and otherwise still to
do. In the second case it is given back as if nobody had touched it. -/
theorem shape_of_calledOff {left : List Task} (fresh : All .pending g.tasks)
    (off : CalledOff g.tasks left) :
    Shape.skipped.Fits g (g.conclude ⟨left, .cancelled⟩).1 ∨
      Shape.pending.Fits g (g.conclude ⟨left, .cancelled⟩).1 := by
  obtain ⟨split, isOpen, given⟩ := off
  rename_i done rest t t'
  have hdone : All .completed (done.map Task.settled) :=
    completed_settled fun u hu => fresh u (by rw [split]; simp [hu])
  have hrest : All .pending (t' :: rest) := by
    intro u hu
    rcases List.mem_cons.mp hu with rfl | hu
    · rcases given with rfl | rfl
      · exact fresh _ (by rw [split]; simp)
      · rfl
    · exact fresh u (by rw [split]; simp [hu])
  -- the outcome is decided by how many tasks have been completed, which are those in front
  have hcount : (t' :: rest).countP (·.status == .completed) = 0 := by
    refine List.countP_eq_zero.mpr fun u hu => ?_
    simp [hrest u hu]
  have hcompleted : (done.map Task.settled).countP (·.status == .completed) = done.length := by
    rw [List.countP_eq_length.mpr, List.length_map]
    intro u hu
    simp [hdone u hu]
  cases done with
  | nil =>
    refine .inr ⟨?_, hrest⟩
    show (if TaskGroup.completedTasks _ > 0 then TaskStatus.skipped else .pending) = .pending
    rw [TaskGroup.completedTasks, List.map_nil, List.nil_append, hcount]
    rfl
  | cons u done =>
    refine .inl ⟨?_, _, _, rfl, by simp, by simp, hdone, hrest⟩
    show (if TaskGroup.completedTasks _ > 0 then TaskStatus.skipped else .pending) = .skipped
    rw [TaskGroup.completedTasks, List.countP_append, hcompleted, hcount]
    rfl

/-- A group that its worker brings back has a shape; it is lost only when a command has killed the
worker. The cases are the ways in which a worker can come back. -/
theorem Comes.shape (comes : Comes programs stopped g calls r) (pending : g.status = .pending)
    (fresh : All .pending g.tasks) :
    ∃ shape : Shape, shape.Fits g (broughtBack g r) ∧
      (shape = .lost → ∃ call ∈ calls, ∃ message, call.answer.reply = .crashed message) := by
  cases comes with
  | declined off => exact ⟨.pending, ⟨pending, fresh⟩, by simp⟩
  | @died calls call message fine asked why =>
    exact ⟨.lost, ⟨rfl, rfl⟩, fun _ => ⟨call, by simp, message, why⟩⟩
  | @ended calls ending ends =>
    cases ends with
    | completed fine all => exact ⟨.completed, ⟨rfl, completed_settled fresh⟩, by simp⟩
    | @failed calls call done rest t _ _ phase diagnostic fine split isOpen chores asked why =>
      refine ⟨.failed, ⟨rfl, done.map Task.settled, t.fail diagnostic, rest, diagnostic, rfl, ?_,
        rfl, rfl, ?_⟩, by simp⟩
      · exact completed_settled fun u hu => fresh u (by rw [split]; simp [hu])
      · exact fun u hu => fresh u (by rw [split]; simp [hu])
    | calledOff off fine asked back | recalled fine asked why back =>
      rcases shape_of_calledOff fresh back with hfits | hfits
      · exact ⟨.skipped, hfits, by simp⟩
      · exact ⟨.pending, hfits, by simp⟩

/-- A command has failed, and the worker comes back saying so: its group has failed with the task that
is named, and the detail is the diagnostic of the last call that it made. -/
theorem Comes.blame (comes : Comes programs stopped g calls r) (fresh : All .pending g.tasks)
    {phase : Phase} {task command detail : String}
    (failure : failure? ⟨place, g⟩ r = some (phase.planError task command detail)) :
    (broughtBack g r).status = .failed ∧
      (∃ t, (broughtBack g r).failedTask? = some t ∧ t.name = task ∧ t.error = some detail) ∧
      ∃ call ∈ calls, call.command = command ∧ call.answer.reply.diagnostic? = some detail := by
  cases comes with
  | declined off => cases failure
  | died fine asked why => cases phase <;> cases failure
  | @ended calls ending ends =>
    cases ends with
    | completed fine all => cases failure
    | calledOff off fine asked back | recalled fine asked why back => cases failure
    | @failed calls call done rest t _ _ phase' diagnostic fine split isOpen chores asked why =>
      -- both ways of failing carry the names of the task and the command, whatever the phase
      have hsame : t.name = task ∧ call.command = command ∧ diagnostic = detail := by
        have hfailure := Option.some.inj failure
        cases phase <;> cases phase' <;> cases hfailure <;> exact ⟨rfl, rfl, rfl⟩
      obtain ⟨rfl, rfl, rfl⟩ := hsame
      refine ⟨rfl, ⟨t.fail diagnostic, ?_, rfl, rfl⟩, call, by simp, rfl, why⟩
      have hdone : All .completed (done.map Task.settled) :=
        completed_settled fun u hu => fresh u (by rw [split]; simp [hu])
      show (done.map Task.settled ++ t.fail diagnostic :: rest).find? _ = _
      rw [List.find?_append, List.find?_eq_none.mpr, Option.none_or, List.find?_cons_of_pos rfl]
      intro u hu
      simp [hdone u hu]

end Worker

/-! ## Groups that are taken up -/

/-- Groups that are still to do hold only tasks that are still to do. This holds of every plan that has
been read and of what a run leaves of it. -/
def Unbegun (groups : List TaskGroup) : Prop :=
  ∀ g ∈ groups, g.status = .pending → All .pending g.tasks

/-- Whenever a group is taken up, all its tasks are still to do: it has never been touched, or it was
given back before any of its tasks was completed. -/
theorem Taken.tasks_pending (names : (groups.map (·.name)).Nodup) (unbegun : Unbegun groups)
    (taken : Taken h s w groups place before es since) : All .pending before.tasks := by
  have tries := taken.tries names
  clear taken
  induction tries with
  | first found pending quiet => exact unbegun _ (List.mem_of_getElem? found) pending
  | again leads taken seen comes told pending tries ih =>
    -- of all the shapes in which a group comes back, only an untouched one is still to do
    obtain ⟨shape, hfits, -⟩ := comes.shape taken.pending ih
    have hshape := hfits.status_eq
    rw [pending] at hshape
    cases shape with
    | pending => exact hfits.2
    | completed | failed | lost | skipped => cases hshape

/-! ## What is left behind -/

/-- Of a group, the end of a call has been seen. The name on the call is that of the group, so it is a
call that the worker of the group has made. -/
def Saw (es : List Event) (g : TaskGroup) (call : Call) : Prop :=
  .ended call ∈ es ∧ call.group = some g.name

/-- What a run from some groups leaves behind, given its events. It is said of one report and its events
and of no other run, so that it can be read as what a user finds after the run. -/
structure Contained (h : Host σ) (s : RunSettings) (w : World σ) (groups : List TaskGroup)
    (es : List Event) (report : Schedule.Report σ) : Prop where
  /-- A group that was never taken up is as it was. -/
  untouched : ∀ (i : Nat) (g : TaskGroup), groups[i]? = some g → Passed i es →
    report.groups[i]? = some g
  /-- A group that was taken up has one shape, and nothing of it is in progress. It is lost only
  when a command has killed its worker. -/
  shaped : ∀ (i : Nat) (g : TaskGroup), groups[i]? = some g → ¬ Passed i es →
    ∃ (before after : TaskGroup) (since : List Event) (shape : Shape),
      Taken h s w groups i before es since ∧ report.groups[i]? = some after ∧
      after.outline = g.outline ∧ shape.Fits before after ∧
      (∀ shape' : Shape, shape'.Fits before after → shape' = shape) ∧
      (after.status ≠ .inProgress ∧ ∀ t ∈ after.tasks, t.status ≠ .inProgress) ∧
      (shape = .lost → ∃ call, Saw since before call ∧
        ∃ message, call.answer.reply = .crashed message)
  /-- A failure of a command is the failure of the task that it belongs to, in the last batch. -/
  blamed : ∀ (phase : Phase) (task command detail : String),
    report.error = some (phase.planError task command detail) →
    ∃ (batch : List Nat) (i : Nat) (g : TaskGroup) (t : Task) (call : Call), Latest batch es ∧
      i ∈ batch ∧ report.groups[i]? = some g ∧ g.status = .failed ∧ g.failedTask? = some t ∧
      t.name = task ∧ t.error = some detail ∧ Saw es g call ∧ call.command = command ∧
      call.answer.reply.diagnostic? = some detail
  /-- Whatever has become of a group, its tasks are its own: nothing of them is another but a status and an
  error. The shapes alone would not say so, since they speak of statuses. -/
  released : report.groups.map (·.tasks.map Task.released) = groups.map (·.tasks.map Task.released)
  /-- Everyone has been waited for. -/
  quiet : inFlight es = []

section Contained

variable {report : Schedule.Report σ}

theorem saw_of_log {calls : List Call} (seen : ofGroup before.name since = log calls)
    {call : Call} (mem : call ∈ calls) : Saw since before call := by
  have hmem := ended_mem_log mem
  rw [← seen, ofGroup, List.mem_filter] at hmem
  exact ⟨hmem.1, by simpa [Event.isOf] using hmem.2⟩

theorem Taken.not_passed (taken : Taken h s w groups place before es since) :
    ¬ Passed place es := by
  obtain ⟨leads, first, inBatch, found, last⟩ := taken
  intro hpassed
  exact hpassed _ (List.mem_append_right _ List.mem_cons_self) inBatch

/-- The task that is reported has failed in a group of the last batch that was taken up, and the detail
is the diagnostic of a call whose end has been seen. -/
theorem Leads.blamed (names : (groups.map (·.name)).Nodup) (unbegun : Unbegun groups)
    (leads : Leads h s (.fresh w groups) es (.home report)) {phase : Phase}
    {task command detail : String}
    (failed : report.error = some (phase.planError task command detail)) :
    ∃ (batch : List Nat) (i : Nat) (g : TaskGroup) (t : Task) (call : Call), Latest batch es ∧
      i ∈ batch ∧ report.groups[i]? = some g ∧ g.status = .failed ∧ g.failedTask? = some t ∧
      t.name = task ∧ t.error = some detail ∧ Saw es g call ∧ call.command = command ∧
      call.answer.reply.diagnostic? = some detail := by
  cases leads with
  | @step es _ c' _ leads next =>
    -- the step that comes home adds no event, and only an abort carries such an error
    rw [show es ++ _ = es by cases next <;> exact List.append_nil _]
    cases next with
    | refuse | starve => cases phase <;> cases failed
    | tire => cases phase <;> cases failed
    | finish => cases failed
    | @abort left crew completed batch e error =>
      have handled : Handled h s w groups es crew batch [] := leads.account names
      have underway : Underway s es crew.groups completed batch := leads.ledger names
      obtain ⟨i, before, calls, r, hbatch, -, hfound, carried, hblame⟩ := handled.blame _ failed
      have hname := TaskGroup.name_eq_of_outline carried.outline
      obtain ⟨taken, seen, comes, told⟩ := carried
      obtain ⟨hstatus, ⟨t, ht, htask, herror⟩, call, hmem, hcommand, hdetail⟩ :=
        comes.blame (taken.tasks_pending names unbegun) hblame
      obtain ⟨hended, hgroup⟩ := saw_of_log seen hmem
      rw [← hname] at hgroup
      exact ⟨batch, i, _, t, call, underway.latest, hbatch, hfound, hstatus, ht, htask, herror,
        ⟨taken.subset hended, hgroup⟩, hcommand, hdetail⟩

/-- Whatever the host answers and whatever the order of events, what a run leaves behind is in order;
and what is carried out, if it comes home, is such a run. The host may fail, complain or kill workers as
it likes. -/
theorem run_contained (names : (groups.map (·.name)).Nodup) (unbegun : Unbegun groups)
    (w : World σ) :
    (∀ es report, Leads h s (.fresh w groups) es (.home report) →
      Contained h s w groups es report) ∧
    ∀ report, Schedule.run (Bench.ofSettings h s) s.effectiveBatchSize w groups = .ok report →
      ∃ es, Leads h s (.fresh w groups) es (.home report) := by
  constructor
  · intro es report leads
    obtain ⟨stopped, settled⟩ : ∃ stopped, Settled h s w groups stopped es report.groups :=
      leads.account names
    refine {
      untouched := ?untouched
      shaped := ?shaped
      blamed := fun phase task command detail => leads.blamed names unbegun
      released := leads.released names
      quiet := List.perm_nil.mp (leads.flight (by simp)) }
    case untouched =>
      intro i g found passed
      obtain ⟨g', hg', -⟩ := exists_of_outline settled.outline found
      cases settled.fate i g' hg' with
      | untouched found' _ _ => exact hg'.trans (found'.symm.trans found)
      | carried carried =>
        obtain ⟨taken, -, -, -⟩ := carried
        exact absurd passed taken.not_passed
    case shaped =>
      intro i g found touched
      obtain ⟨after, hafter, hsame⟩ := exists_of_outline settled.outline found
      cases settled.fate i after hafter with
      | untouched _ passed _ => exact absurd passed touched
      | @carried before calls r carried =>
        obtain ⟨taken, seen, comes, told⟩ := carried
        have hfresh := taken.tasks_pending names unbegun
        obtain ⟨shape, hfits, hlost⟩ := comes.shape taken.pending hfresh
        -- the shape is that of the last try, since what came of an earlier one has been taken up again
        refine ⟨before, _, _, shape, taken, hafter, hsame, hfits, fun shape' hfits' => ?_,
          hfits.not_inProgress hfresh, fun hshape => ?_⟩
        · exact hfits.unique hfresh hfits'
        · obtain ⟨call, hmem, hcrashed⟩ := hlost hshape
          exact ⟨call, saw_of_log seen hmem, hcrashed⟩
  · intro report hrun
    obtain ⟨es, leads⟩ := run_leads h s w groups
    rw [hrun] at leads
    exact ⟨es, leads⟩

end Contained

theorem unbegun_lintAndBuild : Unbegun lintAndBuild := by
  simp [Unbegun, All, lintAndBuild, Task.new]

/-- Three groups are left in order by a host whose linter complains while another group is half through. The
run reports a command, and a group of the last batch has failed. -/
theorem run_contained_of_lint :
    (lintAndBuild.map (·.name)).Nodup ∧ Unbegun lintAndBuild ∧
      ∃ report es, Schedule.run (Bench.ofSettings Host.linting {})
          (RunSettings.effectiveBatchSize {}) { host := () } lintAndBuild = .ok report ∧
        Leads Host.linting {} (.fresh { host := () } lintAndBuild) es (.home report) ∧
        Contained Host.linting {} { host := () } lintAndBuild es report ∧
        (∃ (phase : Phase) (task command detail : String),
          report.error = some (phase.planError task command detail)) ∧
        ∃ (i : Nat) (g : TaskGroup), report.groups[i]? = some g ∧ g.status = .failed := by
  have hnames : (lintAndBuild.map (·.name)).Nodup := by decide
  obtain ⟨hall, hcome⟩ := run_contained hnames unbegun_lintAndBuild { host := () }
  obtain ⟨report, es, hrun, -⟩ := run_home_of_steady Host.linting_steady
  obtain ⟨es, leads⟩ := hcome report hrun
  have hcontained := hall es report leads
  have hverdict : Verdict lintReply (RunSettings.programs {}) lintAndBuild es report :=
    leads.verdict hnames Host.linting_steady fun _ _ => rfl
  obtain ⟨⟨phase, task, command, detail, herror⟩, -⟩ :=
    hverdict.failing acyclic_lintAndBuild fails_lintAndBuild
  obtain ⟨batch, i, g, t, call, -, -, hfound, hfailed, -⟩ :=
    hcontained.blamed phase task command detail herror
  exact ⟨hnames, unbegun_lintAndBuild, report, es, hrun, leads, hcontained,
    ⟨phase, task, command, detail, herror⟩, i, g, hfound, hfailed⟩

end Runbook.Interleaving
