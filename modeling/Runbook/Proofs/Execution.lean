import Runbook.Execution.Run
import Runbook.Proofs.ParsedGroups
import Runbook.Proofs.SerialRun

/-!
# A plan is carried out from top to bottom

The execution of a plan that has just been read runs the commands that prepare it and then the
commands of its tasks, in document order and one at a time, up to the first that fails; and its
groups, tasks and report come out accordingly (`Interpreted`, `execute_interpreted`). The settings,
the size of batches included, have no part in this, nor has how long commands take.

Nothing else that is done in between makes a call or takes time: the plan's text is written and
things are said.
-/

set_option autoImplicit false

namespace Runbook

/-- A task that is through. -/
def Task.completed (t : Task) : Task := { t with status := .completed }

open Interleaving

variable {σ : Type} {h : Host σ} {s : RunSettings} {w : World σ} {p : Plan}

/-! ## Tasks that nobody has begun -/

theorem Task.settled_of_fresh {t : Task} (fresh : t.Fresh) : t.settled = t.completed := by
  obtain ⟨hstatus, herror⟩ := fresh
  have hopen : t.isTerminal = false := by
    rw [Task.isTerminal, hstatus]
    rfl
  rw [Task.settled_of_open hopen, Task.completed, herror]

theorem openCommands_of_fresh {programs : List String} {tasks : List Task}
    (fresh : ∀ t ∈ tasks, t.Fresh) :
    openCommands programs tasks = tasks.flatMap (·.commands programs) := by
  have hall : (tasks.filter fun t => !t.isTerminal) = tasks := by
    refine List.filter_eq_self.mpr fun t ht => ?_
    rw [Task.isTerminal, (fresh t ht).1]
    rfl
  rw [openCommands, hall]

theorem map_settled_of_fresh {tasks : List Task} (fresh : ∀ t ∈ tasks, t.Fresh) :
    tasks.map Task.settled = tasks.map Task.completed :=
  List.map_congr_left fun t ht => Task.settled_of_fresh (fresh t ht)

theorem Call.not_succeeded {c : Call} {diagnostic : String}
    (why : c.answer.reply.diagnostic? = some diagnostic) : c.succeeded = false := by
  refine Bool.eq_false_iff.mpr fun hsucceeded => ?_
  rw [Reply.diagnostic?_of_succeeded hsucceeded] at why
  cases why

namespace Interleaving

section Ends

variable {programs : List String} {tasks left : List Task} {calls : List Call} {outcome : Outcome}
  (fresh : ∀ t ∈ tasks, t.Fresh) (ends : Ends programs false tasks calls ⟨left, outcome⟩)
  (through : outcome ≠ .cancelled)
include fresh ends through

/-- When all calls have succeeded, they are all there is to do. A worker stops for a call that has
failed or when it is called off, and neither has happened. -/
theorem ends_whole (fine : ∀ c ∈ calls, c.succeeded = true) :
    outcome = .completed ∧ calls.map (·.command) = tasks.flatMap (·.commands programs) ∧
      left = tasks.map Task.completed := by
  cases ends with
  | completed _ all =>
    rw [openCommands_of_fresh fresh] at all
    exact ⟨rfl, all, map_settled_of_fresh fresh⟩
  | failed _ split isOpen chores asked why =>
    have hlast := fine _ (List.mem_append_right _ List.mem_cons_self)
    rw [Call.not_succeeded why] at hlast
    cases hlast
  | calledOff | recalled => exact absurd rfl through

/-- A call that has failed is the last one, and has failed its task. The commands before it are those of
the tasks above and some first ones of the task itself. -/
theorem ends_failing {c : Call} (mem : c ∈ calls) (bad : c.succeeded = false) :
    (∃ e, outcome = .failed e) ∧ ∃ before t after part diagnostic, tasks = before ++ t :: after ∧
      calls.map (·.command) = before.flatMap (·.commands programs) ++ part ++ [c.command] ∧
      part ++ [c.command] <+: t.commands programs ∧
      c.answer.reply.diagnostic? = some diagnostic ∧
      left = before.map Task.completed ++ t.fail diagnostic :: after ∧ ∀ t' ∈ after, t'.Fresh := by
  cases ends with
  | completed fine all =>
    rw [fine c mem] at bad
    cases bad
  | @failed calls call done rest t behind ahead phase diagnostic fine split isOpen chores asked why =>
    -- the calls before the last one succeeded, so the bad one is the last
    have hcall : c = call := by
      rcases List.mem_append.mp mem with hc | hc
      · rw [fine c hc] at bad
        cases bad
      · exact List.mem_singleton.mp hc
    subst hcall
    have hdone : ∀ t' ∈ done, t'.Fresh := fun t' ht' => fresh t' (by rw [split]; simp [ht'])
    refine ⟨⟨_, rfl⟩, done, t, rest, behind.filterMap Act.command?, diagnostic, split, ?_, ?_, why,
      ?_, ?_⟩
    · rw [List.map_append, asked, openCommands_of_fresh hdone]
      rfl
    · rw [← Task.filterMap_chores, chores, List.filterMap_append]
      exact (List.prefix_append_right_inj _).mpr (List.prefix_append [_] _)
    · rw [map_settled_of_fresh hdone]
    · exact fun t' ht' => fresh t' (by rw [split]; simp [ht'])
  | calledOff | recalled => exact absurd rfl through

end Ends

end Interleaving

/-! ## Preparing a run -/

namespace Run

/-- The call that is made by preparing a run with a command. -/
def preparation (h : Host σ) (timeout : Nat) (w : World σ) (command : String) : Call :=
  ⟨none, command, timeout, w.clock,
    (h.run (w.say h [.detail ("  $ " ++ command)]).host command timeout).1⟩

theorem prepare_of_not_crashed {timeout : Nat} {command : String}
    (alive : ∀ message, (preparation h timeout w command).answer.reply ≠ .crashed message) :
    ∃ w', prepare h timeout w command = .ok w' ∧
      w'.calls = w.calls ++ [preparation h timeout w command] ∧
      w'.clock = (preparation h timeout w command).due := by
  simp only [prepare, World.call]
  split
  · split
    · exact ⟨_, rfl, rfl, rfl⟩
    · exact ⟨_, rfl, rfl, rfl⟩
  · exact ⟨_, rfl, rfl, rfl⟩
  · rename_i message hreply
    exact absurd hreply (alive message)

/-- A command that prepares a run may fail without any consequence but what is said of it. Only a host
that breaks down would end the run here. -/
theorem prepare_of_alive (alive : h.Alive) (timeout : Nat) (w : World σ) (command : String)
    {past : List Call} (apart : Apart past w.clock) :
    ∃ w' call, prepare h timeout w command = .ok w' ∧ w'.calls = w.calls ++ [call] ∧
      Apart (past ++ [call]) w'.clock ∧ call.command = command ∧ call.group = none ∧
      Answered h timeout call := by
  have hanswered : Answered h timeout (preparation h timeout w command) := ⟨rfl, _, rfl⟩
  obtain ⟨w', hprepare, hcalls, hclock⟩ :=
    prepare_of_not_crashed fun message => hanswered.not_crashed alive message
  refine ⟨w', _, hprepare, hcalls, ?_, rfl, rfl, hanswered⟩
  rw [hclock]
  exact @Apart.snoc past (preparation h timeout w command) _ apart (Nat.le_refl _)

theorem prepareEach_of_alive (alive : h.Alive) (timeout : Nat) (commands : List String)
    (w : World σ) {past : List Call} (apart : Apart past w.clock) :
    ∃ w' calls, commands.foldlM (prepare h timeout) w = .ok w' ∧ w'.calls = w.calls ++ calls ∧
      Apart (past ++ calls) w'.clock ∧ calls.map (·.command) = commands ∧
      ∀ c ∈ calls, c.group = none ∧ Answered h timeout c := by
  induction commands generalizing w past with
  | nil =>
    refine ⟨w, [], rfl, by simp, ?_, rfl, by simp⟩
    rw [List.append_nil]
    exact apart
  | cons command commands ih =>
    obtain ⟨w₁, call, hprepare, hcalls, hapart, rfl, hgroup, hanswered⟩ :=
      prepare_of_alive alive timeout w command apart
    obtain ⟨w₂, calls, hrest, hcalls', hapart', hcommands, hall⟩ := ih w₁ hapart
    refine ⟨w₂, call :: calls, ?_, ?_, ?_, by rw [List.map_cons, hcommands], ?_⟩
    · rw [List.foldlM_cons, hprepare]
      exact hrest
    · rw [hcalls', hcalls, List.append_assoc]
      rfl
    · rw [List.append_cons]
      exact hapart'
    · intro c hc
      rcases List.mem_cons.mp hc with rfl | hc
      · exact ⟨hgroup, hanswered⟩
      · exact hall c hc

/-- All commands that prepare a run are run, whatever comes of them. -/
theorem prepareAll_of_alive (alive : h.Alive) (timeout : Nat) (commands : List String)
    (w : World σ) :
    ∃ w' calls, prepareAll h timeout w commands = .ok w' ∧ w'.calls = w.calls ++ calls ∧
      Apart calls w'.clock ∧ calls.map (·.command) = commands ∧
      ∀ c ∈ calls, c.group = none ∧ Answered h timeout c := by
  unfold prepareAll
  split
  · rename_i hnone
    exact ⟨w, [], rfl, by simp, ⟨.nil, by simp⟩, hnone.symm, by simp⟩
  · have hnone : Apart [] (w.say h [.info "Loading context..."]).clock := ⟨.nil, by simp⟩
    exact prepareEach_of_alive alive timeout commands _ hnone

/-! ## Writing the plan -/

/-- Some plan and world come from others by writing: the groups, the commands that prepare a run and the
file are the same, and no call has been made. So for what a run does it is of no account when and how
often the plan is written. -/
structure Written (p p' : Plan) (w w' : World σ) : Prop where
  groups : p'.groups = p.groups
  context : p'.context = p.context
  path : p'.path = p.path
  calls : w'.calls = w.calls

theorem update_written (h : Host σ) (w : World σ) (p : Plan) (text : String) :
    Written p (update h w p text).2.1 w (update h w p text).2.2 := by
  unfold update
  split
  · exact ⟨rfl, rfl, rfl, rfl⟩
  · split
    · exact ⟨rfl, rfl, rfl, rfl⟩
    · split
      · rename_i hwrite
        rw [World.write, Prod.mk.injEq] at hwrite
        exact ⟨rfl, rfl, rfl, by rw [← hwrite.2]⟩
      · rename_i hwrite
        rw [World.write, Prod.mk.injEq] at hwrite
        exact ⟨rfl, rfl, rfl, by rw [← hwrite.2]⟩

theorem saveStatus_written (h : Host σ) (w : World σ) (p : Plan) (status : PlanStatus) :
    Written p (saveStatus h w p status).2.1 w (saveStatus h w p status).2.2 := by
  obtain ⟨hgroups, hcontext, hpath, hcalls⟩ :=
    update_written h w { p.withStatus status with text := p.text } (p.withStatus status).text
  exact ⟨hgroups, hcontext, hpath, hcalls⟩

theorem tickIfWanted_written (h : Host σ) (s : RunSettings) (w : World σ) (p : Plan) :
    Written p (tickIfWanted h s w p).1 w (tickIfWanted h s w p).2 := by
  have hwritten := update_written h w p p.withTicks.text
  unfold tickIfWanted
  split
  · split
    · rename_i hsave
      rw [saveTicks] at hsave
      rw [hsave] at hwritten
      exact hwritten
    · rename_i hsave
      rw [saveTicks] at hsave
      rw [hsave] at hwritten
      exact ⟨hwritten.groups, hwritten.context, hwritten.path, hwritten.calls⟩
  · exact ⟨rfl, rfl, rfl, rfl⟩

theorem update_of_no_path (h : Host σ) (w : World σ) {p : Plan} (text : String)
    (none : p.path = none) : ∃ changed, (update h w p text).1 = .ok changed := by
  unfold update
  split
  · exact ⟨false, rfl⟩
  · rw [none]
    exact ⟨true, rfl⟩

theorem saveStatus_of_no_path (h : Host σ) (w : World σ) {p : Plan} (status : PlanStatus)
    (none : p.path = none) : ∃ changed, (saveStatus h w p status).1 = .ok changed :=
  update_of_no_path h w (p := { p.withStatus status with text := p.text }) _ none

/-- The status that a run is given by how it came out. -/
def finalStatus (error : Option PlanError) : PlanStatus :=
  if error.isNone then .completed else .failed

/-- When the last status is written, what is reported is how the run came out. -/
theorem conclude_of_written {error : Option PlanError} {changed : Bool}
    (written : (saveStatus h w p (finalStatus error)).1 = .ok changed) :
    (conclude h w p error).plan.groups = p.groups ∧
      (conclude h w p error).report.error = error ∧
      (conclude h w p error).world.calls = w.calls := by
  have hframe := saveStatus_written h w p (finalStatus error)
  rw [finalStatus] at written hframe
  unfold conclude
  simp only
  split
  · rename_i hsave
    rw [hsave] at hframe
    exact ⟨hframe.groups, rfl, hframe.calls⟩
  · rename_i hsave
    rw [hsave] at written
    cases written

/-! ## The whole execution -/

/-- The world in which an execution begins: its name and what the plan is have been said. -/
def opening (h : Host σ) (w : World σ) (p : Plan) : World σ :=
  w.say h [.info ("Starting execution of plan: " ++ p.name), .detail p.summary]

/-- The status is written without fail, before the run and after it. It is asked of these two writes and
of no others: whether the ticks can be written has no part in what is reported. -/
def StatusWritten (h : Host σ) (s : RunSettings) (w : World σ) (p : Plan) : Prop :=
  ∃ changed p' w', saveStatus h (opening h w p) p .inProgress = (.ok changed, p', w') ∧
    ∀ report, carryOut h s w' p' = .ok report →
      ∃ changed, (saveStatus h
        (tickIfWanted h s report.world { p' with groups := report.groups }).2
        (tickIfWanted h s report.world { p' with groups := report.groups }).1
        (finalStatus report.error)).1 = .ok changed

theorem statusWritten_of_no_path (h : Host σ) (s : RunSettings) (w : World σ) {p : Plan}
    (none : p.path = none) : StatusWritten h s w p := by
  obtain ⟨changed, hfirst⟩ := saveStatus_of_no_path h (opening h w p) .inProgress none
  have hframe := saveStatus_written h (opening h w p) p .inProgress
  refine ⟨changed, _, _, Prod.ext hfirst rfl, fun report _ => ?_⟩
  refine saveStatus_of_no_path h _ _ ?_
  rw [(tickIfWanted_written h s report.world _).path]
  exact hframe.path.trans none

/-- How an execution ends: steps are ticked, if that is wanted, and the final status is written. -/
def closing (h : Host σ) (s : RunSettings) (w : World σ) (p : Plan) (error : Option PlanError) :
    Result σ :=
  conclude h (tickIfWanted h s w p).2 (tickIfWanted h s w p).1 error

section First

variable {p' : Plan} {w' : World σ}

/-- When the status cannot be written, nothing is carried out. The run is closed all the same, and the
refusal is what it reports. -/
theorem execute_of_refused {e : PlanError}
    (first : saveStatus h (opening h w p) p .inProgress = (.error e, p', w')) :
    execute h s false w p = .ok (closing h s (w'.say h [statusNotWritten e]) p' (some e)) := by
  rw [opening] at first
  simp only [execute, first]
  rfl

/-- What has been carried out is closed with the groups that came of it. -/
theorem execute_of_carried {changed : Bool} {report : Schedule.Report σ}
    (first : saveStatus h (opening h w p) p .inProgress = (.ok changed, p', w'))
    (carried : carryOut h s w' p' = .ok report) :
    execute h s false w p =
      .ok (closing h s report.world { p' with groups := report.groups } report.error) := by
  rw [opening] at first
  simp only [execute, first, carried, Except.map]
  rfl

end First

theorem execute_of_written {p' : Plan} {w' : World σ} {changed : Bool}
    {report : Schedule.Report σ}
    (first : saveStatus h (opening h w p) p .inProgress = (.ok changed, p', w'))
    (carried : carryOut h s w' p' = .ok report)
    (last : ∃ changed, (saveStatus h
      (tickIfWanted h s report.world { p' with groups := report.groups }).2
      (tickIfWanted h s report.world { p' with groups := report.groups }).1
      (finalStatus report.error)).1 = .ok changed) :
    ∃ r, execute h s false w p = .ok r ∧ r.plan.groups = report.groups ∧
      r.report.error = report.error ∧ r.world.calls = report.world.calls := by
  obtain ⟨changed', hlast⟩ := last
  have hticked := tickIfWanted_written h s report.world { p' with groups := report.groups }
  obtain ⟨hgroups, herror, hcalls⟩ := conclude_of_written hlast
  exact ⟨_, execute_of_carried first carried, hgroups.trans hticked.groups, herror,
    hcalls.trans hticked.calls⟩

theorem pending_chained {groups : List TaskGroup} (fresh : Plan.Fresh groups) :
    ∀ g ∈ Dependency.chained groups, g.status = .pending := by
  intro g hg
  have hmem : g.status ∈ (Dependency.chained groups).map (·.status) := List.mem_map_of_mem hg
  rw [Dependency.map_chained (·.status) fun _ _ => rfl] at hmem
  obtain ⟨g', hg', hsame⟩ := List.mem_map.mp hmem
  rw [← hsame]
  exact (fresh.groups g' hg').pending

theorem tasks_chained (groups : List TaskGroup) :
    (Dependency.chained groups).flatMap (·.tasks) = groups.flatMap (·.tasks) := by
  rw [List.flatMap_def, List.flatMap_def, Dependency.map_chained (·.tasks) fun _ _ => rfl]

theorem carryOut_of_fresh (steady : h.Steady) (s : RunSettings) (w : World σ)
    (fresh : Plan.Fresh p.groups) :
    ∃ report prepared carried, carryOut h s w p = .ok report ∧
      report.world.calls = w.calls ++ prepared ++ carried ∧
      Apart (prepared ++ carried) report.world.clock ∧
      prepared.map (·.command) = p.context ∧
      (∀ c ∈ prepared, c.group = none ∧ Answered h s.contextMillis c) ∧
      (∀ c ∈ carried, Answered h s.commandMillis c) ∧
      Serial s.programs (Dependency.chained p.groups) carried report.groups report.error := by
  obtain ⟨w', prepared, hprepare, hcalls, hapart, hcommands, hanswered⟩ :=
    prepareAll_of_alive steady.alive s.contextMillis p.context w
  have hlinked := Dependency.linked_chained fun g hg => (fresh.groups g hg).free
  have hnames := fresh.names
  rw [← Dependency.map_chained (·.name) fun _ _ => rfl] at hnames
  have hsize : 0 < s.effectiveBatchSize :=
    Nat.lt_of_lt_of_le Nat.zero_lt_one (Nat.le_max_right _ _)
  obtain ⟨report, carried, hrun, hcalls', hapart', hanswered', hserial⟩ :=
    run_serial (s := s) steady hsize hlinked hnames (pending_chained fresh) hapart
  refine ⟨report, prepared, carried, ?_, ?_, hapart', hcommands, hanswered, hanswered', hserial⟩
  · rw [carryOut, hprepare]
    exact hrun
  · rw [hcalls', hcalls]

/-! ## The plain interpretation -/

/-- The plain interpretation of a plan: with the calls that prepare it and those that carry it out. It
speaks of what a user wrote and of what the host answered, and of nothing that the scheduler does in
between. -/
structure Interpreted (h : Host σ) (s : RunSettings) (w : World σ) (p : Plan) (r : Result σ)
    (prepared carried : List Call) : Prop where
  /-- No other call is made. -/
  calls : r.world.calls = w.calls ++ prepared ++ carried
  /-- No two calls overlap. -/
  apart : (prepared ++ carried).Pairwise fun a b => a.due ≤ b.start
  /-- Every command that prepares the run is run, whatever comes of it. -/
  context : prepared.map (·.command) = p.context
  contextAnswered : ∀ c ∈ prepared, c.group = none ∧ Answered h s.contextMillis c
  /-- Then the first commands of the tasks are run, up to one that fails. -/
  commands : carried.map (·.command) <+: p.tasks.flatMap (·.commands s.programs)
  answered : ∀ c ∈ carried, Answered h s.commandMillis c
  cut : ∀ c ∈ carried.dropLast, c.succeeded = true
  /-- When none fails, all are run, and all tasks and groups are completed. -/
  whole : (∀ c ∈ carried, c.succeeded = true) →
    carried.map (·.command) = p.tasks.flatMap (·.commands s.programs) ∧
      r.plan.tasks = p.tasks.map Task.completed ∧ ∀ g ∈ r.plan.groups, g.status = .completed
  /-- When one fails, it is one of a task which has failed with the diagnostic of the command. The
  tasks before it have been completed and those behind it have not been touched; and likewise
  groups. -/
  failing : ∀ c ∈ carried, c.succeeded = false →
    (∃ before t after part diagnostic, p.tasks = before ++ t :: after ∧
      carried.map (·.command) =
        before.flatMap (·.commands s.programs) ++ part ++ [c.command] ∧
      part ++ [c.command] <+: t.commands s.programs ∧
      c.answer.reply.diagnostic? = some diagnostic ∧
      r.plan.tasks = before.map Task.completed ++ t.fail diagnostic :: after ∧
      ∀ t' ∈ after, t'.Fresh) ∧
    ∃ before g after, r.plan.groups = before ++ g :: after ∧
      (∀ x ∈ before, x.status = .completed) ∧ g.status = .failed ∧
        ∀ x ∈ after, x.status = .pending
  /-- The run is a success if no command has failed. -/
  success : r.report.succeeded = true ↔ ∀ c ∈ carried, c.succeeded = true
  /-- Only tasks and statuses of groups change. -/
  outline : r.plan.groups.map (·.outline) = (Dependency.chained p.groups).map (·.outline)

/-- From the calls of a serial run to the plain interpretation: there are two cases, a call has failed
or none has, and each settles the groups, the tasks and the report. -/
theorem interpreted_of_serial {r : Result σ} {prepared carried : List Call}
    (fresh : Plan.Fresh p.groups)
    (calls : r.world.calls = w.calls ++ prepared ++ carried)
    (apart : (prepared ++ carried).Pairwise fun a b => a.due ≤ b.start)
    (context : prepared.map (·.command) = p.context)
    (contextAnswered : ∀ c ∈ prepared, c.group = none ∧ Answered h s.contextMillis c)
    (answered : ∀ c ∈ carried, Answered h s.commandMillis c)
    (serial : Serial s.programs (Dependency.chained p.groups) carried r.plan.groups
      r.report.error) :
    Interpreted h s w p r prepared carried := by
  have hfresh : ∀ t ∈ p.tasks, t.Fresh := by
    intro t ht
    obtain ⟨g, hg, htask⟩ := List.mem_flatMap.mp ht
    exact (fresh.groups g hg).tasks t htask
  obtain ⟨houtline, hstatus⟩ := serial.statuses (pending_chained fresh)
  obtain ⟨outcome, through, herror, hends⟩ := serial.ends
  rw [tasks_chained] at hends
  -- a chain keeps the order of the groups, so its tasks are those of the plan
  have ends : Ends s.programs false p.tasks carried ⟨r.plan.tasks, outcome⟩ := hends
  obtain ⟨hcut, hprefix⟩ := ends.inTurn
  rw [openCommands_of_fresh hfresh] at hprefix
  refine { calls, apart, context, contextAnswered, answered, commands := hprefix, cut := hcut,
           outline := houtline, whole := ?whole, failing := ?failing, success := ?success }
  case whole =>
    intro fine
    obtain ⟨rfl, hall, htasks⟩ := ends_whole hfresh ends through fine
    refine ⟨hall, htasks, ?_⟩
    rcases hstatus with ⟨-, hcompleted⟩ | ⟨hsome, -⟩
    · exact hcompleted
    · rw [← herror] at hsome
      cases hsome
  case failing =>
    intro c mem bad
    obtain ⟨⟨e, rfl⟩, htask⟩ := ends_failing hfresh ends through mem bad
    refine ⟨htask, ?_⟩
    rcases hstatus with ⟨hnone, -⟩ | ⟨-, hgroups⟩
    · rw [← herror] at hnone
      cases hnone
    · exact hgroups
  case success =>
    constructor
    · intro success
      cases outcome with
      | completed => exact ends.fine_of_completed.1
      | failed e =>
        rw [RunReport.succeeded, ← herror] at success
        cases success
      | cancelled => exact absurd rfl through
    · intro fine
      obtain ⟨rfl, -, -⟩ := ends_whole hfresh ends through fine
      rw [RunReport.succeeded, ← herror]
      rfl

/-- The execution of a plan that has just been read, on a steady host, comes home with what the plain
interpretation gives, when the status is written without fail. -/
theorem execute_interpreted {text : String} (path : Option String)
    (parsed : Plan.parse text = .ok p) (steady : h.Steady)
    (written : path = none ∨ StatusWritten h s w { p with path }) :
    ∃ r prepared carried, execute h s false w { p with path } = .ok r ∧
      Interpreted h s w { p with path } r prepared carried := by
  have hfresh := Plan.parse_fresh parsed
  have hwritten : StatusWritten h s w { p with path } :=
    written.elim (fun hnone => statusWritten_of_no_path h s w hnone) id
  -- the plan and the world that the groups start from differ from the given ones only in the status
  obtain ⟨changed, p', w', hfirst, hlast⟩ := hwritten
  have hopened := saveStatus_written h (opening h w { p with path }) { p with path } .inProgress
  rw [hfirst] at hopened
  have hgroups : p'.groups = p.groups := hopened.groups
  have hcontext : p'.context = p.context := hopened.context
  have hopening : w'.calls = w.calls := hopened.calls
  obtain ⟨report, prepared, carried, hcarry, hcalls, hapart, hcommands, hprepared, hanswered,
    hserial⟩ := carryOut_of_fresh (p := p') steady s w' (hgroups ▸ hfresh)
  obtain ⟨r, hexecute, hplan, herror, hworld⟩ :=
    execute_of_written hfirst hcarry (hlast report hcarry)
  refine ⟨r, prepared, carried, hexecute, ?_⟩
  rw [hgroups, ← hplan, ← herror] at hserial
  exact interpreted_of_serial hfresh (by rw [hworld, hcalls, hopening]) hapart.inTurn
    (hcommands.trans hcontext) hprepared hanswered hserial

/-! ## A small plan -/

/-- The text of a plan with one task. -/
def smallText : String :=
  "# Plan\n## Tasks\n### Build\n#### Task 1: Compile\n**Steps:**\n1. [ ] $ make\n"

def smallPlan : Plan where
  text := smallText
  groups := [TaskGroup.new "General", { TaskGroup.new "Build" with
    tasks := [{ Task.new 1 "Compile" with steps := ["$ make"], stepLines := [5] }] }]

theorem parse_smallText : Plan.parse smallText = .ok smallPlan :=
  Plan.parse_of_toOption (by decide +kernel)

/-- The small plan is carried out plainly on a host on which everything succeeds. -/
theorem execute_interpreted_of_small :
    Plan.parse smallText = .ok smallPlan ∧ Host.obliging.Steady ∧
      ((none : Option String) = none ∨
        StatusWritten Host.obliging {} { host := () } { smallPlan with path := none }) ∧
      ∃ r prepared carried,
        execute Host.obliging {} false { host := () } { smallPlan with path := none } = .ok r ∧
          Interpreted Host.obliging {} { host := () } { smallPlan with path := none } r prepared
            carried :=
  ⟨parse_smallText, Host.obliging_steady, .inl rfl,
    execute_interpreted none parse_smallText Host.obliging_steady (.inl rfl)⟩

end Run

end Runbook
