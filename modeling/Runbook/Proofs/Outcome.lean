import Runbook.Proofs.CallsInFlight
import Runbook.Proofs.Cycle
import Runbook.Proofs.SteadyHost

/-!
# How a run comes out

When the host replies to a command by its text alone, it can be said beforehand which groups are
completed: those that had been, and those whose commands all succeed and whose dependencies are
among them (`Reached`). Neither the size of batches nor the order of events has a part in this.

A run that comes home has one of four outcomes (`Verdict`): a cycle is refused, the failure of a
command is reported when there is a group that is reached by all it waits for and fails, and
otherwise exactly the groups that are reached have been completed, and the others are listed if
there are any.
-/

set_option autoImplicit false

namespace Runbook

variable {σ : Type}

/-- The host replies to a command by its text alone, whatever it remembers. How long that takes is left
open, so that the order of events is left open too. -/
def Host.Replies (h : Host σ) (millis : Nat) (reply : String → Reply) : Prop :=
  ∀ memory command, (h.run memory command millis).1.reply = reply command

def TaskGroup.Good (reply : String → Reply) (programs : List String) (g : TaskGroup) : Prop :=
  ∀ command ∈ g.commands programs, (reply command).succeeded = true

/-- The names of the groups that can be completed: the least set that has the completed ones, and each
group still to do whose commands succeed once it has all that the group waits for. Groups still to do
that wait for each other are never in it, nor are those that wait for a name that no group has. -/
inductive Reached (reply : String → Reply) (programs : List String) (groups : List TaskGroup) :
    String → Prop
  | done {g : TaskGroup} (mem : g ∈ groups) (completed : g.status = .completed) :
    Reached reply programs groups g.name
  | carried {g : TaskGroup} (mem : g ∈ groups) (pending : g.status = .pending)
    (good : g.Good reply programs)
    (reached : ∀ name ∈ g.dependencies, Reached reply programs groups name) :
    Reached reply programs groups g.name

/-- Some group is still to do, waits only for what can be completed, and has a command that fails. A
failing group that can never be taken up does not count. -/
def Fails (reply : String → Reply) (programs : List String) (groups : List TaskGroup) : Prop :=
  ∃ g ∈ groups, g.status = .pending ∧ ¬ g.Good reply programs ∧
    ∀ name ∈ g.dependencies, Reached reply programs groups name

namespace Interleaving

open Schedule (IsCompleted)

variable {h : Host σ} {s : RunSettings} {w : World σ} {groups now : List TaskGroup}
  {es since : List Event} {c : Config σ} {place : Nat} {before g : TaskGroup}
  {calls : List Call} {r : Result} {stopped : Bool} {reply : String → Reply}
  {completed : List String}

/-! ## Only what is reached is completed -/

/-- A worker holds a group whose dependencies had all been completed by a moment before the group was
taken up. That moment has fewer events, which is what the induction below goes by. -/
theorem Taken.awaited (names : (groups.map (·.name)).Nodup)
    (taken : Taken h s w groups place before es since) :
    ∃ (past : List Event) (c : Config σ), past.length < es.length ∧
      Leads h s (.fresh w groups) past c ∧ (∀ message, c ≠ .lost message) ∧
      ∀ name ∈ before.dependencies, IsCompleted c.groups name := by
  obtain ⟨leads, first, inBatch, found, last⟩ := taken
  refine ⟨_, _, by simp, leads, by simp, fun name hname => ?_⟩
  subst first
  obtain ⟨g, hg, -, hready⟩ := Dependency.mem_ready.mp (List.mem_of_mem_take inBatch)
  rw [found, Option.some.injEq] at hg
  subst hg
  have knows : Knows _ _ := leads.ledger names
  rw [TaskGroup.isReady, List.all_eq_true] at hready
  exact (knows.mem name).mp (by simpa using hready name hname)

section Replies

variable (names : (groups.map (·.name)).Nodup) (steady : h.Steady)
  (replies : h.Replies s.commandMillis reply)
include replies

theorem Answered.reply_eq {call : Call} (answered : Answered h s.commandMillis call) :
    call.answer.reply = reply call.command := by
  obtain ⟨-, memory, hanswer⟩ := answered
  rw [hanswer]
  exact replies memory call.command

/-- A group all of whose commands have been called with success is good, since another call of the same
command would get the same reply. -/
theorem Carried.good (leads : Leads h s (.fresh w groups) es c)
    (carried : Carried h s w groups stopped place es before calls r)
    (fine : ∀ call ∈ calls, call.succeeded = true)
    (all : calls.map (·.command) = before.commands s.programs) :
    before.Good reply s.programs := by
  intro command hcommand
  rw [← all] at hcommand
  obtain ⟨call, hcall, rfl⟩ := List.mem_map.mp hcommand
  rw [← (leads.answered (carried.began hcall).1).reply_eq replies]
  exact fine call hcall

include names steady

/-- At every moment only groups that are reached have been completed. The induction is on the number of
events: what a group waits for had been completed before it was taken up. -/
theorem Leads.reached_of_completed (leads : Leads h s (.fresh w groups) es c)
    {name : String} (done : IsCompleted c.groups name) :
    Reached reply s.programs groups name := by
  -- on the number of events: what a group waited for was complete in a shorter run
  induction hn : es.length using Nat.strongRecOn generalizing es c name with
  | ind n ih =>
    obtain ⟨g, hg, hstatus, rfl⟩ := done
    obtain ⟨i, hi⟩ := List.mem_iff_getElem?.mp hg
    obtain ⟨-, hstanding⟩ := leads.standing names (leads.not_lost_of_alive steady.alive)
    rcases hstanding i g hi with ⟨stopped, fate⟩ | ⟨stopped, since, p, taken, progress⟩
    · cases fate with
      | untouched found passed quiet => exact .done (List.mem_of_getElem? found) hstatus
      | @carried before calls r carried =>
        rw [TaskGroup.name_eq_of_outline carried.outline]
        obtain ⟨taken, seen, comes, told⟩ := id carried
        obtain ⟨hfine, hall⟩ := comes.all_of_completed taken.pending hstatus
        obtain ⟨past, c', hshorter, hpast, -, hawaited⟩ := taken.awaited names
        refine .carried (List.mem_of_getElem? (taken.first names steady).1) taken.pending
          (carried.good replies leads hfine hall) fun name hname => ?_
        exact ih past.length (hn ▸ hshorter) hpast (hawaited name hname) rfl
    · rw [taken.pending] at hstatus
      cases hstatus

theorem Taken.reached (taken : Taken h s w groups place before es since) :
    ∀ name ∈ before.dependencies, Reached reply s.programs groups name := by
  obtain ⟨past, c', -, hpast, -, hawaited⟩ := taken.awaited names
  exact fun name hname => hpast.reached_of_completed names steady replies (hawaited name hname)

/-! ## All that is reached is completed -/

section Idle

variable {left : Nat} {w' : World σ}
  (leads : Leads h s (.fresh w groups) es (.between left w' now completed))
  (idle : Dependency.ready now completed = [])
include leads idle

/-- Between batches, when no group is ready, a group for which all it waits for has been completed has
been completed itself, and its commands have succeeded. Were it still to do, it would be ready. -/
theorem carried_of_idle (mem : g ∈ groups) (pending : g.status = .pending)
    (awaited : ∀ name ∈ g.dependencies, IsCompleted now name) :
    IsCompleted now g.name ∧ g.Good reply s.programs := by
  have settled : Settled h s w groups false es now := leads.account names
  have knows : Knows now completed := leads.ledger names
  obtain ⟨i, hi⟩ := List.mem_iff_getElem?.mp mem
  obtain ⟨g', hg', hsame⟩ := exists_of_outline settled.outline hi
  cases settled.fate i g' hg' with
  | untouched found passed quiet =>
    rw [hi, Option.some.injEq] at found
    subst found
    -- a group nobody has taken would be ready here, against the idle agenda
    have hready : g.isReady completed = true := by
      rw [TaskGroup.isReady, List.all_eq_true]
      intro name hname
      simpa using (knows.mem name).mpr (awaited name hname)
    have hmem := Dependency.mem_ready.mpr ⟨g, hg', pending, hready⟩
    rw [idle] at hmem
    cases hmem
  | @carried before calls r carried =>
    obtain ⟨taken, -, -, -⟩ := id carried
    obtain ⟨hfound, -⟩ := taken.first names steady
    rw [hi, Option.some.injEq] at hfound
    subst hfound
    obtain ⟨hfine, hall, hback⟩ := carried.completed steady leads
    refine ⟨⟨_, List.mem_of_getElem? hg', by rw [hback], ?_⟩,
      carried.good replies leads hfine hall⟩
    exact TaskGroup.name_eq_of_outline carried.outline

/-- When no group is ready any more, all that is reached has been completed. The induction is on why a
group is reached. -/
theorem completed_of_reached {name : String} (reached : Reached reply s.programs groups name) :
    IsCompleted now name := by
  induction reached with
  | @done g mem status =>
    have hstart : IsCompleted (Config.groups (.fresh w groups)) g.name := ⟨g, mem, status, rfl⟩
    exact IsCompleted.stays names .refl leads (by simp) hstart
  | carried mem pending good reached ih =>
    exact (carried_of_idle names steady replies leads idle mem pending ih).1

/-- When a run gets this far no group can fail: it would have been taken up, and its failure would have
ended the run. -/
theorem not_fails_of_idle : ¬ Fails reply s.programs groups := by
  rintro ⟨g, mem, pending, bad, reached⟩
  refine bad (carried_of_idle names steady replies leads idle mem pending fun name hname => ?_).2
  exact completed_of_reached names steady replies leads idle (reached name hname)

end Idle

/-- When a batch fails there is a group that fails, and what is reported is the failure of a
command. -/
theorem Handled.fails {crew : Crew σ} {batch : List Nat} {hands : List Hand} {e : PlanError}
    (leads : Leads h s (.fresh w groups) es c)
    (handled : Handled h s w groups es crew batch hands) (error : crew.error = some e) :
    Fails reply s.programs groups ∧
      ∃ (phase : Phase) (task command detail : String),
        e = phase.planError task command detail := by
  obtain ⟨i, before, calls, r, -, -, -, carried, failure⟩ := handled.blame e error
  -- of the ways a worker comes home, only a failed command brings this error
  obtain ⟨taken, seen, comes, told⟩ := id carried
  have hfound := (taken.first names steady).1
  have hreached := taken.reached names steady replies
  cases comes with
  | declined off => cases failure
  | @died calls call message fine asked why =>
    have hlast := leads.answered (carried.began (List.mem_append_right _ List.mem_cons_self)).1
    exact absurd why (hlast.not_crashed steady.alive _)
  | @ended calls ending ends =>
    cases ends with
    | completed fine all => cases failure
    | calledOff off fine asked back | recalled fine asked why back => cases failure
    | @failed calls call done rest t behind ahead phase diagnostic fine split isOpen chores asked
        why =>
      refine ⟨⟨before, List.mem_of_getElem? hfound, taken.pending, fun hgood => ?_, hreached⟩,
        phase, t.name, call.command, diagnostic, (Option.some.inj failure).symm⟩
      have hcommand : call.command ∈ before.commands s.programs := by
        refine (Asked.At.mk split isOpen chores).isPrefix.subset ?_
        exact List.mem_append_right _ List.mem_cons_self
      have hlast := leads.answered (carried.began (List.mem_append_right _ List.mem_cons_self)).1
      have hgood := hgood _ hcommand
      rw [← hlast.reply_eq replies] at hgood
      rw [Reply.diagnostic?_of_succeeded hgood] at why
      cases why

end Replies

/-! ## The outcome -/

/-- What is left of the check for cycles at a moment of a run: none has been made, or no cycle was
found. -/
def Accepted (groups : List TaskGroup) (es : List Event) : Config σ → Prop
  | .fresh _ now => now = groups ∧ es = []
  | .between _ _ _ _ | .within _ _ _ _ _ => Dependency.cycle? groups = none
  | .home _ | .lost _ => True

theorem Leads.accepted (leads : Leads h s (.fresh w groups) es c) : Accepted groups es c := by
  induction leads with
  | refl => exact ⟨rfl, rfl⟩
  | step leads next ih =>
    cases next with
    | refuse | finish | tire | starve | lose | abort => trivial
    | accept acyclic =>
      obtain ⟨hsame, -⟩ := ih
      rw [hsame] at acyclic
      exact acyclic
    | take | work | notice | pass | next => exact ih

theorem Knows.idle_of_all (knows : Knows now completed) (names : (now.map (·.name)).Nodup)
    (all : now.length ≤ completed.length) :
    Dependency.ready now completed = [] ∧ ∀ g ∈ now, g.status = .completed := by
  have hlength := Schedule.length_of_completed names knows.sorted knows.mem
  have hall : ∀ g ∈ now, g.status = .completed := by
    have hfilter : (now.filter (·.status == .completed)).length = now.length :=
      Nat.le_antisymm (List.length_filter_le _ _) (hlength ▸ all)
    intro g hg
    simpa using List.length_filter_eq_length_iff.mp hfilter g hg
  refine ⟨List.eq_nil_iff_forall_not_mem.mpr fun i hi => ?_, hall⟩
  obtain ⟨g, hg, hpending, -⟩ := Dependency.mem_ready.mp hi
  rw [hall g (List.mem_of_getElem? hg)] at hpending
  cases hpending

/-- The names of the groups that have not been completed are those of some of the groups, in order,
as they were at the beginning. -/
theorem names_not_completed (outline : now.map (·.outline) = groups.map (·.outline)) :
    (now.filter fun g => !completed.contains g.name).map (·.name) =
      (groups.filter fun g => !completed.contains g.name).map (·.name) := by
  have hnames := congrArg (List.filter fun name => !completed.contains name)
    (names_of_outline outline)
  simpa [List.filter_map, Function.comp_def] using hnames

/-- How a run comes out that leaves a report behind. A failure, where there can be one, is certain to be
met: batches may differ, but no order of events gets round a failing group that is reached. -/
structure Verdict (reply : String → Reply) (programs : List String) (groups : List TaskGroup)
    (es : List Event) (report : Schedule.Report σ) : Prop where
  /-- A cycle is refused, and no command runs. -/
  cyclic : Dependency.Cyclic groups →
    (∃ detail, report.error = some (.circularDependency detail)) ∧ begun es = []
  /-- When some group fails, a failed command is reported, and only groups that are reached have
  been completed. -/
  failing : ¬ Dependency.Cyclic groups → Fails reply programs groups →
    (∃ (phase : Phase) (task command detail : String),
      report.error = some (phase.planError task command detail)) ∧
    ∀ name, IsCompleted report.groups name → Reached reply programs groups name
  /-- Otherwise exactly the groups that are reached have been completed. -/
  well : ¬ Dependency.Cyclic groups → ¬ Fails reply programs groups →
    ∀ name, IsCompleted report.groups name ↔ Reached reply programs groups name
  /-- The run ends well when these are all groups. -/
  complete : ¬ Dependency.Cyclic groups → ¬ Fails reply programs groups →
    (∀ g ∈ groups, Reached reply programs groups g.name) → report.error = none
  /-- Otherwise the names of the others are reported, in document order. -/
  unmet : ¬ Dependency.Cyclic groups → ¬ Fails reply programs groups →
    (∃ g ∈ groups, ¬ Reached reply programs groups g.name) →
    ∃ others : List TaskGroup, others.Sublist groups ∧
      (∀ g ∈ groups, g ∈ others ↔ ¬ Reached reply programs groups g.name) ∧
      report.error = some (.unmetDependency (others.map (·.name)))

section Verdict

variable (names : (groups.map (·.name)).Nodup) (steady : h.Steady)
  (replies : h.Replies s.commandMillis reply)
include names steady replies

/-- The verdict between batches when no group is ready, given what is reported. -/
theorem Leads.verdict_of_idle {left : Nat} {w' : World σ} {report : Schedule.Report σ}
    (leads : Leads h s (.fresh w groups) es (.between left w' now completed))
    (idle : Dependency.ready now completed = []) (same : report.groups = now)
    (complete : (∀ g ∈ groups, IsCompleted now g.name) → report.error = none)
    (unmet : (∃ g ∈ groups, ¬ IsCompleted now g.name) →
      report.error = some (.unmetDependency
        ((groups.filter fun g => !completed.contains g.name).map (·.name)))) :
    Verdict reply s.programs groups es report := by
  have hacyclic : ¬ Dependency.Cyclic groups :=
    (Dependency.cycle?_eq_none_iff names).mp leads.accepted
  have hfails := not_fails_of_idle names steady replies leads idle
  have knows : Knows now completed := leads.ledger names
  have hiff : ∀ name, IsCompleted now name ↔ Reached reply s.programs groups name := fun name =>
    ⟨leads.reached_of_completed names steady replies,
      completed_of_reached names steady replies leads idle⟩
  -- the run has got past the check for cycles, and with no group ready none can have failed
  refine {
    cyclic := fun hc => absurd hc hacyclic
    failing := fun _ hf => absurd hf hfails
    well := ?well
    complete := ?complete
    unmet := ?unmet }
  case well =>
    intro _ _ name
    rw [same]
    exact hiff name
  case complete =>
    intro _ _ hall
    exact complete fun g hg => (hiff g.name).mpr (hall g hg)
  case unmet =>
    rintro - - ⟨g, hg, hnot⟩
    refine ⟨_, List.filter_sublist, fun g' hg' => ?_, unmet ⟨g, hg, fun hd => hnot ((hiff _).mp hd)⟩⟩
    rw [← hiff, ← knows.mem]
    simp [hg']

/-- A run that comes home by any of its ways has the outcome that is said beforehand. The ways are those
of the scheduler: a cycle, a failure, nothing left to do, or nothing that is ready. -/
theorem Leads.verdict {report : Schedule.Report σ}
    (leads : Leads h s (.fresh w groups) es (.home report)) :
    Verdict reply s.programs groups es report := by
  have hreached : ∀ name, IsCompleted report.groups name → Reached reply s.programs groups name :=
    fun _ => leads.reached_of_completed names steady replies
  cases leads with
  | @step es es' c' _ before next =>
    cases next with
    | @refuse w' now path cycle =>
      obtain ⟨rfl, rfl⟩ := before.accepted
      have hcyclic : Dependency.Cyclic now := by
        refine Classical.byContradiction fun hacyclic => ?_
        rw [(Dependency.cycle?_eq_none_iff names).mpr hacyclic] at cycle
        cases cycle
      exact {
        cyclic := fun _ => ⟨⟨_, rfl⟩, rfl⟩
        failing := fun hnot => absurd hcyclic hnot
        well := fun hnot => absurd hcyclic hnot
        complete := fun hnot => absurd hcyclic hnot
        unmet := fun hnot => absurd hcyclic hnot }
    | @finish left w' now completed all =>
      have settled : Settled h s w groups false es now := before.account names
      have knows : Knows now completed := before.ledger names
      have hnames := names
      rw [← names_of_outline settled.outline] at hnames
      obtain ⟨idle, hall⟩ := knows.idle_of_all hnames all
      rw [List.append_nil]
      refine before.verdict_of_idle names steady replies idle rfl (fun _ => rfl) ?_
      rintro ⟨g, hg, hnot⟩
      obtain ⟨i, hi⟩ := List.mem_iff_getElem?.mp hg
      obtain ⟨g', hg', hsame⟩ := exists_of_outline settled.outline hi
      have hmem := List.mem_of_getElem? hg'
      exact absurd ⟨g', hmem, hall g' hmem, TaskGroup.name_eq_of_outline hsame⟩ hnot
    | @tire w' now completed unfinished =>
      -- every round has completed a group, so the rounds are not used up before the groups
      have settled : Settled h s w groups false es now := before.account names
      have hall := before.not_tired names steady
      have hlength := length_of_outline settled.outline
      omega
    | @starve left w' now completed unfinished idle =>
      have settled : Settled h s w groups false es now := before.account names
      have knows : Knows now completed := before.ledger names
      rw [List.append_nil]
      refine before.verdict_of_idle names steady replies idle rfl (fun hall => ?_) fun _ => ?_
      · have hsubset : groups.map (·.name) ⊆ completed := by
          intro name hname
          obtain ⟨g, hg, rfl⟩ := List.mem_map.mp hname
          exact (knows.mem _).mpr (hall g hg)
        have hle := names.length_le_of_subset hsubset
        have hlength := length_of_outline settled.outline
        rw [List.length_map] at hle
        omega
      · rw [← names_not_completed settled.outline]
        rfl
    | @abort left crew completed batch e error =>
      have handled : Handled h s w groups es crew batch [] := before.account names
      have hacyclic : ¬ Dependency.Cyclic groups :=
        (Dependency.cycle?_eq_none_iff names).mp before.accepted
      obtain ⟨hfails, phase, task, command, detail, he⟩ :=
        handled.fails names steady replies before error
      rw [he] at error
      exact {
        cyclic := fun hc => absurd hc hacyclic
        failing := fun _ _ => ⟨⟨phase, task, command, detail, error⟩, hreached⟩
        well := fun _ hnot => absurd hfails hnot
        complete := fun _ hnot => absurd hfails hnot
        unmet := fun _ hnot => absurd hfails hnot }

/-- Whatever the size of batches and the order of events, a run that comes home comes out as is said
beforehand; and what is carried out is such a run. -/
theorem run_verdict (w : World σ) :
    (∀ es report, Leads h s (.fresh w groups) es (.home report) →
      Verdict reply s.programs groups es report) ∧
    ∃ report es, Schedule.run (Bench.ofSettings h s) s.effectiveBatchSize w groups = .ok report ∧
      Leads h s (.fresh w groups) es (.home report) ∧
      report.world.calls = w.calls ++ begun es := by
  constructor
  · exact fun es report leads => leads.verdict names steady replies
  · obtain ⟨report, es, hrun, leads⟩ := run_home_of_steady steady
    exact ⟨report, es, hrun, leads, leads.calls rfl⟩

end Verdict

/-! ## A host with a linter -/

/-- Only the last of the three groups waits for another, so there is no way round. -/
theorem acyclic_lintAndBuild : ¬ Dependency.Cyclic lintAndBuild := by
  rw [← Dependency.cycle?_eq_none_iff (by decide)]
  cbv

/-- The group of the linter waits for no other, and its only command fails. -/
theorem fails_lintAndBuild : Fails lintReply (RunSettings.programs {}) lintAndBuild := by
  refine ⟨_, List.mem_cons_self, rfl, fun good => ?_, nofun⟩
  have hlint := good "make lint" (by decide)
  exact absurd hlint (by decide)

/-- Three groups come out as is said beforehand on a host whose linter complains: the complaint is
reported, whatever else has been going on at the time. -/
theorem run_verdict_of_lint :
    (lintAndBuild.map (·.name)).Nodup ∧ Host.linting.Steady ∧
      Host.linting.Replies (RunSettings.commandMillis {}) lintReply ∧
      ¬ Dependency.Cyclic lintAndBuild ∧ Fails lintReply (RunSettings.programs {}) lintAndBuild ∧
      ∃ report es, Schedule.run (Bench.ofSettings Host.linting {})
          (RunSettings.effectiveBatchSize {}) { host := () } lintAndBuild = .ok report ∧
        Leads Host.linting {} (.fresh { host := () } lintAndBuild) es (.home report) ∧
        report.world.calls = [] ++ begun es ∧
        Verdict lintReply (RunSettings.programs {}) lintAndBuild es report ∧
        ∃ (phase : Phase) (task command detail : String),
          report.error = some (phase.planError task command detail) := by
  have hnames : (lintAndBuild.map (·.name)).Nodup := by decide
  have hreplies : Host.linting.Replies (RunSettings.commandMillis {}) lintReply := fun _ _ => rfl
  obtain ⟨hall, report, es, hrun, leads, hcalls⟩ :=
    run_verdict hnames Host.linting_steady hreplies { host := () }
  have hverdict := hall es report leads
  exact ⟨hnames, Host.linting_steady, hreplies, acyclic_lintAndBuild, fails_lintAndBuild,
    report, es, hrun, leads, hcalls, hverdict,
    (hverdict.failing acyclic_lintAndBuild fails_lintAndBuild).1⟩

end Interleaving

end Runbook
