import Runbook.Proofs.Order
import Runbook.Proofs.Outcome

/-!
# Commands that report themselves cancelled

A host may say of a command that it was cancelled, though nothing has failed. Then the worker gives its
group back, and if none of its tasks has been completed before, the group is still to do. Nobody keeps count
of that: the group is taken up again in one of the next rounds, and all its commands are handed over once
more, from the first one on.

So the events of a group are those of some tries that have been given up, and of one more (`Retried`,
`Leads.retried`). And a round in which every group is given back completes nothing. There are twice as many
rounds as groups, so they can be used up, and then a cycle is reported where there is none; but only after
more commands than there are groups have reported themselves cancelled (`Leads.recalls`).
-/

set_option autoImplicit false

namespace Runbook

variable {σ : Type}

/-- The command reported itself cancelled. Nobody else can cancel a command that is running, so this is
the host's own answer. -/
def Call.recalled (c : Call) : Bool := c.answer.reply == .refused .cancelled

theorem Call.recalled_iff {c : Call} : c.recalled = true ↔ c.answer.reply = .refused .cancelled := by
  rw [recalled, beq_iff_eq]

/-! ## A group that is still to do -/

section CalledOff

variable {programs : List String} {tasks left : List Task}

/-- When none of its tasks has been completed, a job that was called off leaves as much to do as there
was. The task in hand has been given back, and with it the commands of it that have been run. -/
theorem CalledOff.openCommands_eq (back : CalledOff tasks left)
    (none : left.countP (·.status == .completed) = 0) :
    openCommands programs left = openCommands programs tasks := by
  obtain ⟨split, isOpen, given⟩ := back
  rename_i done rest t t'
  rw [List.countP_eq_zero] at none
  -- a task that is done and had not been terminal before would have been completed
  have hterminal : ∀ u ∈ done, u.isTerminal = true := by
    intro u hu
    have hnot := none u.settled (List.mem_append_left _ (List.mem_map_of_mem hu))
    rw [Task.settled] at hnot
    split at hnot
    · assumption
    · simp at hnot
  have hsettled : done.map Task.settled = done := by
    have hsame : ∀ u ∈ done, u.settled = id u := fun u hu => Task.settled_of_terminal (hterminal u hu)
    rw [List.map_congr_left hsame, List.map_id]
  have hopen : t'.isTerminal = false ∧ t'.commands programs = t.commands programs := by
    rcases given with rfl | rfl
    · exact ⟨isOpen, rfl⟩
    · exact ⟨rfl, rfl⟩
  rw [split, hsettled, openCommands_append, openCommands_append, openCommands_cons_of_open hopen.1,
    openCommands_cons_of_open isOpen, hopen.2]

/-- A group that is given back as still to do has all its commands before it again. -/
theorem commands_conclude {g : TaskGroup} (back : CalledOff g.tasks left)
    (pending : (g.conclude ⟨left, .cancelled⟩).1.status = .pending) :
    (g.conclude ⟨left, .cancelled⟩).1.commands programs = g.commands programs := by
  refine back.openCommands_eq ?_
  simp only [TaskGroup.conclude] at pending
  split at pending
  · cases pending
  · rename_i hnone
    exact Nat.eq_zero_of_not_pos hnone

end CalledOff

namespace Interleaving

variable {h : Host σ} {s : RunSettings} {w : World σ} {groups now : List TaskGroup}
  {es es' since : List Event} {c c' : Config σ} {place : Nat} {before g : TaskGroup}
  {calls : List Call} {r : Result}

/-! ## Tries -/

/-- Some of a group's commands are handed over, from the first one on, and the last one reports itself
cancelled. The ones before it have succeeded, and that is forgotten. -/
inductive Tried (commands : List String) : List Call → Prop
  | mk {calls : List Call} {call : Call} (fine : ∀ c ∈ calls, c.succeeded = true)
    (asked : (calls ++ [call]).map (·.command) <+: commands) (recalled : call.recalled = true) :
    Tried commands (calls ++ [call])

/-- The events of tries that have been given up, one after the other. They do not overlap, since a group
is taken up by one worker at a time. -/
inductive Retried (commands : List String) : List Event → Prop
  | none : Retried commands []
  | again {es : List Event} {calls : List Call} (earlier : Retried commands es)
    (tried : Tried commands calls) : Retried commands (es ++ log calls)

/-- Where no command has reported itself cancelled no try has been given up. -/
theorem Retried.eq_nil {commands : List String} (retried : Retried commands es)
    (kept : ∀ call, .began call ∈ es → call.recalled = false) : es = [] := by
  cases retried with
  | none => rfl
  | again earlier tried =>
    obtain ⟨fine, asked, recalled⟩ := tried
    rename_i es calls call
    have hbegan : Event.began call ∈ es ++ log (calls ++ [call]) :=
      List.mem_append_right _ (began_mem_log (by simp))
    rw [kept call hbegan] at recalled
    cases recalled

/-- Out of a run that goes well, a worker comes back with its group completed, or with a try that it has
given up. If the group is then still to do, it is all to do. -/
theorem Carried.completed_or_tried (alive : h.Alive) (leads : Leads h s (.fresh w groups) es c)
    (carried : Carried h s w groups false place es before calls r) :
    (broughtBack before r).status = .completed ∨
      Tried (before.commands s.programs) calls ∧
        ((broughtBack before r).status = .pending →
          (broughtBack before r).commands s.programs = before.commands s.programs) := by
  have hanswered : ∀ call ∈ calls, Answered h s.commandMillis call := fun call hc =>
    leads.answered (carried.began hc).1
  obtain ⟨taken, seen, comes, told⟩ := carried
  cases comes with
  | declined off => cases off
  | died fine asked why =>
    have hlast := hanswered _ (List.mem_append_right _ List.mem_cons_self)
    exact absurd why (hlast.not_crashed alive _)
  | ended ends =>
    cases ends with
    | completed fine all => exact .inl rfl
    | failed fine split isOpen chores asked why => exact absurd (told rfl) Bool.false_ne_true
    | calledOff off fine asked back => cases off
    | recalled fine asked why back =>
      exact .inr ⟨.mk fine asked (Call.recalled_iff.mpr why), commands_conclude back⟩

/-- Before a group was taken up for the last time, it had been tried and given up any number of times.
The induction is on the events before that: each try that has been given up was once the last one. -/
theorem Taken.retried (names : (groups.map (·.name)).Nodup) (alive : h.Alive)
    (taken : Taken h s w groups place before es since) :
    ∃ g earlier, groups[place]? = some g ∧ before.name = g.name ∧
      before.commands s.programs = g.commands s.programs ∧
      Retried (g.commands s.programs) earlier ∧
      ofGroup before.name es = earlier ++ ofGroup before.name since := by
  have tries := taken.tries names
  clear taken
  induction tries with
  | @first before past since batch found pending quiet =>
    refine ⟨before, [], found, rfl, rfl, .none, ?_⟩
    rw [ofGroup_append, quiet, ofGroup_taken]
  | again leads taken seen comes told pending tries ih =>
    have hname := TaskGroup.name_eq_of_outline comes.outline
    have carried := Carried.mk taken seen comes told
    rcases carried.completed_or_tried alive leads with hdone | ⟨htried, hcommands⟩
    · rw [pending] at hdone
      cases hdone
    · obtain ⟨g, earlier, hfound, hname', hsame, hretried, hevents⟩ := ih
      rw [hsame] at htried hcommands
      refine ⟨g, earlier ++ log _, hfound, hname.trans hname', hcommands pending,
        hretried.again htried, ?_⟩
      rw [ofGroup_append, ofGroup_taken, hname, hevents, seen]

section Alive

variable (names : (groups.map (·.name)).Nodup) (alive : h.Alive)
include names alive

/-- What is seen of a group at any moment: tries that have been given up, and calls of a last one. -/
theorem Leads.retried (leads : Leads h s (.fresh w groups) es c) {i : Nat}
    (found : groups[i]? = some g) :
    ∃ earlier last calls, ofGroup g.name es = earlier ++ last ∧
      Retried (g.commands s.programs) earlier ∧ InTurn calls last ∧
      calls.map (·.command) <+: g.commands s.programs := by
  -- what is left to say is the last try; all before it were given back
  have hlast : ∀ {before since}, Taken h s w groups i before es since →
      ∀ {calls}, InTurn calls (ofGroup before.name since) →
        calls.map (·.command) <+: before.commands s.programs →
        ∃ earlier last calls, ofGroup g.name es = earlier ++ last ∧
          Retried (g.commands s.programs) earlier ∧ InTurn calls last ∧
          calls.map (·.command) <+: g.commands s.programs := by
    intro before since taken calls hturn hprefix
    obtain ⟨g', earlier, hfound, hname, hsame, hretried, hevents⟩ := taken.retried names alive
    rw [found, Option.some.injEq] at hfound
    subst hfound
    rw [hname] at hevents hturn
    exact ⟨earlier, _, calls, hevents, hretried, hturn, hsame ▸ hprefix⟩
  obtain ⟨houtline, hstanding⟩ := leads.standing names (leads.not_lost_of_alive alive)
  obtain ⟨g', hg', hsame⟩ := exists_of_outline houtline found
  rcases hstanding i g' hg' with ⟨stopped, fate⟩ | ⟨stopped, since, p, taken, progress⟩
  · cases fate with
    | untouched found' passed quiet =>
      rw [found, Option.some.injEq] at found'
      subst found'
      exact ⟨[], [], [], quiet, .none, .ended (by simp), List.nil_prefix⟩
    | carried carried =>
      obtain ⟨taken, seen, comes, told⟩ := carried
      obtain ⟨hfine, hprefix⟩ := comes.inTurn
      exact hlast taken (seen ▸ .ended hfine) hprefix
  · obtain ⟨calls, hturn, hprefix⟩ := progress.inTurn
    exact hlast taken hturn hprefix

end Alive

/-! ## Rounds that complete nothing -/

/-- How many commands have reported themselves cancelled. This is what wasted rounds are charged to. -/
def recalls (es : List Event) : Nat := (begun es).countP (·.recalled)

theorem recalls_append (es es' : List Event) : recalls (es ++ es') = recalls es + recalls es' := by
  rw [recalls, begun_append, List.countP_append]
  rfl

theorem mem_begun {call : Call} : call ∈ begun es ↔ .began call ∈ es := by
  rw [begun, List.mem_filterMap]
  constructor
  · rintro ⟨e, he, hcall⟩
    cases e with
    | began call' =>
      cases hcall
      exact he
    | taken | ended => cases hcall
  · exact fun he => ⟨.began call, he, rfl⟩

theorem recalls_pos {call : Call} (began : .began call ∈ es) (recalled : call.recalled = true) :
    0 < recalls es :=
  List.countP_pos_iff.mpr ⟨call, mem_begun.mpr began, recalled⟩

/-- The rounds that have been used up are no more than the groups that have been completed and the
commands that have reported themselves cancelled. A round counts when it is over. -/
def Spent (n : Nat) (es : List Event) : Config σ → Prop
  | .between left _ _ completed => 2 * n ≤ left + completed.length + recalls es
  | .within left _ completed batch _ => ∃ past since, es = past ++ .taken batch :: since ∧
    (∀ batch', .taken batch' ∉ since) ∧ 2 * n ≤ left + 1 + completed.length + recalls past
  | .fresh _ now => now.length = n
  | .home _ | .lost _ => True

/-- What has been seen since the group at a place was last taken up is what has been seen since the batch
under way was taken up. -/
theorem since_of_latest {past past' since since' : List Event} {batch batch' : List Nat}
    (same : past ++ .taken batch :: since = past' ++ .taken batch' :: since')
    (latest : ∀ b, .taken b ∉ since) (inBatch : place ∈ batch) (last : Passed place since') :
    since' = since := by
  -- one of the two cuts is behind the other, and the batch between them rules that out
  rcases List.append_eq_append_iff.mp same with ⟨mid, rfl, hmid⟩ | ⟨mid, rfl, hmid⟩
  · cases mid with
    | nil => exact (List.cons.inj hmid).2.symm
    | cons e mid =>
      have hmem : Event.taken batch' ∈ since := by
        rw [(List.cons.inj hmid).2]
        exact List.mem_append_right _ List.mem_cons_self
      exact absurd hmem (latest batch')
  · cases mid with
    | nil => exact (List.cons.inj hmid).2
    | cons e mid =>
      have hmem : Event.taken batch ∈ since' := by
        rw [(List.cons.inj hmid).2]
        exact List.mem_append_right _ List.mem_cons_self
      exact absurd inBatch (last batch hmem)

/-- A batch that goes well completes a group, or a command of it reports itself cancelled. There is no
third way to spend a round. -/
theorem completes_or_recalls {batch : List Nat} {completed : List String} {past since : List Event}
    (alive : h.Alive) (leads : Leads h s (.fresh w groups) es c)
    (settled : Settled h s w groups false es now) (underway : Underway s es now completed batch)
    (split : es = past ++ .taken batch :: since) (latest : ∀ b, .taken b ∉ since) :
    completed.length < (Schedule.addCompleted now batch completed).length ∨ 0 < recalls since := by
  obtain ⟨i, hi⟩ := List.exists_mem_of_ne_nil batch underway.nonempty
  obtain ⟨g, hg, hunknown, -⟩ := underway.ready i hi
  cases settled.fate i g hg with
  | untouched found passed quiet => exact absurd hi (passed batch underway.latest.mem)
  | carried carried =>
    rcases carried.completed_or_tried alive leads with hdone | ⟨htried, -⟩
    · exact .inl (length_addCompleted_lt_of_completed underway.sorted hi hg hunknown hdone)
    · -- the calls of the try have been seen since the batch was taken up
      obtain ⟨⟨leads', first, inBatch, found, last⟩, seen, comes, told⟩ := carried
      obtain rfl := since_of_latest split.symm latest hi last
      obtain ⟨fine, asked, recalled⟩ := htried
      rename_i calls call
      have hbegan : Event.began call ∈ log (calls ++ [call]) := began_mem_log (by simp)
      rw [← seen, ofGroup, List.mem_filter] at hbegan
      exact .inr (recalls_pos hbegan.1 recalled)

theorem length_le_addCompleted {batch : List Nat} {completed : List String}
    (sorted : completed.Pairwise (· < ·)) :
    completed.length ≤ (Schedule.addCompleted now batch completed).length :=
  (nodup_of_pairwise_lt sorted).length_le_of_subset fun _ hname =>
    Schedule.mem_addCompleted.mpr (.inl hname)

section Alive

variable (names : (groups.map (·.name)).Nodup) (alive : h.Alive)
include names alive

/-- One step keeps the account of rounds. It is the end of a round that has something to pay for. -/
theorem Step.spent {n : Nat} (leads : Leads h s (.fresh w groups) es c) (step : Step h s c es' c')
    (before : Spent n es c) : Spent n (es ++ es') c' := by
  -- only the end of a round has to be paid for; a batch under way keeps the account of its beginning
  cases step with
  | refuse | finish | tire | starve | lose | abort => trivial
  | @accept _ now acyclic =>
    have hn : now.length = n := before
    show 2 * n ≤ now.length * 2 + _ + _
    omega
  | @take left _ _ completed batch =>
    have hn : 2 * n ≤ left + 1 + completed.length + recalls es := before
    exact ⟨es, [], rfl, by simp, hn⟩
  | @work left crew completed batch worker p p' hands es' w' step =>
    obtain ⟨past, since, rfl, hlatest, hn⟩ := before
    refine ⟨past, since ++ es', by simp, fun batch' hb => ?_, hn⟩
    rcases List.mem_append.mp hb with hb | hb
    · exact hlatest batch' hb
    · exact step.not_taken batch' hb
  | notice | pass =>
    rw [List.append_nil]
    exact before
  | @next left crew completed batch well =>
    obtain ⟨past, since, hsplit, hlatest, hn⟩ := before
    have handled : Handled h s w groups es crew batch [] := leads.account names
    have hsettled := handled.settled
    rw [well] at hsettled
    have underway : Underway s es crew.groups completed batch := leads.ledger names
    have hsum : recalls es = recalls past + recalls since := by
      rw [hsplit, recalls_append]
      rfl
    have hround := completes_or_recalls alive leads hsettled underway hsplit hlatest
    have hmore : completed.length ≤ (Schedule.addCompleted crew.groups batch completed).length :=
      length_le_addCompleted underway.sorted
    rw [List.append_nil]
    show 2 * n ≤ left + (Schedule.addCompleted crew.groups batch completed).length + recalls es
    omega

theorem Leads.spent (leads : Leads h s (.fresh w groups) es c) : Spent groups.length es c := by
  induction leads with
  | refl => exact rfl
  | step leads next ih => exact next.spent names alive leads ih

omit names alive in
/-- Workers do not report cycles, so a cycle that is reported comes from the scheduler. -/
theorem Comes.failure_ne {programs : List String} {stopped : Bool} {e : PlanError}
    (comes : Comes programs stopped g calls r) (failure : failure? ⟨place, g⟩ r = some e)
    (detail : String) : e ≠ .circularDependency detail := by
  cases comes with
  | declined off => cases failure
  | died fine asked why =>
    cases failure
    exact fun h => by cases h
  | ended ends =>
    cases ends with
    | completed | calledOff | recalled => cases failure
    | @failed calls call done rest t behind ahead phase diagnostic =>
      obtain rfl : phase.planError t.name call.command diagnostic = e := Option.some.inj failure
      cases phase <;> exact fun h => by cases h

/-- What is reported of a run without a cycle says so only when the rounds have been used up. By the
account of rounds more commands than there are groups have then reported themselves cancelled. -/
theorem Leads.tired_of_circular {report : Schedule.Report σ} {detail : String}
    (leads : Leads h s (.fresh w groups) es (.home report)) (acyclic : ¬ Dependency.Cyclic groups)
    (circular : report.error = some (.circularDependency detail)) :
    report.error = some (Schedule.givenUp groups) ∧ groups.length < recalls es := by
  cases leads with
  | @step es es' c' _ before next =>
    cases next with
    | @refuse w' now path cycle =>
      obtain ⟨rfl, rfl⟩ := before.accepted
      -- a refusal names a cycle, and there is none
      rw [(Dependency.cycle?_eq_none_iff names).mpr acyclic] at cycle
      cases cycle
    | finish all => cases circular
    | starve unfinished idle => cases circular
    | @tire w' now completed unfinished =>
      have settled : Settled h s w groups false es now := before.account names
      -- every round either completes a group or gives one back
      have hspent : 2 * groups.length ≤ 0 + completed.length + recalls es :=
        before.spent names alive
      have hlength := length_of_outline settled.outline
      refine ⟨?_, ?_⟩
      · show some (Schedule.givenUp now) = _
        rw [Schedule.givenUp, hlength]
        rfl
      · rw [List.append_nil]
        omega
    | @abort left crew completed batch e failed =>
      have handled : Handled h s w groups es crew batch [] := before.account names
      -- an abort repeats the failure of a worker, and no worker reports a cycle
      obtain ⟨_, _, _, _, -, -, -, carried, hfailure⟩ := handled.blame e failed
      obtain ⟨taken, seen, comes, told⟩ := carried
      have he : crew.error = some (.circularDependency detail) := circular
      rw [failed, Option.some.injEq] at he
      exact absurd he (comes.failure_ne hfailure detail)

end Alive

/-! ## What is repeated -/

/-- What is repeated in a run of some groups, at a moment of it, and when a cycle is reported. -/
structure Repeats (s : RunSettings) (groups : List TaskGroup) (es : List Event) (c : Config σ) :
    Prop where
  /-- The events of a group are those of tries that have been given up, each after a command that
  reported itself cancelled, and of calls from the first command on, in turn. -/
  tries : ∀ (i : Nat) (g : TaskGroup), groups[i]? = some g →
    ∃ earlier last calls, ofGroup g.name es = earlier ++ last ∧
      Retried (g.commands s.programs) earlier ∧ InTurn calls last ∧
      calls.map (·.command) <+: g.commands s.programs
  /-- As long as no command of a group has reported itself cancelled, none is handed over twice. -/
  once : ∀ (i : Nat) (g : TaskGroup), groups[i]? = some g →
    (∀ call, .began call ∈ ofGroup g.name es → call.recalled = false) →
    ∃ calls, InTurn calls (ofGroup g.name es) ∧ calls.map (·.command) <+: g.commands s.programs
  /-- A cycle is reported, and no command is handed over. -/
  cyclic : ∀ report, c = .home report → Dependency.Cyclic groups →
    (∃ detail, report.error = some (.circularDependency detail)) ∧ begun es = []
  /-- When there is no cycle, one is reported only because the rounds have been used up, and then more
  commands than there are groups have reported themselves cancelled. -/
  acyclic : ∀ report, c = .home report → ¬ Dependency.Cyclic groups →
    ∀ detail, report.error = some (.circularDependency detail) →
      report.error = some (Schedule.givenUp groups) ∧ groups.length < recalls es

section Alive

variable (names : (groups.map (·.name)).Nodup) (alive : h.Alive)
include names

theorem Leads.refused_of_cyclic {report : Schedule.Report σ}
    (leads : Leads h s (.fresh w groups) es (.home report)) (cyclic : Dependency.Cyclic groups) :
    (∃ detail, report.error = some (.circularDependency detail)) ∧ begun es = [] := by
  have hcycle : Dependency.cycle? groups ≠ none := fun hnone =>
    (Dependency.cycle?_eq_none_iff names).mp hnone cyclic
  cases leads with
  | @step es es' c' _ before next =>
    cases next with
    | refuse cycle =>
      obtain ⟨rfl, rfl⟩ := before.accepted
      exact ⟨⟨_, rfl⟩, rfl⟩
    | finish | tire | starve | abort => exact absurd before.accepted hcycle

include alive

/-- Whatever the order of events and whatever the host answers, as long as nobody dies, nothing is repeated
and no cycle is made up but after commands that report themselves cancelled; and what is carried out is such
a run. -/
theorem run_repeats (w : World σ) :
    (∀ es c, Leads h s (.fresh w groups) es c → Repeats s groups es c) ∧
      ∃ report es, Schedule.run (Bench.ofSettings h s) s.effectiveBatchSize w groups = .ok report ∧
        Leads h s (.fresh w groups) es (.home report) ∧
        report.world.calls = w.calls ++ begun es := by
  constructor
  · intro es c leads
    have htries := fun (i : Nat) (g : TaskGroup) (found : groups[i]? = some g) =>
      leads.retried names alive found
    refine { tries := htries, once := ?once, cyclic := ?cyclic, acyclic := ?acyclic }
    case once =>
      intro i g found kept
      obtain ⟨earlier, last, calls, hevents, hretried, hturn, hprefix⟩ := htries i g found
      obtain rfl : earlier = [] := hretried.eq_nil fun call hcall =>
        kept call (hevents ▸ List.mem_append_left _ hcall)
      rw [hevents]
      exact ⟨calls, hturn, hprefix⟩
    case cyclic =>
      rintro report rfl cyclic
      exact leads.refused_of_cyclic names cyclic
    case acyclic =>
      rintro report rfl acyclic detail circular
      exact leads.tired_of_circular names alive acyclic circular
  · obtain ⟨report, es, hrun, leads⟩ := run_home_of_alive (s := s) alive
    exact ⟨report, es, hrun, leads, leads.calls rfl⟩

end Alive

end Interleaving

/-! ## A command that is always cancelled -/

/-- A host that says of every command that it was cancelled. It is as alive as any, and remembers
nothing. -/
def Host.recalling : Host Unit where
  run := fun _ _ _ => ({ reply := .refused .cancelled }, ())
  write := fun _ _ _ => (.ok (), ())

theorem Host.recalling_alive : Host.recalling.Alive := fun _ _ _ _ => by simp [Host.recalling]

/-- A group that waits for nothing, with one command. -/
def lone : TaskGroup :=
  { name := "build", subsystem := "build"
    tasks := [{ Task.new 1 "compile" with verify := "make" }] }

namespace Bench

variable {b : Bench σ} {w : World σ} {job : Job}

theorem alone_of_go {lines : List Journal.Line} {next : Job}
    (moved : job.move (b.cancelled w) = .go lines next) :
    b.alone w job = b.alone (w.say b.host lines) next := by
  rw [alone]
  split
  · rename_i hmove
    rw [moved, Move.go.injEq] at hmove
    rw [hmove.1, hmove.2]
  · rename_i hmove
    rw [moved] at hmove
    cases hmove
  · rename_i hmove
    rw [moved] at hmove
    cases hmove

theorem alone_of_ask {asked : Asked} {answer : Answer} {w' : World σ} {lines : List Journal.Line}
    {ending : Ending} (moved : job.move (b.cancelled w) = .ask asked)
    (called : w.call b.host b.group asked.command b.timeout = (answer, w'))
    (settled : asked.settle answer.reply = .stop lines ending) :
    b.alone w job = .ok (ending, (w'.waitUntil (w'.clock + answer.delay)).say b.host lines) := by
  rw [alone]
  split
  · rename_i hmove
    rw [moved] at hmove
    cases hmove
  · rename_i hmove
    rw [moved] at hmove
    cases hmove
  · rename_i hmove
    rw [moved, Move.ask.injEq] at hmove
    subst hmove
    rw [called]
    simp only [settled]

end Bench

/-- The group comes back as it was, and its command has been handed over. -/
theorem groupAlone_lone (w : World Unit) :
    ∃ w', (Bench.ofSettings Host.recalling {}).groupAlone w lone = .ok ((lone, .cancelled), w') ∧
      ∃ call, w'.calls = w.calls ++ [call] ∧ call.command = "make" := by
  have hjob : Job.ofTasks (Bench.ofSettings Host.recalling {}).programs lone.tasks =
      ⟨[], [⟨{ Task.new 1 "compile" with verify := "make" },
        [.enter, .announce "    Verify: make", .run .verify "make", .leave]⟩]⟩ := by decide
  have halone : ∀ w₀ : World Unit, ∃ w',
      ((Bench.ofSettings Host.recalling {}).forGroup lone).alone w₀
          (Job.ofTasks (Bench.ofSettings Host.recalling {}).programs lone.tasks) =
        .ok (⟨lone.tasks, .cancelled⟩, w') ∧
      ∃ call, w'.calls = w₀.calls ++ [call] ∧ call.command = "make" := by
    intro w₀
    rw [hjob, Bench.alone_of_go rfl, Bench.alone_of_go rfl, Bench.alone_of_ask rfl rfl rfl]
    exact ⟨_, rfl, _, rfl, rfl⟩
  obtain ⟨w', hended, hcalls⟩ := halone (w.say Host.recalling [lone.entryLine])
  refine ⟨w'.say Host.recalling [(lone.conclude ⟨lone.tasks, .cancelled⟩).2], ?_, hcalls⟩
  have hhost : (Bench.ofSettings Host.recalling {}).host = Host.recalling := rfl
  show Except.map _ (((Bench.ofSettings Host.recalling {}).forGroup lone).alone _ _) = _
  rw [hhost, hended]
  rfl

namespace Schedule

/-- A round leaves the group as it was, so the next one begins where this one did. -/
theorem rounds_lone (left : Nat) (w : World Unit) :
    ∃ w', rounds (Bench.ofSettings Host.recalling {}) (RunSettings.effectiveBatchSize {}) (left + 1) w
        [lone] [] =
      rounds (Bench.ofSettings Host.recalling {}) (RunSettings.effectiveBatchSize {}) left w' [lone] [] ∧
      ∃ call, w'.calls = w.calls ++ [call] ∧ call.command = "make" := by
  obtain ⟨w', halone, hcalls⟩ := groupAlone_lone w
  refine ⟨w', ?_, hcalls⟩
  have hready : Dependency.ready [lone] [] = [0] := by decide
  have hbatch : runBatch (Bench.ofSettings Host.recalling {}) w [lone] [0] =
      .ok { world := w', groups := [lone] } := by
    show Except.map _ ((Bench.ofSettings Host.recalling {}).groupAlone w lone) = _
    rw [halone]
    rfl
  have htake : [0].take (RunSettings.effectiveBatchSize {}) = [0] := by decide
  have hnames : addCompleted [lone] [0] [] = [] := by decide
  rw [rounds, if_neg (by decide), hready]
  simp only [htake, hbatch, hnames]
  rfl

/-- Without a cycle, one is reported, and the same command has been handed over twice: two rounds are
what a single group is given. -/
theorem run_recalled_of_lone :
    ¬ Dependency.Cyclic [lone] ∧ ∃ report call call',
      run (Bench.ofSettings Host.recalling {}) (RunSettings.effectiveBatchSize {}) { host := () } [lone] =
        .ok report ∧
      report.error = some (.circularDependency "maximum iterations (2) reached") ∧
      report.world.calls = [call, call'] ∧ call.command = "make" ∧ call'.command = "make" ∧
      lone.commands (RunSettings.programs {}) = ["make"] := by
  have hacyclic : ¬ Dependency.Cyclic [lone] := by
    rintro ⟨a, hcycle⟩
    obtain ⟨b, ⟨g, hg, -, hb⟩, -⟩ := Relation.TransGen.head'_iff.mp hcycle
    rw [List.mem_singleton.mp hg] at hb
    cases hb
  have hcycle : Dependency.cycle? [lone] = none :=
    (Dependency.cycle?_eq_none_iff (by decide)).mpr hacyclic
  -- one group pays for two rounds, and both end with the command called back
  obtain ⟨w₁, hfirst, call, hcall, hmake⟩ := rounds_lone 1 { host := () }
  obtain ⟨w₂, hsecond, call', hcall', hmake'⟩ := rounds_lone 0 w₁
  have herror : givenUp [lone] = .circularDependency "maximum iterations (2) reached" := by decide
  refine ⟨hacyclic, .refuse Host.recalling w₂ [lone] (givenUp [lone]), call, call', ?_,
    congrArg some herror, ?_, hmake, hmake', by decide⟩
  · rw [run, hcycle]
    have hnames : completedNames [lone] = [] := by decide
    have hbudget : [lone].length * 2 = 2 := rfl
    simp only [hnames, hbudget]
    rw [hfirst, hsecond, rounds, if_neg (by decide)]
    rfl
  · show w₂.calls = _
    rw [hcall', hcall]
    rfl

end Schedule

namespace Interleaving

/-- The lone group is repeated like this. -/
theorem run_repeats_of_lone :
    ([lone].map (·.name)).Nodup ∧ Host.recalling.Alive ∧
      (∀ es c, Leads Host.recalling {} (.fresh { host := () } [lone]) es c →
        Repeats {} [lone] es c) ∧
      ∃ report es, Schedule.run (Bench.ofSettings Host.recalling {})
          (RunSettings.effectiveBatchSize {}) { host := () } [lone] = .ok report ∧
        Leads Host.recalling {} (.fresh { host := () } [lone]) es (.home report) ∧
        report.world.calls = [] ++ begun es :=
  ⟨by decide, Host.recalling_alive, run_repeats (by decide) Host.recalling_alive { host := () }⟩

end Interleaving

end Runbook
