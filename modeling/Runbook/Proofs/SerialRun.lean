import Runbook.Proofs.Chain
import Runbook.Proofs.SteadyHost

/-!
# A chain of groups is carried out like one list of tasks

In a chain one group is ready at a time, so every batch is one group by itself. On a steady host the
groups are carried out from the first on, each after the one before it has been completed, up to the
first that fails (`Serial`), and no two calls overlap (`Apart`). Put together, the groups end as
their tasks in one list would (`Serial.ends`).
-/

set_option autoImplicit false

namespace Runbook.Interleaving

open Dependency (Linked)

variable {σ : Type} {h : Host σ} {s : RunSettings} {programs : List String}

/-! ## Calls that do not overlap -/

/-- Calls of which each has ended before the next one began, and all by some time. That time is kept
with them, since whatever begins next begins no earlier. -/
structure Apart (calls : List Call) (clock : Nat) : Prop where
  inTurn : calls.Pairwise fun a b => a.due ≤ b.start
  ended : ∀ c ∈ calls, c.due ≤ clock

/-- The calls of a worker at its post do not overlap. Only the one it waits for may be under way, and
the time up to which the others have ended is then its start. -/
def ApartAt (calls : List Call) (clock : Nat) : Post → Prop
  | .waits _ call => ∃ earlier, calls = earlier ++ [call] ∧ Apart earlier call.start
  | .fresh | .busy _ | .through _ => Apart calls clock

theorem Apart.later {calls : List Call} {clock clock' : Nat} (apart : Apart calls clock)
    (later : clock ≤ clock') : Apart calls clock' :=
  ⟨apart.inTurn, fun c hc => Nat.le_trans (apart.ended c hc) later⟩

/-- A call that begins when the others have ended joins them once it has ended itself. -/
theorem Apart.snoc {calls : List Call} {call : Call} {clock : Nat}
    (apart : Apart calls call.start) (due : call.due ≤ clock) : Apart (calls ++ [call]) clock := by
  constructor
  · refine List.pairwise_append.mpr ⟨apart.inTurn, List.pairwise_singleton _ _, ?_⟩
    intro a ha b hb
    rw [List.mem_singleton.mp hb]
    exact apart.ended a ha
  · intro c hc
    rcases List.mem_append.mp hc with hc | hc
    · have hstart : call.start ≤ call.due := Nat.le_add_right _ _
      exact Nat.le_trans (apart.ended c hc) (Nat.le_trans hstart due)
    · rw [List.mem_singleton.mp hc]
      exact due

section Works

variable {cancelled : Bool} {g : TaskGroup} {w w' : World σ} {p p' : Post} {es : List Event}

/-- A worker never has two calls under way, whatever the host takes for an answer. -/
theorem WorkStep.apart {calls : List Call} (step : WorkStep h s cancelled g w p es w' p')
    (before : ApartAt calls w.clock p) : ApartAt (calls ++ begun es) w'.clock p' := by
  cases step with
  | start | decline | go | stop =>
    rw [begun_nil, List.append_nil]
    exact before
  | ask moved called => exact ⟨calls, rfl, before⟩
  | goOn due settled | giveUp due settled | die due settled =>
    obtain ⟨earlier, rfl, apart⟩ := before
    rw [show begun [Event.ended _] = [] from rfl, List.append_nil]
    exact apart.snoc due

theorem Works.apart {calls : List Call} (works : Works h s cancelled g w p es w' p')
    (before : ApartAt calls w.clock p) : ApartAt (calls ++ begun es) w'.clock p' := by
  induction works with
  | refl =>
    rw [begun_nil, List.append_nil]
    exact before
  | step works next ih =>
    rw [begun_append, ← List.append_assoc]
    exact next.apart ih
  | @pass es w' p' moment works later ih =>
    cases p' with
    | waits => exact ih
    | fresh | busy | through => exact ih.later later

theorem Works.calls (works : Works h s cancelled g w p es w' p') :
    w'.calls = w.calls ++ begun es := by
  induction works with
  | refl => simp
  | step works next ih => rw [next.calls, ih, begun_append, List.append_assoc]
  | pass works later ih => exact ih

/-- All that a worker learns of its commands is what the host has answered. -/
theorem Works.answered (works : Works h s cancelled g w p es w' p') {call : Call}
    (began : .began call ∈ es) : Answered h s.commandMillis call := by
  induction works with
  | refl => cases began
  | step works next ih =>
    rcases List.mem_append.mp began with hb | hb
    · exact ih hb
    · exact next.answered hb
  | pass works later ih => exact ih began

end Works

/-! ## One group -/

/-- A group that is brought back tells what has become of its tasks, so two endings that leave the same
group with the same outcome are one. -/
theorem ending_of_conclude {g : TaskGroup} {ending ending' : Ending}
    (groups : (g.conclude ending).1 = (g.conclude ending').1)
    (outcome : ending.outcome = ending'.outcome) : ending = ending' := by
  obtain ⟨tasks, outcome₁⟩ := ending
  obtain ⟨tasks', outcome₂⟩ := ending'
  cases outcome
  have htasks := congrArg TaskGroup.tasks groups
  cases outcome₁ <;> exact congrArg (Ending.mk · _) htasks

/-- What a worker comes back with tells how its job has ended. -/
theorem Comes.ends {g : TaskGroup} {calls : List Call} {ending : Ending}
    (comes : Comes programs false g calls (.ok ((g.conclude ending).1, ending.outcome))) :
    Ends programs false g.tasks calls ending := by
  generalize hr : (Except.ok ((g.conclude ending).1, ending.outcome) : Result) = r at comes
  cases comes with
  | declined off => cases off
  | died => cases hr
  | @ended calls ending' ends =>
    rw [Except.ok.injEq, Prod.mk.injEq] at hr
    rw [ending_of_conclude hr.1 hr.2]
    exact ends

/-- A worker that works alone on a steady host comes home, and its calls join those before without an
overlap. -/
theorem alone_of_steady (steady : h.Steady) (g : TaskGroup) (w : World σ) {past : List Call}
    (apart : Apart past w.clock) :
    ∃ ending w' calls, ((benchAt h s false).forGroup g).alone w (Job.ofTasks s.programs g.tasks) =
        .ok (ending, w') ∧ w'.calls = w.calls ++ calls ∧ Apart (past ++ calls) w'.clock ∧
      (∀ c ∈ calls, Answered h s.commandMillis c) ∧
      Ends s.programs false g.tasks calls ending := by
  obtain ⟨es, w', p', works, ends⟩ := alone_works h s g w (Job.ofTasks s.programs g.tasks)
  have hstart := @Progress.busy s.programs false g [] _ (by simp) (Job.At.ofTasks _ g.tasks)
  have hprogress := works.progress hstart
  have hcalls := works.calls
  have hapart : ApartAt (past ++ begun es) w'.clock p' := works.apart (p := .busy _) apart
  -- on a steady host the worker does not die, so the second case is out
  cases halone : ((benchAt h s false).forGroup g).alone w (Job.ofTasks s.programs g.tasks) with
  | ok x =>
    obtain ⟨ending, w''⟩ := x
    rw [halone] at ends
    obtain ⟨rfl, rfl⟩ := ends
    obtain ⟨calls, hes, hcomes⟩ := hprogress.comes
    rw [log_nil, List.nil_append] at hes
    subst hes
    rw [begun_log] at hcalls hapart
    exact ⟨ending, w'', calls, rfl, hcalls, hapart, fun c hc => works.answered (began_mem_log hc),
      hcomes.ends⟩
  | error message =>
    rw [halone] at ends
    obtain rfl := ends
    obtain ⟨calls, hes, hcomes⟩ := hprogress.comes
    rw [log_nil, List.nil_append] at hes
    subst hes
    cases hcomes with
    | died fine asked why =>
      have hlast := works.answered (began_mem_log (List.mem_append_right _ List.mem_cons_self))
      exact absurd why (hlast.not_crashed steady.alive _)

/-! ## One group after the other -/

/-- Groups are carried out one after the other, up to the first that fails: the calls that are made, the
groups as they are left, and what went wrong. Those behind a group that fails are left as they were. -/
inductive Serial (programs : List String) :
    List TaskGroup → List Call → List TaskGroup → Option PlanError → Prop
  | done : Serial programs [] [] [] none
  | next {g : TaskGroup} {gs left : List TaskGroup} {calls calls' : List Call} {tasks : List Task}
    {error : Option PlanError} (ends : Ends programs false g.tasks calls ⟨tasks, .completed⟩)
    (rest : Serial programs gs calls' left error) :
    Serial programs (g :: gs) (calls ++ calls') ({ g with tasks, status := .completed } :: left)
      error
  | stop {g : TaskGroup} {gs : List TaskGroup} {calls : List Call} {tasks : List Task}
    {e : PlanError} (ends : Ends programs false g.tasks calls ⟨tasks, .failed e⟩) :
    Serial programs (g :: gs) calls ({ g with tasks, status := .failed } :: gs) (some e)

/-- On a steady host a worker that nobody calls off ends with its job completed or failed. -/
theorem Ends.not_cancelled {tasks : List Task} {calls : List Call} {ending : Ending}
    (ends : Ends programs false tasks calls ending) (steady : h.Steady)
    (answered : ∀ c ∈ calls, Answered h s.commandMillis c) : ending.outcome ≠ .cancelled := by
  cases ends with
  | completed | failed => simp
  | calledOff off fine asked back => cases off
  | recalled fine asked why back =>
    have hlast := answered _ (List.mem_append_right _ List.mem_cons_self)
    exact absurd why (hlast.not_cancelled steady)

/-- The groups of a chain are completed up to some place, and these are known by name. It is what holds
between any two rounds of a chain: in each of them one group goes over from the rest to those that are
done. -/
structure Halfway (previous : Option String) (done rest : List TaskGroup)
    (completed : List String) : Prop where
  linked : Linked previous rest
  names : ((done ++ rest).map (·.name)).Nodup
  pending : ∀ g ∈ rest, g.status = .pending
  finished : ∀ g ∈ done, g.status = .completed
  sorted : completed.Pairwise (· < ·)
  known : ∀ name, name ∈ completed ↔ name ∈ done.map (·.name)
  first : ∀ name ∈ previous, name ∈ completed

section Halfway

variable {previous : Option String} {done rest gs : List TaskGroup} {g g' : TaskGroup}
  {completed : List String}

theorem Halfway.length (halfway : Halfway previous done rest completed) :
    completed.length = done.length := by
  have hnames := halfway.names
  rw [List.map_append, List.nodup_append] at hnames
  have hperm := (List.perm_ext_iff_of_nodup (nodup_of_pairwise_lt halfway.sorted) hnames.1).mpr
    halfway.known
  rw [hperm.length_eq, List.length_map]

/-- In such a state the first group of the rest is ready, and it is the only one: every other one waits
for the one before it. -/
theorem Halfway.ready (halfway : Halfway previous done (g :: gs) completed) :
    Dependency.ready (done ++ g :: gs) completed = [done.length] :=
  halfway.linked.ready halfway.names halfway.pending halfway.finished halfway.known halfway.first

/-- When that group has been completed its place is one further on, and its name is known. -/
theorem Halfway.next (halfway : Halfway previous done (g :: gs) completed) (name : g'.name = g.name)
    (status : g'.status = .completed) :
    Halfway (some g.name) (done ++ [g']) gs
      (Schedule.addCompleted (done ++ g' :: gs) [done.length] completed) := by
  -- the round has added the name of the group that is now done, and no other
  have hknown : ∀ n, n ∈ Schedule.addCompleted (done ++ g' :: gs) [done.length] completed ↔
      n ∈ (done ++ [g']).map (·.name) := by
    intro n
    rw [Schedule.mem_addCompleted, halfway.known]
    simp [status, eq_comm]
  refine {
    linked := halfway.linked.2
    pending := fun x hx => halfway.pending x (List.mem_cons_of_mem _ hx)
    sorted := Schedule.addCompleted_pairwise halfway.sorted
    known := hknown
    names := ?names
    finished := ?finished
    first := ?first }
  case names =>
    have hnames := halfway.names
    simpa [name] using hnames
  case finished =>
    intro x hx
    rcases List.mem_append.mp hx with hx | hx
    · exact halfway.finished x hx
    · rw [List.mem_singleton.mp hx]
      exact status
  case first =>
    intro n hn
    rw [Option.mem_some_iff] at hn
    rw [hknown, ← hn, ← name]
    simp

end Halfway

/-- The rounds of a chain of which some first groups have been completed. The induction is on the
other groups; each takes one round. -/
theorem rounds_serial (steady : h.Steady) {size : Nat} (positive : 0 < size)
    {done rest : List TaskGroup} {previous : Option String} {left : Nat} {w : World σ}
    {completed : List String} {past : List Call}
    (halfway : Halfway previous done rest completed) (enough : rest.length ≤ left)
    (apart : Apart past w.clock) :
    ∃ report calls after, Schedule.rounds (Bench.ofSettings h s) size left w (done ++ rest)
        completed = .ok report ∧ report.groups = done ++ after ∧
      report.world.calls = w.calls ++ calls ∧ Apart (past ++ calls) report.world.clock ∧
      (∀ c ∈ calls, Answered h s.commandMillis c) ∧
      Serial s.programs rest calls after report.error := by
  induction rest generalizing done previous left w completed past with
  | nil =>
    rw [rounds_all (by simp [halfway.length])]
    refine ⟨_, [], [], rfl, rfl, by simp, ?_, by simp, .done⟩
    rw [List.append_nil]
    exact apart
  | cons g gs ih =>
    obtain ⟨left, rfl⟩ := Nat.exists_eq_add_one_of_ne_zero (Nat.ne_of_gt
      (Nat.lt_of_lt_of_le (Nat.succ_pos gs.length) enough))
    -- exactly one group is ready, so the batch is this group however large batches may be
    have htake : [done.length].take size = [done.length] := List.take_of_length_le positive
    have hfound : (done ++ g :: gs)[done.length]? = some g := by simp
    obtain ⟨ending, w', calls, halone, hcalls, hapart, hanswered, hends⟩ :=
      alone_of_steady (s := s) steady g (w.say h [g.entryLine]) apart
    have hbatch : Schedule.runBatch (Bench.ofSettings h s) w (done ++ g :: gs) [done.length] =
        .ok { world := w'.say h [(g.conclude ending).2]
              groups := done ++ (g.conclude ending).1 :: gs
              error := Crew.failure? ending.outcome } := by
      rw [runBatch_singleton w hfound, halone]
      simp [Except.map]
    rw [rounds_busy (by simp [halfway.length]) (by simp [halfway.ready]), halfway.ready, htake,
      hbatch]
    obtain ⟨tasks, outcome⟩ := ending
    cases outcome with
    | cancelled => exact absurd rfl (hends.not_cancelled steady hanswered)
    | failed e => exact ⟨_, calls, _, rfl, rfl, hcalls, hapart, hanswered, .stop hends⟩
    | completed =>
      have hnext := @Halfway.next previous done gs g (g.conclude ⟨tasks, .completed⟩).1 completed
        halfway rfl rfl
      obtain ⟨report, calls', after, hrounds, hgroups, hcalls', hapart', hanswered', hserial⟩ :=
        ih (w := w'.say h [(g.conclude ⟨tasks, .completed⟩).2]) hnext
          (Nat.le_of_succ_le_succ enough) hapart
      refine ⟨report, calls ++ calls', _ :: after, ?_, ?_, ?_, ?_, ?_, .next hends hserial⟩
      · rw [← hrounds, List.append_assoc]
        rfl
      · rw [hgroups, List.append_assoc]
        rfl
      · rw [hcalls', ← List.append_assoc]
        exact congrArg (· ++ calls') hcalls
      · rw [← List.append_assoc]
        exact hapart'
      · intro c hc
        rcases List.mem_append.mp hc with hc | hc
        · exact hanswered c hc
        · exact hanswered' c hc

/-- A chain of groups that nobody has begun is carried out one group after the other, whatever the size
of batches. There are rounds enough, as each group takes one. -/
theorem run_serial (steady : h.Steady) {size : Nat} (positive : 0 < size) {groups : List TaskGroup}
    {w : World σ} {past : List Call} (linked : Linked none groups)
    (names : (groups.map (·.name)).Nodup) (pending : ∀ g ∈ groups, g.status = .pending)
    (apart : Apart past w.clock) :
    ∃ report calls, Schedule.run (Bench.ofSettings h s) size w groups = .ok report ∧
      report.world.calls = w.calls ++ calls ∧ Apart (past ++ calls) report.world.clock ∧
      (∀ c ∈ calls, Answered h s.commandMillis c) ∧
      Serial s.programs groups calls report.groups report.error := by
  have hacyclic : Dependency.cycle? groups = none :=
    (Dependency.cycle?_eq_none_iff names).mpr (linked.acyclic names)
  have hnone : Schedule.completedNames groups = [] := by
    refine List.eq_nil_iff_forall_not_mem.mpr fun name hname => ?_
    obtain ⟨g, hg, hstatus, -⟩ := Schedule.mem_completedNames.mp hname
    rw [pending g hg] at hstatus
    cases hstatus
  have halfway : Halfway none [] groups [] :=
    ⟨linked, names, pending, by simp, .nil, by simp, by simp⟩
  obtain ⟨report, calls, after, hrounds, hgroups, hrest⟩ :=
    rounds_serial (s := s) steady positive halfway (Nat.le_mul_of_pos_right _ Nat.two_pos) apart
  refine ⟨report, calls, ?_, ?_⟩
  · rw [Schedule.run, hacyclic, hnone]
    exact hrounds
  · rw [hgroups]
    exact hrest

/-! ## One list of tasks -/

/-- Two lists of tasks of which the first is carried out to its end are carried out like one. -/
theorem Ends.append {tasks tasks' left left' : List Task} {calls calls' : List Call}
    {outcome : Outcome} (first : Ends programs false tasks calls ⟨left, .completed⟩)
    (second : Ends programs false tasks' calls' ⟨left', outcome⟩)
    (through : outcome ≠ .cancelled) :
    Ends programs false (tasks ++ tasks') (calls ++ calls') ⟨left ++ left', outcome⟩ := by
  obtain ⟨hfine, hall, rfl⟩ := first.fine_of_completed
  have hboth : ∀ {calls' : List Call}, (∀ c ∈ calls', c.succeeded = true) →
      ∀ c ∈ calls ++ calls', c.succeeded = true := by
    intro calls' fine c hc
    rcases List.mem_append.mp hc with hc | hc
    · exact hfine c hc
    · exact fine c hc
  cases second with
  | completed fine all =>
    rw [← List.map_append]
    refine .completed (hboth fine) ?_
    rw [List.map_append, hall, all, openCommands_append]
  | @failed calls' call done rest t behind ahead phase diagnostic fine split isOpen chores asked
      why =>
    have hends := @Ends.failed programs false (tasks ++ tasks') (calls ++ calls') call
      (tasks ++ done) rest t behind ahead phase diagnostic (hboth fine)
      (by rw [split, List.append_assoc]) isOpen chores
      (by rw [List.map_append, hall, asked, openCommands_append, List.append_assoc]) why
    simpa using hends
  | calledOff | recalled => exact absurd rfl through

/-- A task that fails ends its list, so whatever is behind it is left alone. -/
theorem Ends.append_failed {tasks left : List Task} {calls : List Call} {e : PlanError}
    (first : Ends programs false tasks calls ⟨left, .failed e⟩) (others : List Task) :
    Ends programs false (tasks ++ others) calls ⟨left ++ others, .failed e⟩ := by
  cases first with
  | @failed calls call done rest t behind ahead phase diagnostic fine split isOpen chores asked
      why =>
    have hends := @Ends.failed programs false (tasks ++ others) calls call done (rest ++ others) t
      behind ahead phase diagnostic fine (by rw [split]; simp) isOpen chores asked why
    simpa using hends

/-- Groups that are carried out one after the other end as all their tasks in one list would. The
borders of groups are not seen in the calls. -/
theorem Serial.ends {groups left : List TaskGroup} {calls : List Call} {error : Option PlanError}
    (serial : Serial programs groups calls left error) :
    ∃ outcome, outcome ≠ .cancelled ∧ Crew.failure? outcome = error ∧
      Ends programs false (groups.flatMap (·.tasks)) calls
        ⟨left.flatMap (·.tasks), outcome⟩ := by
  induction serial with
  | done => exact ⟨.completed, by simp, rfl, .completed (by simp) rfl⟩
  | next ends rest ih =>
    obtain ⟨outcome, hthrough, herror, hends⟩ := ih
    exact ⟨outcome, hthrough, herror, ends.append hends hthrough⟩
  | @stop g gs calls tasks e ends =>
    exact ⟨.failed e, by simp, rfl, ends.append_failed _⟩

/-- The groups are left completed up to the one that fails, and still to do behind it. -/
theorem Serial.statuses {groups left : List TaskGroup} {calls : List Call}
    {error : Option PlanError} (serial : Serial programs groups calls left error)
    (pending : ∀ g ∈ groups, g.status = .pending) :
    left.map (·.outline) = groups.map (·.outline) ∧
      ((error = none ∧ ∀ g ∈ left, g.status = .completed) ∨
        (error.isSome = true ∧ ∃ before g after, left = before ++ g :: after ∧
          (∀ x ∈ before, x.status = .completed) ∧ g.status = .failed ∧
            ∀ x ∈ after, x.status = .pending)) := by
  induction serial with
  | done => exact ⟨rfl, .inl ⟨rfl, by simp⟩⟩
  | @next g gs left calls calls' tasks error ends rest ih =>
    obtain ⟨houtline, hstatus⟩ := ih fun x hx => pending x (List.mem_cons_of_mem _ hx)
    refine ⟨?_, ?_⟩
    · rw [List.map_cons, List.map_cons, houtline]
      rfl
    · rcases hstatus with ⟨herror, hall⟩ | ⟨herror, before, g', after, rfl, hbefore, hg', hafter⟩
      · refine .inl ⟨herror, fun x hx => ?_⟩
        rcases List.mem_cons.mp hx with rfl | hx
        · rfl
        · exact hall x hx
      · refine .inr ⟨herror, _ :: before, g', after, rfl, fun x hx => ?_, hg', hafter⟩
        rcases List.mem_cons.mp hx with rfl | hx
        · rfl
        · exact hbefore x hx
  | @stop g gs calls tasks e ends =>
    refine ⟨rfl, .inr ⟨rfl, [], _, gs, rfl, by simp, rfl, fun x hx => ?_⟩⟩
    exact pending x (List.mem_cons_of_mem _ hx)

end Runbook.Interleaving
