import Runbook.Proofs.Interleaving
import Runbook.Proofs.Job

/-!
# The way of one worker

Whatever other workers do in between, a worker goes one way: it makes the calls of its group one
after the other, each after the one before it has ended with success, until it is through with a
result that follows from them. `Progress` says this of a worker at its post, given the events seen
of it; `WorkStep.progress` is the step and `Works.progress` the run.

`Comes` lists the results. They are the six ways a worker can end: it declines a group because it
is cancelled, it completes the group, a command fails, it is called off between two commands, a
command reports itself cancelled, or it dies.
-/

set_option autoImplicit false

namespace Runbook

/-- The command has run and its exit code is zero. -/
def Call.succeeded (c : Call) : Bool := c.answer.reply.succeeded

namespace Interleaving

variable {σ : Type}

/-! ## How a worker ends -/

/-- How the job of some tasks ends after some calls. A worker is called off only when it is `stopped`; a
command that reports itself cancelled has the same effect without that. -/
inductive Ends (programs : List String) (stopped : Bool) (tasks : List Task) :
    List Call → Ending → Prop
  | completed {calls : List Call} (fine : ∀ c ∈ calls, c.succeeded = true)
    (all : calls.map (·.command) = openCommands programs tasks) :
    Ends programs stopped tasks calls ⟨tasks.map Task.settled, .completed⟩
  | failed {calls : List Call} {call : Call} {done rest : List Task} {t : Task}
    {behind ahead : List Act} {phase : Phase} {diagnostic : String}
    (fine : ∀ c ∈ calls, c.succeeded = true) (split : tasks = done ++ t :: rest)
    (isOpen : t.isTerminal = false)
    (chores : t.chores programs = behind ++ .run phase call.command :: ahead)
    (asked : calls.map (·.command) =
      openCommands programs done ++ behind.filterMap Act.command?)
    (why : call.answer.reply.diagnostic? = some diagnostic) :
    Ends programs stopped tasks (calls ++ [call])
      ⟨done.map Task.settled ++ t.fail diagnostic :: rest,
        .failed (phase.planError t.name call.command diagnostic)⟩
  | calledOff {calls : List Call} {left : List Task} (off : stopped = true)
    (fine : ∀ c ∈ calls, c.succeeded = true)
    (asked : calls.map (·.command) <+: openCommands programs tasks)
    (back : CalledOff tasks left) : Ends programs stopped tasks calls ⟨left, .cancelled⟩
  | recalled {calls : List Call} {call : Call} {left : List Task}
    (fine : ∀ c ∈ calls, c.succeeded = true)
    (asked : (calls ++ [call]).map (·.command) <+: openCommands programs tasks)
    (why : call.answer.reply = .refused .cancelled) (back : CalledOff tasks left) :
    Ends programs stopped tasks (calls ++ [call]) ⟨left, .cancelled⟩

/-- What the worker of a group comes back with after some calls. A group that is declined comes back as
it was, and of one whose worker has died nothing comes back. -/
inductive Comes (programs : List String) (stopped : Bool) (g : TaskGroup) :
    List Call → Result → Prop
  | declined (off : stopped = true) : Comes programs stopped g [] (.ok (g, .cancelled))
  | ended {calls : List Call} {ending : Ending} (ends : Ends programs stopped g.tasks calls ending) :
    Comes programs stopped g calls (.ok ((g.conclude ending).1, ending.outcome))
  | died {calls : List Call} {call : Call} {message : LastWords}
    (fine : ∀ c ∈ calls, c.succeeded = true)
    (asked : (calls ++ [call]).map (·.command) <+: g.commands programs)
    (why : call.answer.reply = .crashed message) :
    Comes programs stopped g (calls ++ [call]) (.error message)

/-- The calls of a job are the first of its commands, and all but the last have succeeded. -/
theorem Ends.inTurn {programs : List String} {stopped : Bool} {tasks : List Task}
    {calls : List Call} {ending : Ending} (ends : Ends programs stopped tasks calls ending) :
    (∀ c ∈ calls.dropLast, c.succeeded = true) ∧
      calls.map (·.command) <+: openCommands programs tasks := by
  cases ends with
  | completed fine all =>
    exact ⟨fun c hc => fine c (List.dropLast_subset _ hc), all ▸ List.prefix_refl _⟩
  | @failed calls call done rest t behind ahead phase _ fine split isOpen chores asked why =>
    refine ⟨by simpa using fine, ?_⟩
    rw [List.map_append, asked]
    exact (Asked.At.mk split isOpen chores).isPrefix
  | calledOff off fine asked back =>
    exact ⟨fun c hc => fine c (List.dropLast_subset _ hc), asked⟩
  | recalled fine asked why back => exact ⟨by simpa using fine, asked⟩

/-- A completed job has made all its calls, and all with success. -/
theorem Ends.fine_of_completed {programs : List String} {stopped : Bool} {tasks left : List Task}
    {calls : List Call} (ends : Ends programs stopped tasks calls ⟨left, .completed⟩) :
    (∀ c ∈ calls, c.succeeded = true) ∧
      calls.map (·.command) = openCommands programs tasks ∧ left = tasks.map Task.settled := by
  cases ends with
  | completed fine all => exact ⟨fine, all, rfl⟩

theorem Comes.inTurn {programs : List String} {stopped : Bool} {g : TaskGroup} {calls : List Call}
    {r : Result} (comes : Comes programs stopped g calls r) :
    (∀ c ∈ calls.dropLast, c.succeeded = true) ∧
      calls.map (·.command) <+: g.commands programs := by
  cases comes with
  | declined off => exact ⟨by simp, List.nil_prefix⟩
  | ended ends => exact ends.inTurn
  | died fine asked why => exact ⟨by simpa using fine, asked⟩

/-! ## A worker at its post -/

/-- The worker of a group at its post, after the events seen of it. This is the invariant of a worker:
the events say which calls have ended with success, and the post says where among the commands it
stands. -/
inductive Progress (programs : List String) (stopped : Bool) (g : TaskGroup) :
    List Event → Post → Prop
  | fresh : Progress programs stopped g [] .fresh
  | busy {calls : List Call} {job : Job} (fine : ∀ c ∈ calls, c.succeeded = true)
    (stands : job.At programs g.tasks (calls.map (·.command))) :
    Progress programs stopped g (log calls) (.busy job)
  | waits {calls : List Call} {asked : Asked} {call : Call}
    (fine : ∀ c ∈ calls, c.succeeded = true)
    (stands : asked.At programs g.tasks (calls.map (·.command)))
    (command : call.command = asked.command) (group : call.group = some g.name) :
    Progress programs stopped g (log calls ++ [.began call]) (.waits asked call)
  | through {calls : List Call} {r : Result} (comes : Comes programs stopped g calls r) :
    Progress programs stopped g (log calls) (.through r)

/-- What a worker does without being stopped it may also do when it is. -/
theorem Ends.mono {programs : List String} {stopped stopped' : Bool} {tasks : List Task}
    {calls : List Call} {ending : Ending} (h : Ends programs stopped tasks calls ending)
    (le : stopped = true → stopped' = true) : Ends programs stopped' tasks calls ending := by
  cases h with
  | completed fine all => exact .completed fine all
  | failed fine split isOpen chores asked why => exact .failed fine split isOpen chores asked why
  | calledOff off fine asked back => exact .calledOff (le off) fine asked back
  | recalled fine asked why back => exact .recalled fine asked why back

theorem Comes.mono {programs : List String} {stopped stopped' : Bool} {g : TaskGroup}
    {calls : List Call} {r : Result} (h : Comes programs stopped g calls r)
    (le : stopped = true → stopped' = true) : Comes programs stopped' g calls r := by
  cases h with
  | declined off => exact .declined (le off)
  | ended ends => exact .ended (ends.mono le)
  | died fine asked why => exact .died fine asked why

theorem Progress.mono {programs : List String} {stopped stopped' : Bool} {g : TaskGroup}
    {es : List Event} {p : Post} (h : Progress programs stopped g es p)
    (le : stopped = true → stopped' = true) : Progress programs stopped' g es p := by
  cases h with
  | fresh => exact .fresh
  | busy fine stands => exact .busy fine stands
  | waits fine stands command group => exact .waits fine stands command group
  | through comes => exact .through (comes.mono le)

theorem Progress.comes {programs : List String} {stopped : Bool} {g : TaskGroup}
    {es : List Event} {r : Result} (h : Progress programs stopped g es (.through r)) :
    ∃ calls, es = log calls ∧ Comes programs stopped g calls r := by
  cases h with
  | through comes => exact ⟨_, rfl, comes⟩

theorem fine_append {calls : List Call} {call : Call} (fine : ∀ c ∈ calls, c.succeeded = true)
    (last : call.succeeded = true) : ∀ c ∈ calls ++ [call], c.succeeded = true := by
  intro c hc
  rcases List.mem_append.mp hc with hc | hc
  · exact fine c hc
  · rw [List.mem_singleton.mp hc]
    exact last

/-! ## One step -/

/-- When a command fails, its task fails with the diagnostic and those behind it are left alone. Tasks
before it stay completed. -/
theorem ends_of_failing {programs : List String} {stopped : Bool} {tasks : List Task}
    {calls : List Call} {call : Call} {a : Asked} {diagnostic : String}
    {lines : List Journal.Line} {ending : Ending} (fine : ∀ c ∈ calls, c.succeeded = true)
    (stands : a.At programs tasks (calls.map (·.command))) (command : call.command = a.command)
    (why : call.answer.reply.diagnostic? = some diagnostic)
    (failing : a.failing diagnostic = .stop lines ending) :
    Ends programs stopped tasks (calls ++ [call]) ending := by
  -- the commands asked are an index of `At`, so they become a variable before the case split
  generalize hasked : calls.map (·.command) = asked at stands
  cases stands with
  | @mk done rest t behind ahead phase command' split isOpen chores =>
    subst command
    rw [Asked.failing, Settled.stop.injEq, Job.tasksWith_assigned] at failing
    rw [← failing.2]
    exact @Ends.failed programs stopped tasks calls call done rest t behind ahead phase diagnostic
      fine split isOpen chores hasked why

/-- When a command reports itself cancelled, its task is given back and those behind it are left alone.
-/
theorem ends_of_recalled {programs : List String} {stopped : Bool} {tasks : List Task}
    {calls : List Call} {call : Call} {a : Asked} (fine : ∀ c ∈ calls, c.succeeded = true)
    (stands : a.At programs tasks (calls.map (·.command))) (command : call.command = a.command)
    (why : call.answer.reply = .refused .cancelled) :
    Ends programs stopped tasks (calls ++ [call])
      ⟨a.next.tasksWith ({ · with status := .pending }), .cancelled⟩ := by
  refine .recalled fine ?_ why stands.calledOff
  have hprefix := stands.isPrefix
  rw [← command] at hprefix
  simpa using hprefix

section Step

variable {σ : Type} {h : Host σ} {s : RunSettings} {cancelled : Bool} {g : TaskGroup}
  {w w' : World σ} {p p' : Post} {es es' : List Event}

/-- A step of a worker takes it forward on its way, whatever others have done in between. -/
theorem WorkStep.progress (step : WorkStep h s cancelled g w p es' w' p')
    (before : Progress s.programs cancelled g es p) :
    Progress s.programs cancelled g (es ++ es') p' := by
  -- what a move does to the job is `Job.At.move`; the branch taken is the one the step names
  cases step with
  | start free =>
    cases before
    have hstart := Job.At.ofTasks s.programs g.tasks
    exact @Progress.busy s.programs cancelled g [] _ (by simp) hstart
  | decline off =>
    cases before
    exact .through (.declined off)
  | go moved =>
    cases before with
    | busy fine stands =>
      have hm := stands.move cancelled
      rw [moved] at hm
      rw [List.append_nil]
      exact .busy fine hm
  | ask moved called =>
    cases before with
    | busy fine stands =>
      have hm := stands.move cancelled
      rw [moved] at hm
      exact .waits fine hm.2 rfl rfl
  | @stop job ending moved =>
    cases before with
    | busy fine stands =>
      have hm := stands.move cancelled
      rw [moved] at hm
      rw [List.append_nil]
      refine .through (.ended ?_)
      rcases hm with ⟨rfl, hall⟩ | ⟨off, hout, hback⟩
      · exact .completed fine hall
      · obtain ⟨left, outcome⟩ := ending
        subst hout
        exact .calledOff off fine stands.isPrefix hback
  | @goOn asked call due settled =>
    cases before with
    | @waits calls _ _ fine stands command group =>
      have hnext := stands.next
      rw [← command] at hnext
      have hlast : call.succeeded = true := Asked.succeeded_of_goOn settled
      have hbusy := @Progress.busy s.programs cancelled g (calls ++ [call]) asked.next
        (fine_append fine hlast) (by simpa using hnext)
      simpa using hbusy
  | @giveUp asked call lines ending due settled =>
    cases before with
    | @waits calls _ _ fine stands command group =>
      have hends : Ends s.programs cancelled g.tasks (calls ++ [call]) ending := by
        rcases Asked.stop_cases settled with ⟨d, hd, hs⟩ | ⟨hr, rfl⟩
        · exact ends_of_failing fine stands command hd hs
        · exact ends_of_recalled fine stands command hr
      simpa using Progress.through (.ended hends)
  | @die asked call message due settled =>
    cases before with
    | @waits calls _ _ fine stands command group =>
      have hprefix := stands.isPrefix
      rw [← command] at hprefix
      have hcomes := @Comes.died s.programs cancelled g calls call message fine
        (by simpa [TaskGroup.commands] using hprefix) (Asked.crashed_of_dead settled)
      simpa using Progress.through hcomes

theorem Works.progress (works : Works h s cancelled g w p es' w' p')
    (before : Progress s.programs cancelled g es p) :
    Progress s.programs cancelled g (es ++ es') p' := by
  induction works with
  | refl => rwa [List.append_nil]
  | step works next ih =>
    rw [← List.append_assoc]
    exact next.progress ih
  | pass works later ih => exact ih

/-- A step of a worker has at most one event, which is about a call of its own group. -/
theorem WorkStep.events_cases (step : WorkStep h s cancelled g w p es' w' p')
    (before : Progress s.programs cancelled g es p) :
    es' = [] ∨ ∃ call, call.group = some g.name ∧ (es' = [.began call] ∨ es' = [.ended call]) := by
  cases step with
  | start | decline | go | stop => exact .inl rfl
  | ask moved called => exact .inr ⟨_, rfl, .inl rfl⟩
  | goOn | giveUp | die =>
    -- the call that ends is the one the worker waits for, which `Progress` knows
    cases before with
    | waits fine stands command group => exact .inr ⟨_, group, .inr rfl⟩

/-- What the host is asked it answers. -/
theorem WorkStep.answered (step : WorkStep h s cancelled g w p es' w' p') {call : Call}
    (began : .began call ∈ es') :
    call.timeout = s.commandMillis ∧
      ∃ memory, call.answer = (h.run memory call.command s.commandMillis).1 := by
  cases step with
  | @ask _ _ asked answer moved called =>
    rw [List.mem_singleton, Event.began.injEq] at began
    subst began
    rw [World.call, Prod.mk.injEq] at called
    exact ⟨rfl, w.host, called.1.symm⟩
  | start | decline | go | stop => simp at began
  | goOn | giveUp | die => simp at began

/-- The calls in the log of the host are those that have begun. -/
theorem WorkStep.calls (step : WorkStep h s cancelled g w p es' w' p') :
    w'.calls = w.calls ++ begun es' := by
  cases step with
  | @ask _ _ asked answer moved called =>
    rw [World.call, Prod.mk.injEq] at called
    obtain ⟨rfl, rfl⟩ := called
    rfl
  | start | decline | go | stop => simp [World.say]
  | goOn | giveUp | die => simp [World.say, begun]

end Step

end Interleaving

end Runbook
