import Runbook.Execution.Agenda

/-!
# What a job asks and what it leaves

The commands of a task are its steps that are commands and then its verify command
(`Task.commands`); a group's are those of its tasks that are not terminal. A job asks exactly
these, one after the other, and at every moment the tasks it holds follow from how many it has
asked: tasks done, one in hand, the others as they were (`Job.At`). That is the invariant of this
file, with `Job.At.move` for what a move does to it and `Asked.settle_cases` for what a reply does.

Everything a job can leave behind is read off it: all tasks done, a task failed with a diagnostic,
or a task given back.
-/

set_option autoImplicit false

namespace Runbook

/-! ## Commands -/

/-- The command that an act hands over. -/
def Act.command? : Act → Option String
  | .run _ command => some command
  | .enter | .announce _ | .leave => none

namespace Task

/-- The commands of a task, in order: the steps that are commands, then the verify command. -/
def commands (programs : List String) (t : Task) : List String :=
  t.steps.filterMap (executableCommand? programs) ++
    if t.hasVerify then [Text.trimmed t.verify] else []

/-- What there is to do between taking a task up and setting it down. -/
def chores (programs : List String) (t : Task) : List Act :=
  t.steps.flatMap (stepActs programs) ++ t.verifyActs

theorem agenda_eq (programs : List String) (t : Task) :
    t.agenda programs = .enter :: (t.chores programs ++ [.leave]) := by
  simp [agenda, chores]

/-- What the acts of steps ask is what the steps are commands for. Every step is announced, and an
announcement asks nothing. -/
theorem commands_of_steps (programs steps : List String) :
    (steps.flatMap (stepActs programs)).filterMap Act.command? =
      steps.filterMap (executableCommand? programs) := by
  induction steps with
  | nil => rfl
  | cons step steps ih =>
    rw [List.flatMap_cons, List.filterMap_append, ih]
    cases h : executableCommand? programs step with
    | none => simp [stepActs, h, List.filterMap_cons, Act.command?]
    | some command => simp [stepActs, h, List.filterMap_cons, Act.command?]

/-- The commands of a task are what its chores ask, in the same order. This is what ties the agenda of a
job, which is made of acts, to commands that the task itself can be asked for. -/
theorem filterMap_chores (programs : List String) (t : Task) :
    (t.chores programs).filterMap Act.command? = t.commands programs := by
  rw [chores, List.filterMap_append, commands_of_steps, commands]
  by_cases h : t.hasVerify
  · simp [verifyActs, h, List.filterMap_cons, Act.command?]
  · simp [verifyActs, h]

/-- Between taking a task up and setting it down nothing else is taken up or set down. -/
theorem chore_cases {programs : List String} {t : Task} {act : Act}
    (h : act ∈ t.chores programs) :
    (∃ line, act = .announce line) ∨ ∃ phase command, act = .run phase command := by
  rcases List.mem_append.mp h with h | h
  · obtain ⟨step, -, h⟩ := List.mem_flatMap.mp h
    unfold stepActs at h
    rcases List.mem_cons.mp h with rfl | h
    · exact .inl ⟨_, rfl⟩
    · split at h
      · exact .inr ⟨_, _, List.mem_singleton.mp h⟩
      · simp at h
  · unfold verifyActs at h
    split at h
    · rcases List.mem_cons.mp h with rfl | h
      · exact .inl ⟨_, rfl⟩
      · exact .inr ⟨_, _, List.mem_singleton.mp h⟩
    · simp at h

end Task

/-- The commands of tasks, in order. A terminal task has none any more. -/
def openCommands (programs : List String) (tasks : List Task) : List String :=
  (tasks.filter fun t => !t.isTerminal).flatMap (·.commands programs)

@[simp] theorem openCommands_nil (programs : List String) : openCommands programs [] = [] := rfl

theorem openCommands_append (programs : List String) (ts us : List Task) :
    openCommands programs (ts ++ us) = openCommands programs ts ++ openCommands programs us := by
  simp [openCommands]

theorem openCommands_cons_of_terminal {programs : List String} {t : Task} {ts : List Task}
    (h : t.isTerminal = true) : openCommands programs (t :: ts) = openCommands programs ts := by
  simp [openCommands, h]

/-- A task that is still open puts its commands before those of the tasks behind it. -/
theorem openCommands_cons_of_open {programs : List String} {t : Task} {ts : List Task}
    (h : t.isTerminal = false) :
    openCommands programs (t :: ts) = t.commands programs ++ openCommands programs ts := by
  simp [openCommands, h]

def TaskGroup.commands (programs : List String) (g : TaskGroup) : List String :=
  openCommands programs g.tasks

/-! ## Tasks on their way -/

namespace Task

def taken (t : Task) : Task := { t with status := .inProgress, error := none }

/-- The task, given back by a worker that had taken it up. -/
def released (t : Task) : Task := { t with status := .pending, error := none }

/-- The task once it is behind a worker: completed, unless there was nothing to do for it. A terminal
task keeps its own status, so what has failed earlier is not completed by being passed over. -/
def settled (t : Task) : Task :=
  if t.isTerminal then t else { t with status := .completed, error := none }

theorem settled_of_terminal {t : Task} (h : t.isTerminal = true) : t.settled = t := by
  simp [settled, h]

theorem settled_of_open {t : Task} (h : t.isTerminal = false) :
    t.settled = { t with status := .completed, error := none } := by
  simp [settled, h]

/-- A task as a job holds it before it gets there: nothing is on the agenda of a terminal one. -/
def assigned (programs : List String) (t : Task) : Assignment :=
  ⟨t, if t.isTerminal then [] else t.agenda programs⟩

end Task

theorem Job.tasksWith_assigned (programs : List String) (finished rest : List Task)
    (a : Assignment) (change : Task → Task) :
    (Job.mk finished (a :: rest.map (Task.assigned programs))).tasksWith change =
      finished ++ change a.task :: rest := by
  simp [Job.tasksWith, Function.comp_def, Task.assigned]

/-! ## Where a job stands -/

/-- A job of carrying out tasks that has asked some commands so far, all with success. The cases are the
three places between two moves, and each determines the whole job: there is no other state to be in. -/
inductive Job.At (programs : List String) (tasks : List Task) : List String → Job → Prop
  /-- Tasks are done and none is in hand. -/
  | resting {done rest : List Task} (split : tasks = done ++ rest) :
    At programs tasks (openCommands programs done)
      ⟨done.map Task.settled, rest.map (Task.assigned programs)⟩
  /-- A task is in hand, with some of its chores behind and some ahead. -/
  | inHand {done rest : List Task} {t : Task} {behind ahead : List Act}
    (split : tasks = done ++ t :: rest) (isOpen : t.isTerminal = false)
    (chores : t.chores programs = behind ++ ahead) :
    At programs tasks (openCommands programs done ++ behind.filterMap Act.command?)
      ⟨done.map Task.settled,
        ⟨t.taken, ahead ++ [.leave]⟩ :: rest.map (Task.assigned programs)⟩
  /-- The task in hand has been set down. -/
  | setDown {done rest : List Task} {t : Task}
    (split : tasks = done ++ t :: rest) (isOpen : t.isTerminal = false) :
    At programs tasks (openCommands programs (done ++ [t]))
      ⟨done.map Task.settled, ⟨t.settled, []⟩ :: rest.map (Task.assigned programs)⟩

/-- A command that such a job asks next, with the tasks around it. The command is not among the ones
that have been asked, since nothing is known of its reply. -/
inductive Asked.At (programs : List String) (tasks : List Task) : List String → Asked → Prop
  | mk {done rest : List Task} {t : Task} {behind ahead : List Act} {phase : Phase}
    {command : String} (split : tasks = done ++ t :: rest) (isOpen : t.isTerminal = false)
    (chores : t.chores programs = behind ++ .run phase command :: ahead) :
    At programs tasks (openCommands programs done ++ behind.filterMap Act.command?)
      ⟨phase, command, ⟨done.map Task.settled,
        ⟨t.taken, ahead ++ [.leave]⟩ :: rest.map (Task.assigned programs)⟩⟩

/-- The tasks of a job that was called off: the one in hand is given back and nothing after it has
been touched. -/
inductive CalledOff (tasks : List Task) : List Task → Prop
  | mk {done rest : List Task} {t t' : Task} (split : tasks = done ++ t :: rest)
    (isOpen : t.isTerminal = false) (given : t' = t ∨ t' = t.released) :
    CalledOff tasks (done.map Task.settled ++ t' :: rest)

namespace Job.At

variable {programs : List String} {tasks : List Task} {commands : List String} {j : Job}

/-- A job that has just been made out stands before its first task and has asked nothing. -/
theorem ofTasks (programs : List String) (tasks : List Task) :
    At programs tasks [] (Job.ofTasks programs tasks) :=
  @resting programs tasks [] tasks rfl

/-- What a job has asked is a first part of what there is to ask. No case of `At` leaves a command out
or asks one twice. -/
theorem isPrefix (h : At programs tasks commands j) :
    commands <+: openCommands programs tasks := by
  cases h with
  | resting split =>
    rw [split, openCommands_append]
    exact List.prefix_append _ _
  | inHand split isOpen chores =>
    rw [split, openCommands_append, openCommands_cons_of_open isOpen, ← Task.filterMap_chores,
      chores, List.filterMap_append, List.append_assoc]
    exact (List.prefix_append_right_inj _).mpr (List.prefix_append _ _)
  | @setDown done rest t split isOpen =>
    -- the task set down counts among those that are done
    have hsplit : tasks = (done ++ [t]) ++ rest := split.trans (List.append_cons _ _ _)
    rw [hsplit, openCommands_append programs (done ++ [t]) rest]
    exact List.prefix_append _ _

end Job.At

/-- The command that is asked next is the next one of the tasks, whichever task it belongs to. -/
theorem Asked.At.isPrefix {programs : List String} {tasks : List Task} {commands : List String}
    {a : Asked} (h : a.At programs tasks commands) :
    commands ++ [a.command] <+: openCommands programs tasks := by
  obtain ⟨split, isOpen, chores⟩ := h
  rw [split, openCommands_append, openCommands_cons_of_open isOpen, ← Task.filterMap_chores,
    chores, List.filterMap_append, List.filterMap_cons, List.append_assoc, List.append_assoc]
  simp only [Act.command?]
  refine (List.prefix_append_right_inj _).mpr ((List.prefix_append_right_inj _).mpr ?_)
  exact List.prefix_append [_] _

/-- Once the command has succeeded, the job stands behind it. -/
theorem Asked.At.next {programs : List String} {tasks : List Task} {commands : List String}
    {a : Asked} (h : a.At programs tasks commands) :
    a.next.At programs tasks (commands ++ [a.command]) := by
  cases h with
  | @mk done rest t behind ahead phase command split isOpen chores =>
    have hnext := @Job.At.inHand programs tasks done rest t (behind ++ [.run phase command]) ahead
      split isOpen (chores.trans (List.append_cons _ _ _))
    simpa [List.filterMap_cons, Act.command?] using hnext

/-- When the reply is that the command was cancelled, the task it belongs to is given back as if it had
never been taken up. The commands it has already run are not undone, so they may be run again. -/
theorem Asked.At.calledOff {programs : List String} {tasks : List Task} {commands : List String}
    {a : Asked} (h : a.At programs tasks commands) :
    CalledOff tasks (a.next.tasksWith ({ · with status := .pending })) := by
  cases h with
  | mk split isOpen chores =>
    rw [Job.tasksWith_assigned]
    exact .mk split isOpen (.inr rfl)

/-! ## What a move does -/

namespace Job.At

variable {programs : List String} {tasks : List Task} {commands : List String} {j : Job}

/-- Between tasks a job takes up the next one, passes it over if it is terminal, or is done. No command
is asked from here, and a cancelled job leaves the task before it untouched. -/
theorem move_resting {done rest : List Task} (split : tasks = done ++ rest) (cancelled : Bool) :
    match Job.move cancelled
      ⟨done.map Task.settled, rest.map (Task.assigned programs)⟩ with
    | .go _ next => next.At programs tasks (openCommands programs done)
    | .ask _ => False
    | .stop ending =>
      (ending = ⟨tasks.map Task.settled, .completed⟩ ∧ done = tasks) ∨
        (cancelled = true ∧ ending.outcome = .cancelled ∧ CalledOff tasks ending.tasks) := by
  cases rest with
  | nil =>
    subst split
    simp [move]
  | cons t rest =>
    by_cases hopen : t.isTerminal
    · -- nothing is asked for a terminal task, so it joins those that are done
      have hrest : openCommands programs done = openCommands programs (done ++ [t]) := by
        rw [openCommands_append, openCommands_cons_of_terminal hopen]
        simp
      have hnext := @resting programs tasks (done ++ [t]) rest
        (split.trans (List.append_cons _ _ _))
      rw [← hrest, List.map_append] at hnext
      simpa [move, Task.assigned, hopen, Task.settled_of_terminal hopen] using hnext
    · have hopen : t.isTerminal = false := by simpa using hopen
      cases cancelled with
      | true =>
        have hoff : CalledOff tasks (done.map Task.settled ++ t :: rest) :=
          .mk split hopen (.inl rfl)
        simpa [move, Task.assigned, hopen, Task.agenda_eq, tasksWith, Function.comp_def]
          using hoff
      | false =>
        have hnext := @inHand programs tasks done rest t [] (t.chores programs) split hopen rfl
        simpa [move, Task.assigned, hopen, Task.agenda_eq, Task.taken] using hnext

/-- With a task in hand a job goes through its chores. Only here is a command asked, and only here does
a cancellation find a task that has been taken up and must be given back. -/
theorem move_inHand {done rest : List Task} {t : Task} {behind ahead : List Act}
    (split : tasks = done ++ t :: rest) (isOpen : t.isTerminal = false)
    (chores : t.chores programs = behind ++ ahead) (cancelled : Bool) :
    match Job.move cancelled ⟨done.map Task.settled,
        ⟨t.taken, ahead ++ [.leave]⟩ :: rest.map (Task.assigned programs)⟩ with
    | .go _ next =>
      next.At programs tasks (openCommands programs done ++ behind.filterMap Act.command?)
    | .ask asked => cancelled = false ∧
      asked.At programs tasks (openCommands programs done ++ behind.filterMap Act.command?)
    | .stop ending =>
      cancelled = true ∧ ending.outcome = .cancelled ∧ CalledOff tasks ending.tasks := by
  cases ahead with
  | nil =>
    -- all chores are behind, and with them all commands of the task
    have hnext := @setDown programs tasks done rest t split isOpen
    rw [openCommands_append, openCommands_cons_of_open isOpen, ← Task.filterMap_chores, chores]
      at hnext
    simpa [move, Task.settled_of_open isOpen, Task.taken] using hnext
  | cons act ahead =>
    have hmem : act ∈ t.chores programs := by rw [chores]; simp
    rcases Task.chore_cases hmem with ⟨line, rfl⟩ | ⟨phase, command, rfl⟩
    · have hnext := @inHand programs tasks done rest t (behind ++ [.announce line]) ahead split
        isOpen (chores.trans (List.append_cons _ _ _))
      simpa [move, List.filterMap_cons, Act.command?] using hnext
    · cases cancelled with
      | true =>
        -- the task has been taken up, so it is given back rather than left alone
        have hoff : CalledOff tasks (done.map Task.settled ++ t.released :: rest) :=
          .mk split isOpen (.inr rfl)
        simpa [move, tasksWith, Function.comp_def, Task.assigned, Task.taken, Task.released]
          using hoff
      | false =>
        have hasked := Asked.At.mk split isOpen chores
        simpa [move] using hasked

/-- Whatever a job does next, it stands somewhere among its tasks: only when it asks does it get
ahead in their commands, it ends by itself only behind all of them, and it is called off only when
it has been cancelled. -/
theorem move (h : j.At programs tasks commands) (cancelled : Bool) :
    match Job.move cancelled j with
    | .go _ next => next.At programs tasks commands
    | .ask asked => cancelled = false ∧ asked.At programs tasks commands
    | .stop ending =>
      (ending = ⟨tasks.map Task.settled, .completed⟩ ∧
          commands = openCommands programs tasks) ∨
        (cancelled = true ∧ ending.outcome = .cancelled ∧ CalledOff tasks ending.tasks) := by
  cases h with
  | @resting done rest split =>
    have hm := @move_resting programs tasks done rest split cancelled
    split at hm
    · exact hm
    · exact hm.elim
    · exact hm.imp_left fun ⟨he, hd⟩ => ⟨he, by rw [hd]⟩
  | inHand split isOpen chores =>
    have hm := move_inHand split isOpen chores cancelled
    split at hm
    · exact hm
    · exact hm
    · exact .inr hm
  | @setDown done rest t split isOpen =>
    have hnext := @resting programs tasks (done ++ [t]) rest
      (split.trans (List.append_cons _ _ _))
    simpa [Job.move] using hnext

end Job.At

/-! ## What a reply does -/

/-- Why a command has failed. A command that was cancelled has not, and a crash is beyond diagnosis: it
ends the worker and leaves nothing to say about the task. -/
def Reply.diagnostic? : Reply → Option String
  | .exited output => if output.succeeded then none else some output.failureDetail
  | .refused .cancelled => none
  | .refused error => some error.message
  | .crashed _ => none

theorem Reply.diagnostic?_of_succeeded {reply : Reply} (h : reply.succeeded = true) :
    reply.diagnostic? = none := by
  cases reply with
  | exited output => exact if_pos h
  | refused error => cases h
  | crashed message => cases h

namespace Asked

variable {a : Asked} {reply : Reply}

/-- A reply is a success, a failure with a diagnostic, a cancellation or a crash. Whoever wants to know
what becomes of a worker splits here, and not on the kinds of reply. -/
theorem settle_cases (a : Asked) (reply : Reply) :
    (reply.succeeded = true ∧ a.settle reply = .goOn) ∨
      (∃ d, reply.diagnostic? = some d ∧ a.settle reply = a.failing d) ∨
      (reply = .refused .cancelled ∧ a.settle reply =
        .stop [] ⟨a.next.tasksWith ({ · with status := .pending }), .cancelled⟩) ∨
      ∃ message, reply = .crashed message ∧ a.settle reply = .dead message := by
  cases reply with
  | exited output =>
    by_cases h : output.succeeded
    · exact .inl ⟨h, by simp [settle, h]⟩
    · exact .inr (.inl ⟨output.failureDetail, by simp [Reply.diagnostic?, h], by simp [settle, h]⟩)
  | refused error =>
    cases error with
    | cancelled => exact .inr (.inr (.inl ⟨rfl, rfl⟩))
    | notStarted cause => exact .inr (.inl ⟨_, rfl, rfl⟩)
    | timedOut millis => exact .inr (.inl ⟨_, rfl, rfl⟩)
  | crashed message => exact .inr (.inr (.inr ⟨message, rfl, rfl⟩))

theorem succeeded_of_goOn (h : a.settle reply = .goOn) : reply.succeeded = true := by
  rcases a.settle_cases reply with ⟨hr, -⟩ | ⟨d, -, hs⟩ | ⟨-, hs⟩ | ⟨m, -, hs⟩
  · exact hr
  · rw [h, failing] at hs; cases hs
  · rw [h] at hs; cases hs
  · rw [h] at hs; cases hs

/-- A worker that is stopped by a reply has failed its task or gives it back; those are the two ways for
a group to end with an open task. -/
theorem stop_cases {lines : List Journal.Line} {ending : Ending}
    (h : a.settle reply = .stop lines ending) :
    (∃ d, reply.diagnostic? = some d ∧ a.failing d = .stop lines ending) ∨
      (reply = .refused .cancelled ∧
        ending = ⟨a.next.tasksWith ({ · with status := .pending }), .cancelled⟩) := by
  rcases a.settle_cases reply with ⟨-, hs⟩ | ⟨d, hd, hs⟩ | ⟨hr, hs⟩ | ⟨m, -, hs⟩
  · rw [h] at hs; cases hs
  · exact .inl ⟨d, hd, hs.symm.trans h⟩
  · rw [h, Settled.stop.injEq] at hs
    exact .inr ⟨hr, hs.2⟩
  · rw [h] at hs; cases hs

theorem crashed_of_dead {message : String} (h : a.settle reply = .dead message) :
    reply = .crashed message := by
  rcases a.settle_cases reply with ⟨-, hs⟩ | ⟨d, -, hs⟩ | ⟨-, hs⟩ | ⟨m, hr, hs⟩
  · rw [h] at hs; cases hs
  · rw [h, failing] at hs; cases hs
  · rw [h] at hs; cases hs
  · rw [h, Settled.dead.injEq] at hs
    rw [hr, hs]

end Asked

end Runbook
