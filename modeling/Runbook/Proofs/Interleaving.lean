import Runbook.Execution.Schedule

/-!
# Runs of groups in any order of events

A crew goes through the answers of its workers in the order in which they are due (`Crew.finish`).
Nothing but that order says who goes on first, how soon a failure is noticed, or when an answer is
looked at. Here all of that is left open: `Step` lets any worker of a batch make its next move at
any time, lets an answer be received at any time after it is due, and lets the scheduler notice a
worker that has ended at any time after it has. What a worker may do is the same as before: its
moves are those of `Job.move`, replies are taken in by `Asked.settle` and results by
`Crew.collect`. A worker sees that it is cancelled when a failure has been noticed.

`Leads` is any number of steps, with the events that are seen from outside. A batch of one is a
crew of one, whose death ends the run.
-/

set_option autoImplicit false

namespace Runbook

variable {σ : Type}

/-- The bench at which groups are carried out with some settings. Only the programs and the timeout go
into it: how many groups run at once is for the scheduler to know. -/
def Bench.ofSettings (h : Host σ) (s : RunSettings) : Bench σ :=
  { host := h, programs := s.programs, timeout := s.commandMillis }

namespace Interleaving

/-- Something that is seen of a run from outside. What workers do among themselves leaves no event, so
that statements about calls and batches are statements about lists of these. -/
inductive Event where
  /-- The groups at some places are taken up as one batch. -/
  | taken (batch : List Nat)
  /-- A command is handed to the host. -/
  | began (call : Call)
  /-- Its answer has been received. -/
  | ended (call : Call)
deriving DecidableEq, Repr

/-! ## One worker -/

/-- Where a worker of a batch stands. A call stays in flight until its answer is received, and a worker
that has ended stays until it is noticed, since both may happen late. -/
inductive Post where
  /-- It has not been heard of yet. -/
  | fresh
  | busy (job : Job)
  /-- Its command is being run. -/
  | waits (asked : Asked) (call : Call)
  /-- It has ended, and the scheduler has not noticed yet. -/
  | through (result : Result)
deriving Repr

/-- One step of the worker of a group, who may see that it is cancelled. It looks only before it starts
and between commands: a command that is running is never interrupted. -/
inductive WorkStep (h : Host σ) (s : RunSettings) (cancelled : Bool) (g : TaskGroup) :
    World σ → Post → List Event → World σ → Post → Prop
  | start {w : World σ} (free : cancelled = false) :
    WorkStep h s cancelled g w .fresh [] (w.say h [g.entryLine])
      (.busy (Job.ofTasks s.programs g.tasks))
  | decline {w : World σ} (off : cancelled = true) :
    WorkStep h s cancelled g w .fresh [] w (.through (.ok (g, .cancelled)))
  | go {w : World σ} {job next : Job} {lines : List Journal.Line}
    (moved : job.move cancelled = .go lines next) :
    WorkStep h s cancelled g w (.busy job) [] (w.say h lines) (.busy next)
  | ask {w w' : World σ} {job : Job} {asked : Asked} {answer : Answer}
    (moved : job.move cancelled = .ask asked)
    (called : w.call h (some g.name) asked.command s.commandMillis = (answer, w')) :
    WorkStep h s cancelled g w (.busy job)
      [.began ⟨some g.name, asked.command, s.commandMillis, w.clock, answer⟩] w'
      (.waits asked ⟨some g.name, asked.command, s.commandMillis, w.clock, answer⟩)
  | stop {w : World σ} {job : Job} {ending : Ending}
    (moved : job.move cancelled = .stop ending) :
    WorkStep h s cancelled g w (.busy job) [] (w.say h [(g.conclude ending).2])
      (.through (.ok ((g.conclude ending).1, ending.outcome)))
  | goOn {w : World σ} {asked : Asked} {call : Call} (due : call.due ≤ w.clock)
    (settled : asked.settle call.answer.reply = .goOn) :
    WorkStep h s cancelled g w (.waits asked call) [.ended call] w (.busy asked.next)
  | giveUp {w : World σ} {asked : Asked} {call : Call} {lines : List Journal.Line}
    {ending : Ending} (due : call.due ≤ w.clock)
    (settled : asked.settle call.answer.reply = .stop lines ending) :
    WorkStep h s cancelled g w (.waits asked call) [.ended call]
      ((w.say h lines).say h [(g.conclude ending).2])
      (.through (.ok ((g.conclude ending).1, ending.outcome)))
  | die {w : World σ} {asked : Asked} {call : Call} {message : LastWords}
    (due : call.due ≤ w.clock) (settled : asked.settle call.answer.reply = .dead message) :
    WorkStep h s cancelled g w (.waits asked call) [.ended call] w (.through (.error message))

/-- Steps of one worker while nobody else does anything but let time pass. A crew of one is such a
worker, and what is proved here about its calls holds for each worker of a larger batch. -/
inductive Works (h : Host σ) (s : RunSettings) (cancelled : Bool) (g : TaskGroup) (w : World σ)
    (p : Post) : List Event → World σ → Post → Prop
  | refl : Works h s cancelled g w p [] w p
  | step {es es' : List Event} {w' w'' : World σ} {p' p'' : Post}
    (works : Works h s cancelled g w p es w' p')
    (next : WorkStep h s cancelled g w' p' es' w'' p'') :
    Works h s cancelled g w p (es ++ es') w'' p''
  | pass {es : List Event} {w' : World σ} {p' : Post} {moment : Nat}
    (works : Works h s cancelled g w p es w' p') (later : w'.clock ≤ moment) :
    Works h s cancelled g w p es (w'.waitUntil moment) p'

/-! ## A whole run -/

abbrev Hand := Worker × Post

/-- A run of groups at some moment: before its check for cycles, between batches, within one, or ended.
-/
inductive Config (σ : Type) where
  | fresh (world : World σ) (groups : List TaskGroup)
  /-- No batch is under way; so many rounds are left, and these names have been completed. -/
  | between (left : Nat) (world : World σ) (groups : List TaskGroup) (completed : List String)
  /-- A batch is under way, with the hands that the scheduler still waits for. -/
  | within (left : Nat) (crew : Crew σ) (completed : List String) (batch : List Nat)
    (hands : List Hand)
  | home (report : Schedule.Report σ)
  /-- A worker that worked alone has died. -/
  | lost (message : LastWords)

namespace Config

def groups : Config σ → List TaskGroup
  | .fresh _ groups | .between _ _ groups _ => groups
  | .within _ crew _ _ _ => crew.groups
  | .home report => report.groups
  | .lost _ => []

def ofResult : Except LastWords (Schedule.Report σ) → Config σ
  | .ok report => .home report
  | .error message => .lost message

end Config

/-- The hands of a batch before anyone has begun, in the order in which the groups are taken up. -/
def freshHands (groups : List TaskGroup) (batch : List Nat) : List Hand :=
  batch.filterMap fun place => groups[place]?.map fun g => (⟨place, g⟩, .fresh)

/-- What is said when a batch is taken up; one group by itself is nothing to speak of. -/
def batchLines (batch : List Nat) : List Journal.Line :=
  if batch.length = 1 then []
  else [.info ("Executing " ++ toString batch.length ++ " groups in parallel...")]

/-- One thing that happens in a run of groups. The scheduler itself has no choice: in each shape of a
run at most one of its own steps is possible. Everything open about a run is open within a batch, where
several hands may have something to do. -/
inductive Step (h : Host σ) (s : RunSettings) : Config σ → List Event → Config σ → Prop
  | refuse {w : World σ} {groups : List TaskGroup} {path : List String}
    (cycle : Dependency.cycle? groups = some path) :
    Step h s (.fresh w groups) []
      (.home (.refuse h w groups (.circularDependency (" -> ".intercalate path))))
  | accept {w : World σ} {groups : List TaskGroup} (acyclic : Dependency.cycle? groups = none) :
    Step h s (.fresh w groups) []
      (.between (groups.length * 2) w groups (Schedule.completedNames groups))
  | finish {left : Nat} {w : World σ} {groups : List TaskGroup} {completed : List String}
    (all : groups.length ≤ completed.length) :
    Step h s (.between left w groups completed) [] (.home { world := w, groups })
  | tire {w : World σ} {groups : List TaskGroup} {completed : List String}
    (unfinished : completed.length < groups.length) :
    Step h s (.between 0 w groups completed) []
      (.home (.refuse h w groups (Schedule.givenUp groups)))
  | starve {left : Nat} {w : World σ} {groups : List TaskGroup} {completed : List String}
    (unfinished : completed.length < groups.length) (idle : Dependency.ready groups completed = []) :
    Step h s (.between (left + 1) w groups completed) []
      (.home (.refuse h w groups (.unmetDependency
        ((groups.filter fun g => !completed.contains g.name).map (·.name)))))
  | take {left : Nat} {w : World σ} {groups : List TaskGroup} {completed : List String}
    {batch : List Nat} (unfinished : completed.length < groups.length)
    (ready : Dependency.ready groups completed ≠ [])
    (first : batch = (Dependency.ready groups completed).take s.effectiveBatchSize) :
    Step h s (.between (left + 1) w groups completed) [.taken batch]
      (.within left { world := w.say h (batchLines batch), groups } completed batch
        (freshHands groups batch))
  /-- A worker goes on. Whoever is listed first may; see `pass`. -/
  | work {left : Nat} {crew : Crew σ} {completed : List String} {batch : List Nat}
    {worker : Worker} {p p' : Post} {hands : List Hand} {es : List Event} {w : World σ}
    (step : WorkStep h s crew.error.isSome worker.group crew.world p es w p') :
    Step h s (.within left crew completed batch ((worker, p) :: hands)) es
      (.within left { crew with world := w } completed batch ((worker, p') :: hands))
  /-- The scheduler notices that a worker has ended. -/
  | notice {left : Nat} {crew : Crew σ} {completed : List String} {batch : List Nat}
    {worker : Worker} {r : Result} {hands : List Hand}
    (kept : batch.length = 1 → ∃ x, r = .ok x) :
    Step h s (.within left crew completed batch ((worker, .through r) :: hands)) []
      (.within left (crew.collect h (worker, r)) completed batch hands)
  | lose {left : Nat} {crew : Crew σ} {completed : List String} {batch : List Nat}
    {worker : Worker} {message : LastWords} {hands : List Hand} (alone : batch.length = 1) :
    Step h s (.within left crew completed batch ((worker, .through (.error message)) :: hands))
      [] (.lost message)
  /-- Time passes. The order in which hands are listed means nothing. -/
  | pass {left : Nat} {crew : Crew σ} {completed : List String} {batch : List Nat}
    {hands hands' : List Hand} {moment : Nat} (later : crew.world.clock ≤ moment)
    (same : hands.Perm hands') :
    Step h s (.within left crew completed batch hands) []
      (.within left { crew with world := crew.world.waitUntil moment } completed batch hands')
  | abort {left : Nat} {crew : Crew σ} {completed : List String} {batch : List Nat}
    {e : PlanError} (failed : crew.error = some e) :
    Step h s (.within left crew completed batch []) []
      (.home { world := crew.world, groups := crew.groups, error := crew.error })
  | next {left : Nat} {crew : Crew σ} {completed : List String} {batch : List Nat}
    (well : crew.error = none) :
    Step h s (.within left crew completed batch []) []
      (.between left crew.world crew.groups
        (Schedule.addCompleted crew.groups batch completed))

/-- A run leads from one moment to another, by way of some events. It is built at its end, so that an
induction on it asks what the last step has preserved. -/
inductive Leads (h : Host σ) (s : RunSettings) (c : Config σ) : List Event → Config σ → Prop
  | refl : Leads h s c [] c
  | step {es es' : List Event} {c' c'' : Config σ} (leads : Leads h s c es c')
    (next : Step h s c' es' c'') : Leads h s c (es ++ es') c''

namespace Leads

variable {h : Host σ} {s : RunSettings} {a b c : Config σ} {es es' : List Event}

theorem single (next : Step h s a es b) : Leads h s a es b := by
  simpa using Leads.refl.step next

theorem trans (first : Leads h s a es b) (second : Leads h s b es' c) :
    Leads h s a (es ++ es') c := by
  induction second with
  | refl => simpa using first
  | step leads next ih => simpa [List.append_assoc] using ih.step next

end Leads

/-! ## What is read off events -/

/-- The calls that have begun, in their order. What a run has asked of its host is this and nothing
else. -/
def begun (es : List Event) : List Call :=
  es.filterMap fun
    | .began call => some call
    | .taken _ | .ended _ => none

@[simp] theorem begun_nil : begun [] = [] := rfl

@[simp] theorem begun_append (es es' : List Event) : begun (es ++ es') = begun es ++ begun es' := by
  simp [begun]

/-- The calls in flight after one more event. Equal calls are told apart by their number only: the end
of one takes away one of them. -/
def flight (calls : List Call) : Event → List Call
  | .taken _ => calls
  | .began call => call :: calls
  | .ended call => calls.erase call

/-- The calls that have begun and not ended. -/
def inFlight (es : List Event) : List Call := es.foldl flight []

theorem inFlight_append (es es' : List Event) :
    inFlight (es ++ es') = es'.foldl flight (inFlight es) := by
  simp [inFlight]

/-- The events of calls that are made one after the other, each ended before the next has begun. -/
def log (calls : List Call) : List Event := calls.flatMap fun call => [.began call, .ended call]

@[simp] theorem log_nil : log [] = [] := rfl

@[simp] theorem log_append (calls calls' : List Call) :
    log (calls ++ calls') = log calls ++ log calls' := by
  simp [log]

@[simp] theorem log_singleton (call : Call) : log [call] = [.began call, .ended call] := rfl

/-- Each call that is logged has two events: it begins and it ends. -/
theorem length_log (calls : List Call) : (log calls).length = 2 * calls.length := by
  induction calls with
  | nil => rfl
  | cons call calls ih =>
    rw [log, List.flatMap_cons, ← log, List.length_append, ih, List.length_cons, List.length_cons,
      List.length_cons, List.length_nil]
    omega

theorem began_mem_log {calls : List Call} {call : Call} (mem : call ∈ calls) :
    .began call ∈ log calls :=
  List.mem_flatMap.mpr ⟨call, mem, List.mem_cons_self⟩

theorem ended_mem_log {calls : List Call} {call : Call} (mem : call ∈ calls) :
    .ended call ∈ log calls :=
  List.mem_flatMap.mpr ⟨call, mem, by simp⟩

@[simp] theorem begun_log (calls : List Call) : begun (log calls) = calls := by
  induction calls with
  | nil => rfl
  | cons call calls ih => simpa [begun, log] using ih

end Interleaving

/-! ## Small cases -/

/-- A host on which every command succeeds at once. -/
def Host.obliging : Host Unit where
  run := fun _ _ _ => ({ reply := .exited { exitCode := 0 } }, ())
  write := fun _ _ _ => (.ok (), ())

/-- Two groups, of which the second waits for the first. Neither can ever be in the batch of the other.
-/
def buildThenTest : List TaskGroup :=
  [{ name := "build", subsystem := "build"
     tasks := [{ Task.new 1 "compile" with steps := ["$ make"] }] },
   { name := "test", subsystem := "test", dependencies := ["build"]
     tasks := [{ Task.new 1 "check" with verify := "make check" }] }]

/-- The replies of a host whose linter complains, while everything else succeeds. -/
def lintReply (command : String) : Reply :=
  if command = "make lint" then .exited { exitCode := 2, stderr := "line too long" }
  else .exited { exitCode := 0 }

/-- A host with such replies. The linter takes longer than a single command, so that a group next to it is
half through when its complaint comes. -/
def Host.linting : Host Unit where
  run := fun _ command _ =>
    ({ delay := if command = "make lint" then 5 else 3, reply := lintReply command }, ())
  write := fun _ _ _ => (.ok (), ())

/-- Two groups that run side by side, and a third that waits for one of them. When the first fails, the
second is in the middle of its tasks and the third has not been taken up. -/
def lintAndBuild : List TaskGroup :=
  [{ name := "lint", subsystem := "lint"
     tasks := [{ Task.new 1 "style" with verify := "make lint" }] },
   { name := "build", subsystem := "build"
     tasks := [{ Task.new 1 "compile" with steps := ["$ make"], verify := "make check" },
       { Task.new 2 "pack" with verify := "make pack" }] },
   { name := "test", subsystem := "test", dependencies := ["build"]
     tasks := [{ Task.new 1 "check" with verify := "make test" }] }]

end Runbook
