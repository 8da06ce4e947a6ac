import Runbook.Execution.Agenda

/-!
# Workers

A worker carries out the job of a group. Working *alone* it waits for every answer (`alone`).
Working beside others it gives way while it waits: a *turn* runs up to the first answer that is
still due (`turn`), and the next one goes on from that answer (`resume`).

What a worker does between two answers is the same in both ways; they differ only in who waits.
-/

set_option autoImplicit false

namespace Runbook

variable {σ : Type}

/-- What a worker works with: a host, the words that make a step a command, the milliseconds that
commands are given, the group it works for, and how to find out whether it has been cancelled. -/
structure Bench (σ : Type) where
  host : Host σ
  programs : List String
  timeout : Nat
  group : Option String := none
  cancelled : World σ → Bool := fun _ => false

/-- What is left of a worker that has died. -/
abbrev LastWords := String

namespace Bench

/-- Carry out a job, waiting for every answer. -/
def alone (b : Bench σ) (w : World σ) (job : Job) : Except LastWords (Ending × World σ) :=
  match _moved : job.move (b.cancelled w) with
  | .go lines next => b.alone (w.say b.host lines) next
  | .stop ending => .ok (ending, w)
  | .ask asked =>
    match w.call b.host b.group asked.command b.timeout with
    | (answer, w) =>
      let w := w.waitUntil (w.clock + answer.delay)
      match asked.settle answer.reply with
      | .goOn => b.alone w asked.next
      | .stop lines ending => .ok (ending, w.say b.host lines)
      | .dead message => .error message
termination_by job.size
decreasing_by
  · exact Job.size_of_go _moved
  · exact Job.size_of_ask _moved

end Bench

/-- A worker that waits for an answer. -/
structure Waiting where
  due : Nat
  asked : Asked
  reply : Reply
deriving DecidableEq, Repr

/-- How a worker's turn ends. -/
inductive Turn where
  | waits (waiting : Waiting)
  | ends (ending : Ending)
  | dies (message : LastWords)
deriving DecidableEq, Repr

namespace Bench

def forGroup (b : Bench σ) (g : TaskGroup) : Bench σ := { b with group := some g.name }

/-- Work up to the first answer that is still due. An answer that comes at once is taken in the same
turn, so nobody else gets in between. -/
def turn (b : Bench σ) (w : World σ) (job : Job) : Turn × World σ :=
  match _moved : job.move (b.cancelled w) with
  | .go lines next => b.turn (w.say b.host lines) next
  | .stop ending => (.ends ending, w)
  | .ask asked =>
    match w.call b.host b.group asked.command b.timeout with
    | (answer, w) =>
      if answer.delay = 0 then
        match asked.settle answer.reply with
        | .goOn => b.turn w asked.next
        | .stop lines ending => (.ends ending, w.say b.host lines)
        | .dead message => (.dies message, w)
      else (.waits ⟨w.clock + answer.delay, asked, answer.reply⟩, w)
termination_by job.size
decreasing_by
  · exact Job.size_of_go _moved
  · exact Job.size_of_ask _moved

/-- Go on from the answer that was waited for. -/
def resume (b : Bench σ) (w : World σ) (waiting : Waiting) : Turn × World σ :=
  match waiting.asked.settle waiting.reply with
  | .goOn => b.turn w waiting.asked.next
  | .stop lines ending => (.ends ending, w.say b.host lines)
  | .dead message => (.dies message, w)

/-- What is left to do behind an answer is less than before. -/
theorem size_of_waits {b : Bench σ} {w w' : World σ} {job : Job} {waiting : Waiting}
    (h : b.turn w job = (.waits waiting, w')) : waiting.asked.next.size < job.size := by
  fun_induction turn b w job with
  | case1 w job lines next hm ih => exact Nat.lt_trans (ih h) (Job.size_of_go hm)
  | case2 => simp at h
  | case3 w job asked hm answer w1 hc hd hs ih =>
    exact Nat.lt_trans (ih h) (Job.size_of_ask hm)
  | case4 => simp at h
  | case5 => simp at h
  | case6 w job asked hm answer w1 hc hd =>
    simp only [Prod.mk.injEq, Turn.waits.injEq] at h
    obtain ⟨rfl, -⟩ := h
    exact Job.size_of_ask hm

theorem size_of_resume {b : Bench σ} {w w' : World σ} {before after : Waiting}
    (h : b.resume w before = (.waits after, w')) :
    after.asked.next.size < before.asked.next.size := by
  unfold resume at h
  split at h
  · exact size_of_waits h
  · simp at h
  · simp at h

end Bench

/-! ## Groups -/

/-- What is said when a group is taken up. -/
def TaskGroup.entryLine (g : TaskGroup) : Journal.Line := .info ("Executing group: " ++ g.name)

/-- The group as a job leaves it, and what is said about it. A group that was cancelled is skipped
if some of its tasks have been completed and otherwise still to do. -/
def TaskGroup.conclude (g : TaskGroup) (ending : Ending) : TaskGroup × Journal.Line :=
  let left := { g with tasks := ending.tasks }
  match ending.outcome with
  | .completed =>
    ({ left with status := .completed }, .success ("Completed group: " ++ g.name))
  | .failed e =>
    ({ left with status := .failed }, .error ("Group " ++ g.name ++ " failed: " ++ e.message))
  | .cancelled =>
    ({ left with status := if left.completedTasks > 0 then .skipped else .pending },
     .warn ("Group " ++ g.name ++ " cancelled"))

namespace Bench

/-- Carry out a group by itself. Nobody else works, so the worker is waited for and its death is the end
of the run. -/
def groupAlone (b : Bench σ) (w : World σ) (g : TaskGroup) :
    Except LastWords ((TaskGroup × Outcome) × World σ) :=
  if b.cancelled w then .ok ((g, .cancelled), w)
  else
    ((b.forGroup g).alone (w.say b.host [g.entryLine]) (Job.ofTasks b.programs g.tasks)).map
      fun (ending, w) =>
        let (left, line) := g.conclude ending
        ((left, ending.outcome), w.say b.host [line])

end Bench

end Runbook
