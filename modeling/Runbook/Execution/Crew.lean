import Runbook.Execution.Worker
import Runbook.Text.Quoted

/-!
# Groups side by side

A batch of groups is carried out by a *crew*, a worker for each group. All workers start at the same
moment, in the order of the batch. From then on the earliest answer that is due decides who goes on;
the others wait. When everyone who could go on at a moment has done so, the crew looks at who has
ended: a failure cancels the workers that are left, and the first one is the failure of the batch.

A worker that dies takes its results with it. Its group is failed, with its tasks as they were
before the batch.

Main statement: `total_resumeDue_lt` — every moment leaves less to do, so a crew always comes home.
-/

set_option autoImplicit false

namespace Runbook

variable {σ : Type}

/-- A member of a crew: the place of its group among all groups, and the group as it was taken. -/
structure Worker where
  place : Nat
  group : TaskGroup
deriving DecidableEq, Repr

/-- What a worker brings back. -/
abbrev Result := Except LastWords (TaskGroup × Outcome)

/-- Workers after a turn: those that wait, and those that have ended with their results. -/
structure Turns where
  waiting : List (Worker × Waiting) := []
  ended : List (Worker × Result) := []

namespace Turns

def addWaiting (t : Turns) (worker : Worker) (x : Waiting) : Turns :=
  { t with waiting := (worker, x) :: t.waiting }

/-- One more worker, however its turn has ended, in front of the others. -/
def add (t : Turns) (worker : Worker) : Waiting ⊕ Result → Turns
  | .inl x => t.addWaiting worker x
  | .inr r => { t with ended := (worker, r) :: t.ended }

end Turns

namespace Bench

/-- The end of a turn for a group. A worker that is through says so. -/
def afterTurn (b : Bench σ) (g : TaskGroup) : Turn × World σ → (Waiting ⊕ Result) × World σ
  | (.waits x, w) => (.inl x, w)
  | (.dies message, w) => (.inr (.error message), w)
  | (.ends ending, w) =>
    let (left, line) := g.conclude ending
    (.inr (.ok (left, ending.outcome)), w.say b.host [line])

/-- The first turn of a group's worker. -/
def begin (b : Bench σ) (w : World σ) (g : TaskGroup) : (Waiting ⊕ Result) × World σ :=
  b.afterTurn g
    ((b.forGroup g).turn (w.say b.host [g.entryLine]) (Job.ofTasks b.programs g.tasks))

def goOn (b : Bench σ) (w : World σ) (g : TaskGroup) (x : Waiting) :
    (Waiting ⊕ Result) × World σ :=
  b.afterTurn g ((b.forGroup g).resume w x)

/-- The first turns of all workers, in the order of the batch. Nobody's first turn waits for another's
answer. -/
def beginAll (b : Bench σ) (w : World σ) : List Worker → Turns × World σ
  | [] => ({}, w)
  | worker :: rest =>
    let (turn, w) := b.begin w worker.group
    let (turns, w) := b.beginAll w rest
    (turns.add worker turn, w)

/-- The turns of the workers whose answers are due at a moment; the others go on waiting. -/
def resumeDue (b : Bench σ) (moment : Nat) (w : World σ) :
    List (Worker × Waiting) → Turns × World σ
  | [] => ({}, w)
  | (worker, x) :: rest =>
    if x.due = moment then
      let (turn, w) := b.goOn w worker.group x
      let (turns, w) := b.resumeDue moment w rest
      (turns.add worker turn, w)
    else
      let (turns, w) := b.resumeDue moment w rest
      (turns.addWaiting worker x, w)

end Bench

/-! ## There is always less to do -/

/-- How much the workers that wait have left to do. -/
def total (waiting : List (Worker × Waiting)) : Nat :=
  waiting.foldr (fun p n => p.2.asked.next.size + 1 + n) 0

/-- The moment at which the next answer is due. -/
def earliest? (waiting : List (Worker × Waiting)) : Option Nat :=
  (waiting.map fun (_, x) => x.due).min?

namespace Bench

theorem size_of_goOn {b : Bench σ} {w w' : World σ} {g : TaskGroup} {before after : Waiting}
    (h : b.goOn w g before = (.inl after, w')) :
    after.asked.next.size < before.asked.next.size := by
  unfold goOn at h
  generalize hr : (b.forGroup g).resume w before = r at h
  obtain ⟨turn, w1⟩ := r
  cases turn with
  | waits x =>
    simp only [afterTurn, Prod.mk.injEq, Sum.inl.injEq] at h
    obtain ⟨rfl, -⟩ := h
    exact size_of_resume hr
  | ends ending => simp [afterTurn] at h
  | dies message => simp [afterTurn] at h

theorem total_resumeDue_le (b : Bench σ) (moment : Nat) (w : World σ)
    (waiting : List (Worker × Waiting)) :
    total (b.resumeDue moment w waiting).1.waiting ≤ total waiting := by
  induction waiting generalizing w with
  | nil => simp [resumeDue, total]
  | cons p rest ih =>
    obtain ⟨worker, x⟩ := p
    unfold resumeDue
    split
    · generalize hg : b.goOn w worker.group x = r
      obtain ⟨turn, w1⟩ := r
      have := ih w1
      cases turn with
      | inl after =>
        have := size_of_goOn hg
        simp only [total, Turns.add, Turns.addWaiting, List.foldr_cons] at *
        omega
      | inr r =>
        simp only [total, Turns.add, List.foldr_cons] at *
        omega
    · have := ih w
      simp only [total, Turns.addWaiting, List.foldr_cons] at *
      omega

theorem total_resumeDue_lt (b : Bench σ) {moment : Nat} (w : World σ)
    {waiting : List (Worker × Waiting)} (h : ∃ p ∈ waiting, p.2.due = moment) :
    total (b.resumeDue moment w waiting).1.waiting < total waiting := by
  induction waiting generalizing w with
  | nil => simp at h
  | cons p rest ih =>
    obtain ⟨worker, x⟩ := p
    unfold resumeDue
    split
    · generalize hg : b.goOn w worker.group x = r
      obtain ⟨turn, w1⟩ := r
      have := b.total_resumeDue_le moment w1 rest
      cases turn with
      | inl after =>
        have := size_of_goOn hg
        simp only [total, Turns.add, Turns.addWaiting, List.foldr_cons] at *
        omega
      | inr r =>
        simp only [total, Turns.add, List.foldr_cons] at *
        omega
    · rename_i hne
      obtain ⟨q, hq, hdue⟩ := h
      have hmem : q ∈ rest := by
        rcases List.mem_cons.mp hq with rfl | hq
        · exact absurd hdue hne
        · exact hq
      have := ih w ⟨q, hmem, hdue⟩
      simp only [total, Turns.addWaiting, List.foldr_cons] at *
      omega

end Bench

theorem exists_due_of_earliest? {waiting : List (Worker × Waiting)} {moment : Nat}
    (h : earliest? waiting = some moment) : ∃ p ∈ waiting, p.2.due = moment := by
  have := List.min?_mem h
  simpa using this

/-! ## Crews -/

/-- What is known of a batch: the groups as they stand, and the first failure. -/
structure Crew (σ : Type) where
  world : World σ
  groups : List TaskGroup
  error : Option PlanError := none

namespace Crew

/-- A worker that was called off has not failed. -/
def failure? : Outcome → Option PlanError
  | .failed e => some e
  | .completed | .cancelled => none

/-- How the death of a worker is told. -/
def obituary (worker : Worker) (message : LastWords) : String :=
  "task " ++ toString worker.place ++ " panicked with message " ++ Text.quotedText message

/-- Take in what a worker brings back. -/
def collect (h : Host σ) (c : Crew σ) : Worker × Result → Crew σ
  | (worker, .ok (g, outcome)) =>
    { c with groups := c.groups.set worker.place g, error := c.error.or (failure? outcome) }
  | (worker, .error message) =>
    let detail := obituary worker message
    let name := worker.group.name
    { world := c.world.say h [.error ("Group " ++ name ++ " failed with exception: " ++ detail)]
      groups := c.groups.modify worker.place ({ · with status := .failed })
      error := c.error.or (some (.workerPanicked name detail)) }

/-- Take in what workers bring back at a moment, in the order of the batch: of several failures the
first counts. -/
def collectAll (h : Host σ) (c : Crew σ) (w : World σ) (turns : Turns) : Crew σ :=
  turns.ended.foldl (collect h) { c with world := w }

/-- Let the workers that wait go on until all have ended. A failure seen at a moment cancels
everyone who goes on at a later one. -/
def finish (b : Bench σ) (c : Crew σ) (waiting : List (Worker × Waiting)) : Crew σ :=
  match _next : earliest? waiting with
  | none => c
  | some moment =>
    let bench : Bench σ := { b with cancelled := fun _ => c.error.isSome }
    let turns := bench.resumeDue moment (c.world.waitUntil moment) waiting
    finish b (c.collectAll b.host turns.2 turns.1) turns.1.waiting
termination_by total waiting
decreasing_by exact Bench.total_resumeDue_lt _ _ (exists_due_of_earliest? _next)

/-- Carry out the groups at some places side by side. -/
def run (b : Bench σ) (w : World σ) (groups : List TaskGroup) (batch : List Nat) : Crew σ :=
  let workers := batch.filterMap fun place => groups[place]?.map (Worker.mk place)
  let said := w.say b.host
    [.info ("Executing " ++ toString batch.length ++ " groups in parallel...")]
  let turns := b.beginAll said workers
  finish b (collectAll b.host { world := w, groups } turns.2 turns.1) turns.1.waiting

end Crew

end Runbook
