import Runbook.Proofs.Account

/-!
# What the scheduler knows

The names that have been completed are only brought up to date between batches. `Ledger` says how
they relate to the groups at every moment: between batches they are exactly the names of the
completed groups, and while a batch is under way they lag behind by groups of that batch.

A group is only ever changed by noticing the worker that took it up, and it was still to do then;
so a group that is not still to do stays as it is (`Step.stays`).
-/

set_option autoImplicit false

namespace Runbook.Interleaving

open Schedule (IsCompleted)

variable {σ : Type} {h : Host σ} {s : RunSettings} {w : World σ} {groups now : List TaskGroup}
  {es es' : List Event} {c c' : Config σ} {completed : List String} {batch : List Nat}

/-! ## Groups that stay as they are -/

theorem Step.not_lost (step : Step h s c es c') (message : LastWords) : c ≠ .lost message := by
  rintro rfl
  cases step

/-- A group that is not still to do is not touched any more. Only the notice of a worker changes a
group, and a worker holds its group as it was when it was taken up. -/
theorem Step.stays (before : Account h s w groups es c) (step : Step h s c es' c')
    (alive : ∀ message, c' ≠ .lost message) {i : Nat} {g : TaskGroup}
    (found : c.groups[i]? = some g) (closed : g.status ≠ .pending) : c'.groups[i]? = some g := by
  cases step with
  | refuse | accept | finish | tire | starve | take | work | pass | abort | next => exact found
  | lose => exact absurd rfl (alive _)
  | @notice left crew completed batch worker r hands kept =>
    have handled : Handled h s w groups es crew batch ((worker, .through r) :: hands) := before
    have hknown : crew.groups[worker.place]? = some worker.group :=
      handled.known _ List.mem_cons_self
    obtain ⟨taken, -⟩ := handled.held _ List.mem_cons_self
    -- the worker holds its group as it was when taken up, which was still to do
    have hne : worker.place ≠ i := by
      rintro rfl
      have hsame : crew.groups[worker.place]? = some g := found
      rw [hknown, Option.some.injEq] at hsame
      rw [← hsame] at closed
      exact closed taken.pending
    show (crew.collect h (worker, r)).groups[i]? = some g
    rw [groups_collect hknown, List.getElem?_set_ne hne]
    exact found

/-- The same for any number of steps: once a group has been completed or has failed, that is what the
end of the run says about it. -/
theorem Leads.stays (names : (groups.map (·.name)).Nodup)
    (before : Leads h s (.fresh w groups) es c) (leads : Leads h s c es' c')
    (alive : ∀ message, c' ≠ .lost message) {i : Nat} {g : TaskGroup}
    (found : c.groups[i]? = some g) (closed : g.status ≠ .pending) : c'.groups[i]? = some g := by
  induction leads with
  | refl => exact found
  | step leads next ih =>
    have haccount := (before.trans leads).account names
    exact next.stays haccount alive (ih next.not_lost) closed

/-- What has been completed stays completed, so a dependency that was met when a group was taken up is
met at every later moment. -/
theorem IsCompleted.stays (names : (groups.map (·.name)).Nodup)
    (before : Leads h s (.fresh w groups) es c) (leads : Leads h s c es' c')
    (alive : ∀ message, c' ≠ .lost message) {name : String}
    (done : IsCompleted c.groups name) : IsCompleted c'.groups name := by
  obtain ⟨g, hg, hstatus, hname⟩ := done
  obtain ⟨i, hi⟩ := List.mem_iff_getElem?.mp hg
  have hstays := before.stays names leads alive hi (by simp [hstatus])
  exact ⟨g, List.mem_of_getElem? hstays, hstatus, hname⟩

/-! ## The names that have been completed -/

/-- Some names are those of the groups that have been completed. They are listed in ascending order,
which makes the list the same however the groups were completed. -/
structure Knows (now : List TaskGroup) (completed : List String) : Prop where
  sorted : completed.Pairwise (· < ·)
  mem : ∀ name, name ∈ completed ↔ IsCompleted now name

/-- A batch was taken up after some of the events, and none after it: it is the one that events since
then belong to. -/
def Latest (batch : List Nat) (es : List Event) : Prop :=
  ∃ past since, es = past ++ .taken batch :: since ∧ ∀ batch', .taken batch' ∉ since

theorem Latest.mem (latest : Latest batch es) : .taken batch ∈ es := by
  obtain ⟨past, since, rfl, -⟩ := latest
  exact List.mem_append_right _ List.mem_cons_self

theorem Latest.later (latest : Latest batch es) (alone : ∀ batch', .taken batch' ∉ es') :
    Latest batch (es ++ es') := by
  obtain ⟨past, since, rfl, hsince⟩ := latest
  refine ⟨past, since ++ es', by simp, fun batch' hb => ?_⟩
  rcases List.mem_append.mp hb with hb | hb
  · exact hsince batch' hb
  · exact alone batch' hb

/-- A batch is under way, and the names of what has been completed are those from before it. A group of
the batch may have been completed since (`lags`), and no other group has changed; `ready` keeps what the
batch was chosen for, in terms of the groups as they are now. -/
structure Underway (s : RunSettings) (es : List Event) (now : List TaskGroup)
    (completed : List String) (batch : List Nat) : Prop where
  sorted : completed.Pairwise (· < ·)
  still : ∀ name ∈ completed, IsCompleted now name
  lags : ∀ i g, now[i]? = some g → g.status = .completed → g.name ∈ completed ∨ i ∈ batch
  size : batch.length ≤ s.effectiveBatchSize
  nonempty : batch ≠ []
  ready : ∀ i ∈ batch, ∃ g, now[i]? = some g ∧ g.name ∉ completed ∧ g.isReady completed = true
  latest : Latest batch es

/-- What the scheduler knows, by the shape of the run: everything between batches, and what was known
when the batch was taken up while one is under way. -/
def Ledger (s : RunSettings) (es : List Event) : Config σ → Prop
  | .between _ _ now completed => Knows now completed
  | .within _ crew completed batch _ => Underway s es crew.groups completed batch
  | .fresh _ _ | .home _ | .lost _ => True

theorem Knows.start (groups : List TaskGroup) : Knows groups (Schedule.completedNames groups) :=
  ⟨nameSet_pairwise _, fun _ => Schedule.mem_completedNames⟩

/-- A batch that is taken up puts the ledger in the state for batches. Distinct names matter here: a
namesake that has been completed would pass for a group that is still to do. -/
theorem Knows.take (knows : Knows now completed) (names : (now.map (·.name)).Nodup)
    (busy : Dependency.ready now completed ≠ [])
    (first : batch = (Dependency.ready now completed).take s.effectiveBatchSize) :
    Underway s (es ++ [.taken batch]) now completed batch := by
  have hpositive : 0 < s.effectiveBatchSize :=
    Nat.lt_of_lt_of_le Nat.zero_lt_one (Nat.le_max_right _ _)
  refine {
    sorted := knows.sorted
    still := fun name hname => (knows.mem name).mp hname
    latest := ⟨es, [], rfl, by simp⟩
    lags := ?lags
    size := ?size
    nonempty := ?nonempty
    ready := ?ready }
  case lags =>
    intro i g hg hstatus
    exact .inl ((knows.mem _).mpr ⟨g, List.mem_of_getElem? hg, hstatus, rfl⟩)
  case size =>
    rw [first]
    exact List.length_take_le _ _
  case nonempty =>
    rw [first]
    intro hnil
    rcases List.take_eq_nil_iff.mp hnil with hzero | hnil
    · exact Nat.ne_of_gt hpositive hzero
    · exact busy hnil
  case ready =>
    -- names are distinct, so a group that is still to do has no completed namesake
    intro i hi
    rw [first] at hi
    obtain ⟨g, hg, hpending, hready⟩ := Dependency.mem_ready.mp (List.mem_of_mem_take hi)
    refine ⟨g, hg, fun hin => ?_, hready⟩
    obtain ⟨g', hg', hstatus, hname⟩ := (knows.mem _).mp hin
    rw [eq_of_name_eq names hg' (List.mem_of_getElem? hg) hname, hpending] at hstatus
    cases hstatus

/-- Noticing a worker changes one group of the batch and no name of a completed one, since the worker's
group was still to do. -/
theorem Underway.notice (underway : Underway s es now completed batch) {place : Nat}
    {g g' : TaskGroup} (found : now[place]? = some g) (inBatch : place ∈ batch)
    (pending : g.status = .pending) (same : g'.outline = g.outline) :
    Underway s es (now.set place g') completed batch := by
  have hlt := (List.getElem?_eq_some_iff.mp found).1
  refine { underway with still := ?still, lags := ?lags, ready := ?ready }
  case still =>
    intro name hname
    exact (underway.still name hname).set found pending g'
  -- the one group that changes is of the batch, and any other keeps its reason
  case lags =>
    intro i g₁ hi hstatus
    by_cases hplace : place = i
    · exact .inr (hplace ▸ inBatch)
    · rw [List.getElem?_set_ne hplace] at hi
      exact underway.lags i g₁ hi hstatus
  case ready =>
    intro i hi
    by_cases hplace : place = i
    · subst hplace
      obtain ⟨g₁, hg₁, hunknown, hready⟩ := underway.ready place inBatch
      rw [found, Option.some.injEq] at hg₁
      subst hg₁
      rw [← TaskGroup.name_eq_of_outline same] at hunknown
      rw [TaskGroup.isReady, ← TaskGroup.dependencies_eq_of_outline same] at hready
      exact ⟨g', List.getElem?_set_self hlt, hunknown, hready⟩
    · rw [List.getElem?_set_ne hplace]
      exact underway.ready i hi

theorem Underway.later (underway : Underway s es now completed batch)
    (alone : ∀ batch', .taken batch' ∉ es') : Underway s (es ++ es') now completed batch :=
  { underway with latest := underway.latest.later alone }

/-- With the batch behind, adding its completed groups brings the names up to date again. -/
theorem Underway.next (underway : Underway s es now completed batch) :
    Knows now (Schedule.addCompleted now batch completed) := by
  refine ⟨Schedule.addCompleted_pairwise underway.sorted, fun name => ?_⟩
  rw [Schedule.mem_addCompleted]
  constructor
  · rintro (hold | ⟨place, -, g, hg, hstatus, hname⟩)
    · exact underway.still name hold
    · exact ⟨g, List.mem_of_getElem? hg, hstatus, hname⟩
  · rintro ⟨g, hg, hstatus, rfl⟩
    obtain ⟨i, hi⟩ := List.mem_iff_getElem?.mp hg
    refine (underway.lags i g hi hstatus).imp_right fun hbatch => ?_
    exact ⟨i, hbatch, g, hi, hstatus, rfl⟩

/-- One step keeps the ledger. Taking a batch up, noticing a worker and going on to the next round are
the steps that change it. -/
theorem Step.ledger (names : (groups.map (·.name)).Nodup) (account : Account h s w groups es c)
    (step : Step h s c es' c') (before : Ledger s es c) : Ledger s (es ++ es') c' := by
  cases step with
  | refuse | finish | tire | starve | lose | abort => trivial
  | @accept _ now acyclic => exact Knows.start now
  | take unfinished busy first =>
    have hsettled : Settled h s w groups false es _ := account
    have hnames := names
    rw [← names_of_outline hsettled.outline] at hnames
    exact Knows.take before hnames busy first
  | work step => exact Underway.later before step.not_taken
  | @notice left crew completed batch worker r hands kept =>
    have handled : Handled h s w groups es crew batch ((worker, .through r) :: hands) := account
    have hknown : crew.groups[worker.place]? = some worker.group :=
      handled.known _ List.mem_cons_self
    obtain ⟨taken, progress⟩ := handled.held _ List.mem_cons_self
    obtain ⟨calls, -, hcomes⟩ := progress.comes
    rw [List.append_nil]
    show Underway s es (crew.collect h (worker, r)).groups completed batch
    rw [groups_collect hknown]
    exact Underway.notice before hknown (handled.inBatch _ List.mem_cons_self) taken.pending
      hcomes.outline
  | pass => exact Underway.later before (by simp)
  | next well => exact Underway.next before

/-- At every moment of a run the scheduler knows what has been completed. -/
theorem Leads.ledger (names : (groups.map (·.name)).Nodup)
    (leads : Leads h s (.fresh w groups) es c) : Ledger s es c := by
  induction leads with
  | refl => trivial
  | step leads next ih => exact next.ledger names (leads.account names) ih

/-- All that a group of a batch under way waits for has been completed, and not merely known by name to
the scheduler when the batch was taken up. -/
theorem Underway.dependencies_completed (underway : Underway s es now completed batch) {i : Nat}
    {g : TaskGroup} (inBatch : i ∈ batch) (found : now[i]? = some g) {name : String}
    (waits : name ∈ g.dependencies) : IsCompleted now name := by
  obtain ⟨g', hg', -, hready⟩ := underway.ready i inBatch
  rw [found, Option.some.injEq] at hg'
  subst hg'
  rw [TaskGroup.isReady, List.all_eq_true] at hready
  exact underway.still name (by simpa using hready name waits)

end Runbook.Interleaving
