import Runbook.Proofs.ReadyGroups
import Runbook.Proofs.Worker

/-!
# What has become of every group

At every moment of a run each group can be accounted for by the events so far: it has never been
taken up, or a worker holds it, or a worker has brought it back (`Fate`). What a worker brings back
follows from its calls since the group was last taken up (`Comes`), and the moment at which it was
taken up is a moment of the same run (`Taken`), so what can be said of every run can be said of the
group as it was then.

`Account` says this for all groups at once. It holds at the beginning, every step keeps it
(`Step.account`), and so every run does (`Leads.account`). Nothing is assumed of the host.
-/

set_option autoImplicit false

namespace Runbook

/-- What a run leaves alone: all of a group but its tasks and its status. Two groups are compared by it
to say that one has come of the other. -/
def TaskGroup.outline (g : TaskGroup) : TaskGroup := { g with tasks := [], status := .pending }

theorem TaskGroup.name_eq_of_outline {g g' : TaskGroup} (h : g.outline = g'.outline) :
    g.name = g'.name := by
  have hname := congrArg TaskGroup.name h
  exact hname

theorem TaskGroup.dependencies_eq_of_outline {g g' : TaskGroup} (h : g.outline = g'.outline) :
    g.dependencies = g'.dependencies := by
  have hdependencies := congrArg TaskGroup.dependencies h
  exact hdependencies

namespace Interleaving

variable {σ : Type} {h : Host σ} {s : RunSettings} {w : World σ} {groups now : List TaskGroup}

/-! ## Events of a group -/

/-- Is an event the beginning or the end of a call of the group with some name? That a batch is taken up
is an event of no group in particular. -/
def Event.isOf (name : String) : Event → Bool
  | .taken _ => false
  | .began call | .ended call => call.group == some name

/-- The calls of one group among all events, in their order. A worker sees no others, which is why its
progress can be told from them. -/
def ofGroup (name : String) (es : List Event) : List Event := es.filter (Event.isOf name)

@[simp] theorem ofGroup_append (name : String) (es es' : List Event) :
    ofGroup name (es ++ es') = ofGroup name es ++ ofGroup name es' := by
  simp [ofGroup]

@[simp] theorem ofGroup_taken (name : String) (batch : List Nat) (es : List Event) :
    ofGroup name (.taken batch :: es) = ofGroup name es := rfl

/-- The group at a place has not been taken up. Said of the events since some moment it means that
nobody has touched the group since. -/
def Passed (place : Nat) (es : List Event) : Prop := ∀ batch, .taken batch ∈ es → place ∉ batch

theorem Passed.nil (place : Nat) : Passed place [] := by
  intro batch hb
  cases hb

theorem Passed.append {place : Nat} {es es' : List Event} (first : Passed place es)
    (second : Passed place es') : Passed place (es ++ es') := by
  intro batch hb
  rcases List.mem_append.mp hb with hb | hb
  · exact first batch hb
  · exact second batch hb

theorem Passed.taken {place : Nat} {batch : List Nat} (other : place ∉ batch) :
    Passed place [.taken batch] := by
  intro batch' hb
  rw [List.mem_singleton, Event.taken.injEq] at hb
  rw [hb]
  exact other

section Events

variable {cancelled : Bool} {g : TaskGroup} {w₁ w₂ : World σ} {p p' : Post} {seen es : List Event}

/-- Whatever a worker does shows among the events of its own group. -/
theorem WorkStep.ofGroup_self (step : WorkStep h s cancelled g w₁ p es w₂ p')
    (before : Progress s.programs cancelled g seen p) : ofGroup g.name es = es := by
  rcases step.events_cases before with rfl | ⟨call, hgroup, rfl | rfl⟩
  · rfl
  · simp [ofGroup, Event.isOf, hgroup]
  · simp [ofGroup, Event.isOf, hgroup]

/-- It shows nowhere else. With distinct names this is what lets several workers go on at once while
each group is accounted for by itself. -/
theorem WorkStep.ofGroup_other (step : WorkStep h s cancelled g w₁ p es w₂ p')
    (before : Progress s.programs cancelled g seen p) {name : String} (other : g.name ≠ name) :
    ofGroup name es = [] := by
  rcases step.events_cases before with rfl | ⟨call, hgroup, rfl | rfl⟩
  · rfl
  · simp [ofGroup, Event.isOf, hgroup, other]
  · simp [ofGroup, Event.isOf, hgroup, other]

theorem WorkStep.not_taken (step : WorkStep h s cancelled g w₁ p es w₂ p') (batch : List Nat) :
    .taken batch ∉ es := by
  intro hb
  cases step with
  | start | decline | go | stop => cases hb
  | ask | goOn | giveUp | die => simp at hb

theorem WorkStep.passed (step : WorkStep h s cancelled g w₁ p es w₂ p') (place : Nat) :
    Passed place es := by
  intro batch hb
  exact absurd hb (step.not_taken batch)

end Events

/-! ## Groups that come back -/

/-- A group as its worker brings it back, or as the scheduler leaves it when the worker is dead. In that
case nobody knows how far the tasks have come, and they are left as they were. -/
def broughtBack (g : TaskGroup) : Result → TaskGroup
  | .ok (g', _) => g'
  | .error _ => { g with status := .failed }

/-- Why a batch fails whose worker comes back like this; none when the group has been completed or given
back untouched. -/
def failure? (worker : Worker) : Result → Option PlanError
  | .ok (_, outcome) => Crew.failure? outcome
  | .error message => some (.workerPanicked worker.group.name (Crew.obituary worker message))

theorem outline_conclude (g : TaskGroup) (ending : Ending) :
    (g.conclude ending).1.outline = g.outline := by
  obtain ⟨tasks, outcome⟩ := ending
  cases outcome <;> rfl

theorem Comes.outline {programs : List String} {stopped : Bool} {g : TaskGroup}
    {calls : List Call} {r : Result} (comes : Comes programs stopped g calls r) :
    (broughtBack g r).outline = g.outline := by
  cases comes with
  | declined off => rfl
  | ended ends => exact outline_conclude g _
  | died fine asked why => rfl

/-- A worker that comes back with its group completed has made all calls, with success. There is no
other way to that status. -/
theorem Comes.all_of_completed {programs : List String} {stopped : Bool} {g : TaskGroup}
    {calls : List Call} {r : Result} (comes : Comes programs stopped g calls r)
    (pending : g.status = .pending) (done : (broughtBack g r).status = .completed) :
    (∀ c ∈ calls, c.succeeded = true) ∧ calls.map (·.command) = g.commands programs := by
  cases comes with
  | declined off =>
    have hstatus : g.status = .completed := done
    rw [pending] at hstatus
    cases hstatus
  | died fine asked why => cases done
  | @ended calls ending ends =>
    cases ends with
    | completed fine all => exact ⟨fine, all⟩
    | failed fine split isOpen chores asked why => cases done
    | calledOff off fine asked back | recalled fine asked why back =>
      simp only [broughtBack, TaskGroup.conclude] at done
      split at done <;> cases done

/-! ## One group -/

/-- The group at a place was last taken up after some of the events. So it stood `before`, and the other
events have been seen `since`. The moment is kept as a run of its own (`leads`), because what holds at
every moment then holds of that one, without being carried along. -/
inductive Taken (h : Host σ) (s : RunSettings) (w : World σ) (groups : List TaskGroup)
    (place : Nat) (before : TaskGroup) : List Event → List Event → Prop
  | mk {past since : List Event} {left : Nat} {w' : World σ} {then' : List TaskGroup}
    {completed : List String} {batch : List Nat}
    (leads : Leads h s (.fresh w groups) past (.between left w' then' completed))
    (first : batch = (Dependency.ready then' completed).take s.effectiveBatchSize)
    (inBatch : place ∈ batch) (found : then'[place]? = some before)
    (last : Passed place since) :
    Taken h s w groups place before (past ++ .taken batch :: since) since

/-- Since the group at a place was last taken up, its worker has made some calls and come back. In a run
that is not `stopped` it has not come back with a failure, for the failure is what stops a run. -/
inductive Carried (h : Host σ) (s : RunSettings) (w : World σ) (groups : List TaskGroup)
    (stopped : Bool) (place : Nat) (es : List Event) (before : TaskGroup) (calls : List Call)
    (r : Result) : Prop
  | mk {since : List Event} (taken : Taken h s w groups place before es since)
    (seen : ofGroup before.name since = log calls)
    (comes : Comes s.programs stopped before calls r)
    (told : (failure? ⟨place, before⟩ r).isSome = true → stopped = true)

/-- What has become of the group at a place that no worker holds. The two cases exclude each other: a
group is untouched as long as no batch had its place. -/
inductive Fate (h : Host σ) (s : RunSettings) (w : World σ) (groups : List TaskGroup)
    (stopped : Bool) (place : Nat) (es : List Event) : TaskGroup → Prop
  | untouched {g : TaskGroup} (found : groups[place]? = some g) (passed : Passed place es)
    (quiet : ofGroup g.name es = []) : Fate h s w groups stopped place es g
  | carried {before : TaskGroup} {calls : List Call} {r : Result}
    (carried : Carried h s w groups stopped place es before calls r) :
    Fate h s w groups stopped place es (broughtBack before r)

/-- A group in the hands of a worker, with the progress that its calls since then amount to. -/
inductive Held (h : Host σ) (s : RunSettings) (w : World σ) (groups : List TaskGroup)
    (stopped : Bool) (es : List Event) (hand : Hand) : Prop
  | mk {since : List Event} (taken : Taken h s w groups hand.1.place hand.1.group es since)
    (progress : Progress s.programs stopped hand.1.group (ofGroup hand.1.group.name since) hand.2)

section One

variable {place : Nat} {before g : TaskGroup} {es es' since : List Event} {stopped stopped' : Bool}
  {calls : List Call} {r : Result}

theorem Taken.pending (taken : Taken h s w groups place before es since) :
    before.status = .pending := by
  obtain ⟨leads, first, inBatch, found, last⟩ := taken
  subst first
  obtain ⟨g, hg, hpending, -⟩ := Dependency.mem_ready.mp (List.mem_of_mem_take inBatch)
  rw [found, Option.some.injEq] at hg
  rw [hg]
  exact hpending

/-- Events that do not take the group up again only add to what has been seen since. -/
theorem Taken.later (taken : Taken h s w groups place before es since)
    (passed : Passed place es') : Taken h s w groups place before (es ++ es') (since ++ es') := by
  obtain ⟨leads, first, inBatch, found, last⟩ := taken
  have htaken := Taken.mk leads first inBatch found (last.append passed)
  simpa using htaken

theorem Taken.subset (taken : Taken h s w groups place before es since) : since ⊆ es := by
  obtain ⟨leads, first, inBatch, found, last⟩ := taken
  intro e he
  exact List.mem_append_right _ (List.mem_cons_of_mem _ he)

theorem Carried.later (carried : Carried h s w groups stopped place es before calls r)
    (passed : Passed place es') (quiet : ofGroup before.name es' = []) :
    Carried h s w groups stopped place (es ++ es') before calls r := by
  obtain ⟨taken, seen, comes, told⟩ := carried
  refine .mk (taken.later passed) ?_ comes told
  rw [ofGroup_append, quiet, List.append_nil]
  exact seen

/-- A run that has been stopped stays so, and what was true of a group before is true of it then. -/
theorem Carried.mono (carried : Carried h s w groups stopped place es before calls r)
    (le : stopped = true → stopped' = true) :
    Carried h s w groups stopped' place es before calls r := by
  obtain ⟨taken, seen, comes, told⟩ := carried
  exact .mk taken seen (comes.mono le) fun hf => le (told hf)

theorem Carried.outline (carried : Carried h s w groups stopped place es before calls r) :
    (broughtBack before r).outline = before.outline := by
  obtain ⟨taken, seen, comes, told⟩ := carried
  exact comes.outline

theorem Fate.later (fate : Fate h s w groups stopped place es g) (passed : Passed place es')
    (quiet : ofGroup g.name es' = []) : Fate h s w groups stopped place (es ++ es') g := by
  cases fate with
  | untouched found hp hq =>
    refine .untouched found (hp.append passed) ?_
    rw [ofGroup_append, hq, quiet, List.append_nil]
  | carried carried =>
    rw [TaskGroup.name_eq_of_outline carried.outline] at quiet
    exact .carried (carried.later passed quiet)

theorem Fate.mono (fate : Fate h s w groups stopped place es g)
    (le : stopped = true → stopped' = true) : Fate h s w groups stopped' place es g := by
  cases fate with
  | untouched found passed quiet => exact .untouched found passed quiet
  | carried carried => exact .carried (carried.mono le)

end One

/-! ## All groups -/

/-- Every group has its fate, and no worker holds one. This is how things stand between two batches and
at the end. -/
structure Settled (h : Host σ) (s : RunSettings) (w : World σ) (groups : List TaskGroup)
    (stopped : Bool) (es : List Event) (now : List TaskGroup) : Prop where
  outline : now.map (·.outline) = groups.map (·.outline)
  fate : ∀ i g, now[i]? = some g → Fate h s w groups stopped i es g

/-- Every group has its fate or is in the hands of a worker. The failure of a batch is the failure of a
group that has been brought back; of several it is the first, and the others leave no trace in it. -/
structure Handled (h : Host σ) (s : RunSettings) (w : World σ) (groups : List TaskGroup)
    (es : List Event) (crew : Crew σ) (batch : List Nat) (hands : List Hand) : Prop where
  outline : crew.groups.map (·.outline) = groups.map (·.outline)
  distinct : (hands.map (·.1.place)).Nodup
  inBatch : ∀ hand ∈ hands, hand.1.place ∈ batch
  known : ∀ hand ∈ hands, crew.groups[hand.1.place]? = some hand.1.group
  held : ∀ hand ∈ hands, Held h s w groups crew.error.isSome es hand
  fate : ∀ i g, crew.groups[i]? = some g → i ∉ hands.map (·.1.place) →
    Fate h s w groups crew.error.isSome i es g
  blame : ∀ e, crew.error = some e → ∃ place before calls r, place ∈ batch ∧
    place ∉ hands.map (·.1.place) ∧ crew.groups[place]? = some (broughtBack before r) ∧
    Carried h s w groups true place es before calls r ∧ failure? ⟨place, before⟩ r = some e

/-- Every group is accounted for. A lost run is left out: it has no groups to account for, because the
worker took them with it. -/
def Account (h : Host σ) (s : RunSettings) (w : World σ) (groups : List TaskGroup)
    (es : List Event) : Config σ → Prop
  | .fresh w' now => es = [] ∧ w' = w ∧ now = groups
  | .between _ _ now _ => Settled h s w groups false es now
  | .within _ crew _ batch hands => Handled h s w groups es crew batch hands
  | .home report => ∃ stopped, Settled h s w groups stopped es report.groups
  | .lost _ => True

theorem Settled.start (h : Host σ) (s : RunSettings) (w : World σ) (groups : List TaskGroup) :
    Settled h s w groups false [] groups :=
  ⟨rfl, fun i _ hg => .untouched hg (Passed.nil i) rfl⟩

/-! ## Steps -/

section Steps

variable {es es' : List Event} {stopped : Bool} {batch : List Nat} {hands : List Hand}
  {worker : Worker} {p p' : Post} {crew : Crew σ}

theorem names_of_outline (outline : now.map (·.outline) = groups.map (·.outline)) :
    now.map (·.name) = groups.map (·.name) := by
  have hnames := congrArg (List.map TaskGroup.name) outline
  simpa [Function.comp_def, TaskGroup.outline] using hnames

theorem length_of_outline (outline : now.map (·.outline) = groups.map (·.outline)) :
    now.length = groups.length := by
  simpa using congrArg List.length outline

/-- The place of a group as it stands is the place of a group of that name at the beginning. -/
theorem exists_of_outline (outline : now.map (·.outline) = groups.map (·.outline)) {i : Nat}
    {g : TaskGroup} (found : groups[i]? = some g) :
    ∃ g', now[i]? = some g' ∧ g'.outline = g.outline := by
  have hi := congrArg (·[i]?) outline
  simpa [found] using hi

theorem mem_freshHands {hand : Hand} :
    hand ∈ freshHands now batch ↔
      hand.1.place ∈ batch ∧ now[hand.1.place]? = some hand.1.group ∧ hand.2 = .fresh := by
  obtain ⟨⟨place, g⟩, p⟩ := hand
  simp only [freshHands, List.mem_filterMap, Option.map_eq_some_iff, Prod.mk.injEq,
    Worker.mk.injEq]
  constructor
  · rintro ⟨i, hi, g', hg', ⟨rfl, rfl⟩, rfl⟩
    exact ⟨hi, hg', rfl⟩
  · rintro ⟨hi, hg, rfl⟩
    exact ⟨place, hi, g, hg, ⟨rfl, rfl⟩, rfl⟩

theorem places_freshHands (known : ∀ i ∈ batch, ∃ g, now[i]? = some g) :
    (freshHands now batch).map (·.1.place) = batch := by
  induction batch with
  | nil => rfl
  | cons i batch ih =>
    obtain ⟨g, hg⟩ := known i List.mem_cons_self
    have hrest := ih fun j hj => known j (List.mem_cons_of_mem _ hj)
    simpa [freshHands, hg] using hrest

/-- To take up a batch is to hand its groups to workers. They were pending, so their fate so far is what
the workers start from. -/
theorem Settled.take {left : Nat} {w' : World σ} {completed : List String}
    (settled : Settled h s w groups false es now)
    (leads : Leads h s (.fresh w groups) es (.between left w' now completed))
    (first : batch = (Dependency.ready now completed).take s.effectiveBatchSize) (w'' : World σ) :
    Handled h s w groups (es ++ [.taken batch]) { world := w'', groups := now } batch
      (freshHands now batch) := by
  have hknown : ∀ i ∈ batch, ∃ g, now[i]? = some g := by
    intro i hi
    rw [first] at hi
    obtain ⟨g, hg, -⟩ := Dependency.mem_ready.mp (List.mem_of_mem_take hi)
    exact ⟨g, hg⟩
  have hplaces : (freshHands now batch).map (·.1.place) = batch := places_freshHands hknown
  refine {
    outline := settled.outline
    inBatch := fun hand hh => (mem_freshHands.mp hh).1
    known := fun hand hh => (mem_freshHands.mp hh).2.1
    blame := fun e he => by cases he
    distinct := ?distinct
    held := ?held
    fate := ?fate }
  case distinct =>
    rw [hplaces, first]
    exact (Dependency.ready_nodup now completed).sublist (List.take_sublist ..)
  -- everyone is still at the beginning, and the batch was taken up just now
  case held =>
    intro hand hh
    obtain ⟨hbatch, hfound, hfresh⟩ := mem_freshHands.mp hh
    refine .mk (.mk leads first hbatch hfound (Passed.nil _)) ?_
    rw [hfresh]
    exact .fresh
  case fate =>
    intro i g hg hi
    rw [hplaces] at hi
    exact (settled.fate i g hg).later (Passed.taken hi) rfl

/-- One worker goes on. Its own group stays in its hands, and all others stand as they did, because the
events are none of theirs. -/
theorem Handled.work (names : (groups.map (·.name)).Nodup)
    (handled : Handled h s w groups es crew batch ((worker, p) :: hands)) {w' : World σ}
    (step : WorkStep h s crew.error.isSome worker.group crew.world p es' w' p') :
    Handled h s w groups (es ++ es') { crew with world := w' } batch ((worker, p') :: hands) := by
  obtain ⟨hnotin, hnodup⟩ := List.nodup_cons.mp handled.distinct
  have hknown := handled.known _ List.mem_cons_self
  obtain ⟨taken, progress⟩ := handled.held _ List.mem_cons_self
  have hpassed := step.passed
  -- the events are calls of this worker's group, and no other place has a group of that name
  have hquiet : ∀ i g, crew.groups[i]? = some g → i ≠ worker.place → ofGroup g.name es' = [] := by
    intro i g hg hne
    rw [← names_of_outline handled.outline] at names
    exact step.ofGroup_other progress (name_ne_of_place_ne names hknown hg hne.symm)
  have hplace : ∀ i, i ∉ ((worker, p') :: hands).map (·.1.place) → i ≠ worker.place := by
    intro i hi heq
    exact hi (List.mem_cons.mpr (.inl heq))
  refine {
    outline := handled.outline
    distinct := handled.distinct
    inBatch := ?inBatch
    known := ?known
    held := ?held
    fate := ?fate
    blame := ?blame }
  case inBatch =>
    intro hand hh
    rcases List.mem_cons.mp hh with rfl | hh
    · exact handled.inBatch (worker, p) List.mem_cons_self
    · exact handled.inBatch _ (List.mem_cons_of_mem _ hh)
  case known =>
    intro hand hh
    rcases List.mem_cons.mp hh with rfl | hh
    · exact hknown
    · exact handled.known _ (List.mem_cons_of_mem _ hh)
  case held =>
    intro hand hh
    rcases List.mem_cons.mp hh with rfl | hh
    · refine .mk (taken.later (hpassed _)) ?_
      rw [ofGroup_append, step.ofGroup_self progress]
      exact step.progress progress
    · obtain ⟨taken', progress'⟩ := handled.held hand (List.mem_cons_of_mem _ hh)
      have hne : hand.1.place ≠ worker.place := fun heq =>
        hnotin (List.mem_map.mpr ⟨hand, hh, heq⟩)
      refine .mk (taken'.later (hpassed _)) ?_
      rw [ofGroup_append, hquiet _ _ (handled.known _ (List.mem_cons_of_mem _ hh)) hne,
        List.append_nil]
      exact progress'
  case fate =>
    intro i g hg hi
    exact (handled.fate i g hg hi).later (hpassed i) (hquiet i g hg (hplace i hi))
  case blame =>
    intro e he
    obtain ⟨place, before, calls, r, hb, hi, hg, carried, hr⟩ := handled.blame e he
    have hq := hquiet place _ hg (hplace place hi)
    rw [TaskGroup.name_eq_of_outline carried.outline] at hq
    exact ⟨place, before, calls, r, hb, hi, hg, carried.later (hpassed place) hq, hr⟩

theorem groups_collect {r : Result}
    (known : crew.groups[worker.place]? = some worker.group) :
    (crew.collect h (worker, r)).groups =
      crew.groups.set worker.place (broughtBack worker.group r) := by
  cases r with
  | ok x => rfl
  | error message =>
    show crew.groups.modify worker.place _ = crew.groups.set worker.place _
    rw [List.modify_eq_set, known]
    rfl

theorem groups_collect_self {r : Result}
    (known : crew.groups[worker.place]? = some worker.group) :
    (crew.collect h (worker, r)).groups[worker.place]? = some (broughtBack worker.group r) := by
  rw [groups_collect known, List.getElem?_set_self (List.getElem?_eq_some_iff.mp known).1]

/-- What one worker brings back has no part in the groups of the others. -/
theorem groups_collect_of_ne {r : Result}
    (known : crew.groups[worker.place]? = some worker.group) {i : Nat} (other : i ≠ worker.place) :
    (crew.collect h (worker, r)).groups[i]? = crew.groups[i]? := by
  rw [groups_collect known, List.getElem?_set_ne (Ne.symm other)]

theorem error_collect (crew : Crew σ) (r : Result) :
    (crew.collect h (worker, r)).error = crew.error.or (failure? worker r) := by
  cases r <;> rfl

theorem map_outline_set {i : Nat} {g g' : TaskGroup} (found : now[i]? = some g)
    (same : g'.outline = g.outline) :
    (now.set i g').map (·.outline) = now.map (·.outline) := by
  refine List.ext_getElem? fun j => ?_
  by_cases hj : i = j
  · subst hj
    rw [List.getElem?_map, List.getElem?_set_self (List.getElem?_eq_some_iff.mp found).1,
      List.getElem?_map, found, Option.map_some, Option.map_some, same]
  · rw [List.getElem?_map, List.getElem?_set_ne hj, List.getElem?_map]

/-- The crew notices that a worker is through: its group leaves the hands and gets its fate. -/
theorem Handled.notice {r : Result}
    (handled : Handled h s w groups es crew batch ((worker, .through r) :: hands)) :
    Handled h s w groups es (crew.collect h (worker, r)) batch hands := by
  obtain ⟨hnotin, hnodup⟩ := List.nodup_cons.mp handled.distinct
  have hknown : crew.groups[worker.place]? = some worker.group :=
    handled.known _ List.mem_cons_self
  obtain ⟨taken, progress⟩ := handled.held _ List.mem_cons_self
  have hle : crew.error.isSome = true → (crew.collect h (worker, r)).error.isSome = true := by
    intro hs
    rw [error_collect, Option.isSome_or, hs, Bool.true_or]
  have htold : (failure? worker r).isSome = true →
      (crew.collect h (worker, r)).error.isSome = true := by
    intro hf
    rw [error_collect, Option.isSome_or, hf, Bool.or_true]
  obtain ⟨calls, hseen, hcomes⟩ := progress.comes
  have hcarried : Carried h s w groups (crew.collect h (worker, r)).error.isSome worker.place es
      worker.group calls r := .mk taken hseen (hcomes.mono hle) htold
  have helse : ∀ i, i ∉ hands.map (·.1.place) → i ≠ worker.place →
      i ∉ ((worker, Post.through r) :: hands).map (·.1.place) := by
    intro i hi hne hmem
    rcases List.mem_cons.mp hmem with heq | hmem
    · exact hne heq
    · exact hi hmem
  have hself := @groups_collect_self σ h worker crew r hknown
  have hother : ∀ i, i ≠ worker.place →
      (crew.collect h (worker, r)).groups[i]? = crew.groups[i]? :=
    fun i => groups_collect_of_ne hknown
  have hhand : ∀ hand ∈ hands, hand.1.place ≠ worker.place := fun hand hh heq =>
    hnotin (List.mem_map.mpr ⟨hand, hh, heq⟩)
  refine {
    distinct := hnodup
    inBatch := fun hand hh => handled.inBatch hand (List.mem_cons_of_mem _ hh)
    outline := ?outline
    known := ?known
    held := ?held
    fate := ?fate
    blame := ?blame }
  case outline =>
    rw [groups_collect hknown, map_outline_set hknown hcarried.outline]
    exact handled.outline
  case known =>
    intro hand hh
    rw [hother _ (hhand hand hh)]
    exact handled.known hand (List.mem_cons_of_mem _ hh)
  case held =>
    intro hand hh
    obtain ⟨taken', progress'⟩ := handled.held hand (List.mem_cons_of_mem _ hh)
    exact .mk taken' (progress'.mono hle)
  case fate =>
    -- the worker's place is let go of here, so its group gets its fate
    intro i g hg hi
    by_cases hplace : i = worker.place
    · subst hplace
      rw [hself, Option.some.injEq] at hg
      subst hg
      exact .carried hcarried
    · rw [hother i hplace] at hg
      exact (handled.fate i g hg (helse i hi hplace)).mono hle
  case blame =>
    -- the first failure to be noticed is the one that is kept
    intro e he
    rw [error_collect] at he
    rcases Option.or_eq_some_iff.mp he with he | ⟨-, he⟩
    · obtain ⟨place, before, calls', r', hb, hi, hg, carried, hr⟩ := handled.blame e he
      have hne : place ≠ worker.place := fun heq => hi (List.mem_cons.mpr (.inl heq))
      refine ⟨place, before, calls', r', hb, fun hm => hi (List.mem_cons_of_mem _ hm), ?_, carried,
        hr⟩
      rw [hother place hne]
      exact hg
    · have hbatch := handled.inBatch _ List.mem_cons_self
      exact ⟨worker.place, worker.group, calls, r, hbatch, hnotin, hself,
        hcarried.mono fun _ => rfl, he⟩

theorem Handled.rearrange {hands' : List Hand}
    (handled : Handled h s w groups es crew batch hands) (same : hands.Perm hands')
    (w' : World σ) : Handled h s w groups es { crew with world := w' } batch hands' := by
  have hplaces := same.map (·.1.place)
  refine ⟨handled.outline, hplaces.nodup_iff.mp handled.distinct, ?_, ?_, ?_, ?_, ?_⟩
  · exact fun hand hh => handled.inBatch hand (same.mem_iff.mpr hh)
  · exact fun hand hh => handled.known hand (same.mem_iff.mpr hh)
  · exact fun hand hh => handled.held hand (same.mem_iff.mpr hh)
  · exact fun i g hg hi => handled.fate i g hg fun hm => hi (hplaces.mem_iff.mp hm)
  · intro e he
    obtain ⟨place, before, calls, r, hb, hi, hrest⟩ := handled.blame e he
    exact ⟨place, before, calls, r, hb, fun hm => hi (hplaces.mem_iff.mpr hm), hrest⟩

theorem Handled.settled (handled : Handled h s w groups es crew batch []) :
    Settled h s w groups crew.error.isSome es crew.groups :=
  ⟨handled.outline, fun i g hg => handled.fate i g hg (by simp)⟩

/-- Each kind of step keeps the account. All that is known of runs as wholes goes back to this one case
distinction. -/
theorem Step.account {c c' : Config σ} (names : (groups.map (·.name)).Nodup)
    (leads : Leads h s (.fresh w groups) es c) (step : Step h s c es' c')
    (before : Account h s w groups es c) : Account h s w groups (es ++ es') c' := by
  cases step with
  | refuse cycle =>
    obtain ⟨rfl, rfl, rfl⟩ := before
    exact ⟨false, .start h s _ _⟩
  | accept acyclic =>
    obtain ⟨rfl, rfl, rfl⟩ := before
    exact Settled.start h s _ _
  | finish | tire | starve =>
    rw [List.append_nil]
    exact ⟨false, before⟩
  | take unfinished ready first => exact Settled.take before leads first _
  -- the only step of a worker; what it does depends on its own post alone
  | work step => exact Handled.work names before step
  | notice kept =>
    rw [List.append_nil]
    exact Handled.notice before
  | lose alone => trivial
  | pass later same =>
    rw [List.append_nil]
    exact Handled.rearrange before same _
  | abort failed =>
    rw [List.append_nil]
    exact ⟨_, Handled.settled before⟩
  | next well =>
    rw [List.append_nil]
    have hsettled := Handled.settled before
    rw [well] at hsettled
    exact hsettled

/-- At every moment of a run every group is accounted for. It takes distinct names, for otherwise a
worker's calls could pass for those of another group. -/
theorem Leads.account {c : Config σ} (names : (groups.map (·.name)).Nodup)
    (leads : Leads h s (.fresh w groups) es c) : Account h s w groups es c := by
  induction leads with
  | refl => exact ⟨rfl, rfl, rfl⟩
  | step leads next ih => exact next.account names leads ih

/-- A group that is touched no more, or one in the hands of a worker. -/
theorem Leads.standing {c : Config σ} (names : (groups.map (·.name)).Nodup)
    (leads : Leads h s (.fresh w groups) es c) (alive : ∀ message, c ≠ .lost message) :
    c.groups.map (·.outline) = groups.map (·.outline) ∧ ∀ i g, c.groups[i]? = some g →
      (∃ stopped, Fate h s w groups stopped i es g) ∨
        ∃ stopped since p, Taken h s w groups i g es since ∧
          Progress s.programs stopped g (ofGroup g.name since) p := by
  have haccount := leads.account names
  cases c with
  | fresh w' now =>
    obtain ⟨rfl, rfl, rfl⟩ := haccount
    have hstart := Settled.start h s w' now
    exact ⟨hstart.outline, fun i g hg => .inl ⟨false, hstart.fate i g hg⟩⟩
  | between left w' now completed =>
    have hsettled : Settled h s w groups false es now := haccount
    exact ⟨hsettled.outline, fun i g hg => .inl ⟨false, hsettled.fate i g hg⟩⟩
  | home report =>
    obtain ⟨stopped, hsettled⟩ := haccount
    exact ⟨hsettled.outline, fun i g hg => .inl ⟨stopped, hsettled.fate i g hg⟩⟩
  | lost message => exact absurd rfl (alive message)
  | within left crew completed batch hands =>
    have handled : Handled h s w groups es crew batch hands := haccount
    refine ⟨handled.outline, fun i g hg => ?_⟩
    -- a group of the batch is held by a worker until that worker is noticed
    by_cases hi : i ∈ hands.map (·.1.place)
    · obtain ⟨hand, hh, rfl⟩ := List.mem_map.mp hi
      have hsame : crew.groups[hand.1.place]? = some g := hg
      rw [handled.known hand hh, Option.some.injEq] at hsame
      subst hsame
      obtain ⟨taken, progress⟩ := handled.held hand hh
      exact .inr ⟨_, _, _, taken, progress⟩
    · exact .inl ⟨_, handled.fate i g hg hi⟩

end Steps

/-! ## Tries -/

/-- How a group came to be taken up: nobody had touched it before, or it had been taken up already and
was brought back to be tried again. -/
inductive Tries (h : Host σ) (s : RunSettings) (w : World σ) (groups : List TaskGroup)
    (place : Nat) : TaskGroup → List Event → List Event → Prop
  | first {before : TaskGroup} {past since : List Event} {batch : List Nat}
    (found : groups[place]? = some before) (pending : before.status = .pending)
    (quiet : ofGroup before.name past = []) :
    Tries h s w groups place before (past ++ .taken batch :: since) since
  | again {before : TaskGroup} {past earlier since : List Event} {batch : List Nat} {c : Config σ}
    {calls : List Call} {r : Result} (leads : Leads h s (.fresh w groups) past c)
    (taken : Taken h s w groups place before past earlier)
    (seen : ofGroup before.name earlier = log calls)
    (comes : Comes s.programs false before calls r)
    (told : (failure? ⟨place, before⟩ r).isSome = true → false = true)
    (pending : (broughtBack before r).status = .pending)
    (tries : Tries h s w groups place before past earlier) :
    Tries h s w groups place (broughtBack before r) (past ++ .taken batch :: since) since

/-- What holds of a group whenever it is taken up is shown by induction on its tries. -/
theorem Taken.tries {place : Nat} {before : TaskGroup} {es since : List Event}
    (names : (groups.map (·.name)).Nodup) (taken : Taken h s w groups place before es since) :
    Tries h s w groups place before es since := by
  -- the induction is on the events: the try before this one was begun earlier
  induction hn : es.length using Nat.strongRecOn generalizing es since before with
  | ind n ih =>
    have hpending := taken.pending
    obtain ⟨leads, first, inBatch, found, last⟩ := taken
    rename_i past left w' now completed batch
    have hsettled : Settled h s w groups false past now := leads.account names
    cases hsettled.fate place before found with
    | untouched found' passed quiet => exact .first found' hpending quiet
    | @carried before' calls r carried =>
      obtain ⟨taken', seen, comes, told⟩ := carried
      have hshorter : past.length < n := by
        rw [← hn, List.length_append, List.length_cons]
        omega
      exact .again leads taken' seen comes told hpending (ih past.length hshorter taken' rfl)

end Interleaving

end Runbook
