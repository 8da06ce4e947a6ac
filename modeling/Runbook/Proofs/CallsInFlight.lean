import Runbook.Proofs.Ledger

/-!
# What is in flight

The calls that have begun and not ended are those of the hands that wait for an answer
(`Leads.flight`), so there are no more of them than hands, and none between two batches. Every call
that begins is written down in the world (`Leads.calls`).
-/

set_option autoImplicit false

namespace Runbook.Interleaving

variable {σ : Type} {h : Host σ} {s : RunSettings} {w : World σ} {groups now : List TaskGroup}
  {es es' : List Event} {c c' : Config σ} {batch : List Nat}

/-! ## The calls of the hands -/

/-- The call that a hand waits for, if it waits for one. A hand has one call at a time, because a job
asks for the next command when the last one has been answered. -/
def Post.calls : Post → List Call
  | .waits _ call => [call]
  | .fresh | .busy _ | .through _ => []

/-- The calls that some hands wait for, in the order of the hands. -/
def outstanding (hands : List Hand) : List Call := hands.flatMap (·.2.calls)

/-- The hands that are at work at a moment of a run. There are some only within a batch. -/
def Config.hands : Config σ → List Hand
  | .within _ _ _ _ hands => hands
  | .fresh _ _ | .between _ _ _ _ | .home _ | .lost _ => []

@[simp] theorem outstanding_cons (worker : Worker) (p : Post) (hands : List Hand) :
    outstanding ((worker, p) :: hands) = p.calls ++ outstanding hands := rfl

theorem outstanding_freshHands (now : List TaskGroup) (batch : List Nat) :
    outstanding (freshHands now batch) = [] := by
  refine List.flatMap_eq_nil_iff.mpr fun hand hh => ?_
  obtain ⟨-, -, hfresh⟩ := mem_freshHands.mp hh
  rw [hfresh]
  rfl

/-- What one hand does keeps the balance: a call that begins is one that the hand now waits for, and one
that ends is one that it no longer waits for. It is a permutation because the hands do not wait in the
order in which the calls began. -/
theorem WorkStep.flight {cancelled : Bool} {g : TaskGroup} {w₁ w₂ : World σ} {p p' : Post}
    {calls others : List Call} (step : WorkStep h s cancelled g w₁ p es w₂ p')
    (before : calls.Perm (p.calls ++ others)) :
    (es.foldl flight calls).Perm (p'.calls ++ others) := by
  cases step with
  | start | decline | go | stop => exact before
  | ask moved called => exact before.cons _
  | @goOn asked call | @giveUp asked call | @die asked call =>
    have herased := before.erase call
    rw [Post.calls, List.singleton_append, List.erase_cons_head] at herased
    exact herased

/-- One step of a run keeps the balance. A batch begins and ends with no hand waiting. -/
theorem Step.flight (step : Step h s c es' c') (alive : ∀ message, c' ≠ .lost message)
    (before : (inFlight es).Perm (outstanding c.hands)) :
    (inFlight (es ++ es')).Perm (outstanding c'.hands) := by
  cases step with
  | refuse | accept | finish | tire | starve | abort | next =>
    rw [List.append_nil]
    exact before
  | @take _ _ now _ batch =>
    rw [inFlight_append]
    show (inFlight es).Perm (outstanding (freshHands now batch))
    rw [outstanding_freshHands]
    exact before
  | work step =>
    rw [inFlight_append]
    exact step.flight before
  | notice =>
    rw [List.append_nil]
    exact before
  | lose => exact absurd rfl (alive _)
  | pass later same =>
    rw [List.append_nil]
    exact before.trans (same.flatMap_right _)

/-- What is in flight are the calls that the hands wait for. A run whose worker is lost is left out, for
it may break off in the middle of a call. -/
theorem Leads.flight (leads : Leads h s (.fresh w groups) es c)
    (alive : ∀ message, c ≠ .lost message) : (inFlight es).Perm (outstanding c.hands) := by
  induction leads with
  | refl => exact .refl _
  | step leads next ih => exact next.flight alive (ih next.not_lost)

/-! ## How many -/

theorem length_outstanding_le (hands : List Hand) : (outstanding hands).length ≤ hands.length := by
  induction hands with
  | nil => exact Nat.le_refl 0
  | cons hand hands ih =>
    obtain ⟨worker, p⟩ := hand
    have hp : p.calls.length ≤ 1 := by cases p <;> simp [Post.calls]
    rw [outstanding_cons, List.length_append, List.length_cons]
    omega

/-- A batch has a hand for each of its places at most. -/
theorem Handled.length_le {crew : Crew σ} {hands : List Hand}
    (handled : Handled h s w groups es crew batch hands) : hands.length ≤ batch.length := by
  have hsubset : hands.map (·.1.place) ⊆ batch := by
    intro place hp
    obtain ⟨hand, hh, rfl⟩ := List.mem_map.mp hp
    exact handled.inBatch hand hh
  have hle := handled.distinct.length_le_of_subset hsubset
  rwa [List.length_map] at hle

/-- A hand calls for its own group, so the call that it waits for bears the name of that group. -/
theorem Progress.group_of_mem {programs : List String} {stopped : Bool} {g : TaskGroup}
    {p : Post} (progress : Progress programs stopped g es p) {call : Call} (mem : call ∈ p.calls) :
    call.group = some g.name := by
  cases progress with
  | fresh | busy | through => cases mem
  | waits fine stands command group =>
    rw [List.mem_singleton.mp mem]
    exact group

theorem outstanding_groups {hands : List Hand}
    (own : ∀ hand ∈ hands, ∀ call ∈ hand.2.calls, call.group = some hand.1.group.name) :
    ((outstanding hands).map (·.group)).Sublist (hands.map fun hand => some hand.1.group.name) := by
  induction hands with
  | nil => exact .slnil
  | cons hand hands ih =>
    obtain ⟨worker, p⟩ := hand
    have hrest := ih fun hand hh => own hand (List.mem_cons_of_mem _ hh)
    have hself := own (worker, p) List.mem_cons_self
    rw [outstanding_cons, List.map_append, List.map_cons]
    cases p with
    | fresh | busy | through => exact hrest.cons _
    | waits asked call =>
      rw [Post.calls, List.map_cons, List.map_nil, hself call List.mem_cons_self]
      exact hrest.cons_cons _

/-- No two hands wait for calls of one group. The hands are at distinct places, so their groups have
distinct names. -/
theorem Handled.outstanding_nodup {crew : Crew σ} {hands : List Hand}
    (names : (groups.map (·.name)).Nodup)
    (handled : Handled h s w groups es crew batch hands) :
    ((outstanding hands).map (·.group)).Nodup := by
  have hown : ∀ hand ∈ hands, ∀ call ∈ hand.2.calls, call.group = some hand.1.group.name := by
    intro hand hh call hc
    obtain ⟨taken, progress⟩ := handled.held hand hh
    exact progress.group_of_mem hc
  -- the groups of the calls are among the groups of the hands, which stand at distinct places
  refine List.Nodup.sublist (outstanding_groups hown) ?_
  rw [← names_of_outline handled.outline] at names
  have hplaces := List.pairwise_map.mp handled.distinct
  refine List.pairwise_map.mpr (hplaces.imp_of_mem fun ha hb hne heq => ?_)
  exact name_ne_of_place_ne names (handled.known _ ha) (handled.known _ hb) hne
    (Option.some.inj heq)

/-! ## Calls that are written down -/

/-- The world as it is at a moment of a run; none when a worker that worked alone is lost, because the
run then ends without a report. -/
def Config.world? : Config σ → Option (World σ)
  | .fresh w _ | .between _ w _ _ => some w
  | .within _ crew _ _ _ => some crew.world
  | .home report => some report.world
  | .lost _ => none

/-- The world writes down every call when it begins, so it has the calls that the events tell of. -/
theorem Step.calls (step : Step h s c es' c') {w₁ w₂ : World σ} (first : c.world? = some w₁)
    (second : c'.world? = some w₂) : w₂.calls = w₁.calls ++ begun es' := by
  cases step with
  | refuse | accept | finish | tire | starve | abort | next | pass | take =>
    cases first
    cases second
    simp [World.say, World.waitUntil, Schedule.Report.refuse, begun]
  | work step =>
    cases first
    cases second
    exact step.calls
  | @notice _ _ _ _ _ r =>
    cases first
    cases second
    cases r <;> simp [Crew.collect, World.say]
  | lose => cases second

/-- The calls of a run are read off its events. What is said of events is thereby said of what the host
is asked to do. -/
theorem Leads.calls {w' : World σ} (leads : Leads h s (.fresh w groups) es c)
    (now : c.world? = some w') : w'.calls = w.calls ++ begun es := by
  induction leads generalizing w' with
  | refl =>
    cases now
    simp
  | @step es es' c₁ c₂ leads next ih =>
    obtain ⟨w₁, hw₁⟩ : ∃ w₁, c₁.world? = some w₁ := by
      cases c₁ with
      | fresh | between | within | home => exact ⟨_, rfl⟩
      | lost message => exact absurd rfl (next.not_lost message)
    rw [next.calls hw₁ now, ih hw₁, begun_append, List.append_assoc]

end Runbook.Interleaving
