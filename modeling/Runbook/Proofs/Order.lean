import Runbook.Proofs.CallsInFlight
import Runbook.Proofs.SteadyHost

/-!
# In which order commands run

Whatever the order of events, the commands of one group run in turn, no group begins before the
groups it waits for are through, no more groups run side by side than a batch may hold, and batches
run one after the other (`Orderly`). On a steady host this holds at every moment of every run, and
what is carried out is such a run (`run_orderly`).
-/

set_option autoImplicit false

namespace Runbook.Interleaving

open Schedule (IsCompleted)

variable {σ : Type} {h : Host σ} {s : RunSettings} {w : World σ} {groups : List TaskGroup}
  {es es' : List Event} {c c' : Config σ}

/-! ## Calls in turn -/

/-- Calls are made in turn, each after the one before it has ended with exit code zero. The last one may
have failed, or be in flight. That it is a list of events, and not of calls, is what rules out an
overlap. -/
inductive InTurn : List Call → List Event → Prop
  | ended {calls : List Call} (fine : ∀ c ∈ calls.dropLast, c.succeeded = true) :
    InTurn calls (log calls)
  | inFlight {calls : List Call} {call : Call} (fine : ∀ c ∈ calls, c.succeeded = true) :
    InTurn (calls ++ [call]) (log calls ++ [.began call])

theorem Progress.inTurn {programs : List String} {stopped : Bool} {g : TaskGroup} {p : Post}
    (progress : Progress programs stopped g es p) :
    ∃ calls, InTurn calls es ∧ calls.map (·.command) <+: g.commands programs := by
  cases progress with
  | fresh => exact ⟨[], .ended (by simp), List.nil_prefix⟩
  | @busy calls job fine stands =>
    exact ⟨calls, .ended fun c hc => fine c (List.dropLast_subset _ hc), stands.isPrefix⟩
  | @waits calls asked call fine stands command group =>
    refine ⟨calls ++ [call], .inFlight fine, ?_⟩
    rw [List.map_append, List.map_singleton, command]
    exact stands.isPrefix
  | @through calls r comes =>
    obtain ⟨hfine, hprefix⟩ := comes.inTurn
    exact ⟨calls, .ended hfine, hprefix⟩

/-! ## The calls of a group at any moment -/

section Steady

variable (names : (groups.map (·.name)).Nodup) (steady : h.Steady)
include names steady

/-- The calls of a group so far are the first of its commands, made in turn; and all of them when it
has been completed in this run. -/
theorem Leads.inTurn (leads : Leads h s (.fresh w groups) es c) {i : Nat} {g : TaskGroup}
    (found : groups[i]? = some g) :
    ∃ calls, InTurn calls (ofGroup g.name es) ∧
      calls.map (·.command) <+: g.commands s.programs ∧
      ∀ g', c.groups[i]? = some g' → g.status ≠ .completed → g'.status = .completed →
        calls.map (·.command) = g.commands s.programs := by
  obtain ⟨houtline, hstanding⟩ := leads.standing names (leads.not_lost_of_alive steady.alive)
  obtain ⟨g', hg', hsame⟩ := exists_of_outline houtline found
  rcases hstanding i g' hg' with ⟨stopped, fate⟩ | ⟨stopped, since, p, taken, progress⟩
  · cases fate with
    | untouched found' passed quiet =>
      -- nothing has been seen of the group, and it is as it was, so it has not been completed
      rw [found, Option.some.injEq] at found'
      subst found'
      rw [quiet]
      refine ⟨[], .ended (by simp), List.nil_prefix, fun g' hg'' hnot hdone => ?_⟩
      rw [hg', Option.some.injEq] at hg''
      rw [← hg''] at hdone
      exact absurd hdone hnot
    | @carried before calls r carried =>
      obtain ⟨taken, seen, comes, told⟩ := carried
      obtain ⟨hfirst, hcalls⟩ := taken.first names steady
      rw [found, Option.some.injEq] at hfirst
      subst hfirst
      obtain ⟨hfine, hprefix⟩ := comes.inTurn
      rw [hcalls, seen]
      refine ⟨calls, .ended hfine, hprefix, fun g' hg'' hnot hdone => ?_⟩
      rw [hg', Option.some.injEq] at hg''
      rw [← hg''] at hdone
      exact (comes.all_of_completed taken.pending hdone).2
  · obtain ⟨hfirst, hcalls⟩ := taken.first names steady
    rw [found, Option.some.injEq] at hfirst
    subst hfirst
    obtain ⟨calls, hturn, hprefix⟩ := progress.inTurn
    rw [hcalls]
    refine ⟨calls, hturn, hprefix, fun g' hg'' hnot hdone => ?_⟩
    rw [hg', Option.some.injEq] at hg''
    rw [← hg'', taken.pending] at hdone
    cases hdone

/-- How much is seen of a group that has been completed: two events for each of its commands, and
nothing if it had been completed before. Once that much has been seen there is nothing left to see. -/
theorem Leads.length_of_completed (leads : Leads h s (.fresh w groups) es c) {i : Nat}
    {g g' : TaskGroup} (found : groups[i]? = some g) (found' : c.groups[i]? = some g')
    (done : g'.status = .completed) :
    (ofGroup g'.name es).length =
      if g.status = .completed then 0 else 2 * (g.commands s.programs).length := by
  obtain ⟨houtline, hstanding⟩ := leads.standing names (leads.not_lost_of_alive steady.alive)
  rcases hstanding i g' found' with ⟨stopped, fate⟩ | ⟨stopped, since, p, taken, progress⟩
  · cases fate with
    | untouched found'' passed quiet =>
      rw [found, Option.some.injEq] at found''
      subst found''
      rw [quiet, if_pos done, List.length_nil]
    | @carried before calls r carried =>
      have hname := TaskGroup.name_eq_of_outline carried.outline
      obtain ⟨taken, seen, comes, told⟩ := carried
      obtain ⟨hfirst, hcalls⟩ := taken.first names steady
      rw [found, Option.some.injEq] at hfirst
      subst hfirst
      have hall := (comes.all_of_completed taken.pending done).2
      rw [hname, hcalls, seen, if_neg (by simp [taken.pending]), length_log, ← hall,
        List.length_map]
  · rw [taken.pending] at done
    cases done

/-- Nothing is seen any more of a group that has been completed. -/
theorem Leads.quiet_of_completed (before : Leads h s (.fresh w groups) es c)
    (leads : Leads h s c es' c') {name : String} (done : IsCompleted c.groups name) :
    ofGroup name es' = [] := by
  obtain ⟨g', hg', hstatus, rfl⟩ := done
  obtain ⟨i, hi⟩ := List.mem_iff_getElem?.mp hg'
  have hall := before.trans leads
  have halive := hall.not_lost_of_alive steady.alive
  obtain ⟨houtline, -⟩ := before.standing names (before.not_lost_of_alive steady.alive)
  obtain ⟨g, hg, -⟩ := exists_of_outline houtline.symm hi
  have hstays := before.stays names leads halive hi (by simp [hstatus])
  -- as much has been seen at the end as before
  have hbefore := before.length_of_completed names steady hg hi hstatus
  have hafter := hall.length_of_completed names steady hg hstays hstatus
  rw [ofGroup_append, List.length_append, hbefore] at hafter
  exact List.length_eq_zero_iff.mp (Nat.add_eq_left.mp hafter)

end Steady

/-! ## Order -/

/-- The order of commands in a run from some groups, at a moment of it. -/
structure Orderly (h : Host σ) (s : RunSettings) (groups : List TaskGroup) (es : List Event)
    (c : Config σ) : Prop where
  /-- The calls of a group are the first of its commands, in turn, and all of them when it has been
  completed in this run. -/
  inTurn : ∀ (i : Nat) (g : TaskGroup), groups[i]? = some g →
    ∃ calls, InTurn calls (ofGroup g.name es) ∧ calls.map (·.command) <+: g.commands s.programs ∧
      ∀ g' : TaskGroup, c.groups[i]? = some g' → g.status ≠ .completed → g'.status = .completed →
        calls.map (·.command) = g.commands s.programs
  /-- A call that begins belongs to a group of the batch under way. All groups that it waits for
  have been completed, and nothing is seen of them any more. -/
  waits : ∀ call c', Step h s c [.began call] c' →
    ∃ batch, ∃ i : Nat, ∃ g : TaskGroup, Latest batch es ∧ i ∈ batch ∧ groups[i]? = some g ∧
      call.group = some g.name ∧ ∀ name ∈ g.dependencies,
        IsCompleted c.groups name ∧ ∀ es' c'', Leads h s c' es' c'' → ofGroup name es' = []
  /-- The calls in flight belong to as many groups, and to no more than a batch may hold. -/
  bounded : ((inFlight es).map (·.group)).Nodup ∧ (inFlight es).length ≤ max 1 s.batchSize
  /-- When a batch is taken up, every call has ended. -/
  apart : ∀ batch c', Step h s c [.taken batch] c' → inFlight es = []

section Steady

variable (names : (groups.map (·.name)).Nodup) (steady : h.Steady)
include names steady

theorem Leads.waits (leads : Leads h s (.fresh w groups) es c) {call : Call}
    (next : Step h s c [.began call] c') :
    ∃ batch i g, Latest batch es ∧ i ∈ batch ∧ groups[i]? = some g ∧ call.group = some g.name ∧
      ∀ name ∈ g.dependencies, IsCompleted c.groups name ∧
        ∀ es' c'', Leads h s c' es' c'' → ofGroup name es' = [] := by
  have hafter := leads.step next
  -- the event is an index of `Step`, so it becomes a variable before the case split
  generalize hes : [Event.began call] = began at next
  cases next with
  | refuse | accept | finish | tire | starve | take | notice | lose | pass | abort | next =>
    cases hes
  | @work left crew completed batch worker p p' hands es₁ w₁ step =>
    subst hes
    have handled : Handled h s w groups es crew batch ((worker, p) :: hands) := leads.account names
    have underway : Underway s es crew.groups completed batch := leads.ledger names
    have hknown : crew.groups[worker.place]? = some worker.group :=
      handled.known _ List.mem_cons_self
    have hbatch : worker.place ∈ batch := handled.inBatch _ List.mem_cons_self
    obtain ⟨taken, progress⟩ := handled.held _ List.mem_cons_self
    have hgroup : call.group = some worker.group.name := by
      have hself := step.ofGroup_self progress
      have hmem : Event.began call ∈ ofGroup worker.group.name [.began call] := by
        rw [hself]
        exact List.mem_singleton_self _
      simpa [ofGroup, Event.isOf] using hmem
    refine ⟨batch, worker.place, worker.group, underway.latest, hbatch,
      (taken.first names steady).1, hgroup, fun name hname => ?_⟩
    have hdone := underway.dependencies_completed hbatch hknown hname
    have hdone' : IsCompleted (Config.groups (.within left { crew with world := w₁ } completed batch
      ((worker, p') :: hands))) name := hdone
    exact ⟨hdone, fun es' c'' later => hafter.quiet_of_completed names steady later hdone'⟩

/-- No two calls in flight belong to one group, and there are never more of them than a batch may hold.
-/
theorem Leads.bounded (leads : Leads h s (.fresh w groups) es c) :
    ((inFlight es).map (·.group)).Nodup ∧ (inFlight es).length ≤ max 1 s.batchSize := by
  have hflight := leads.flight (leads.not_lost_of_alive steady.alive)
  have haccount := leads.account names
  have hledger := leads.ledger names
  rw [(hflight.map (·.group)).nodup_iff, hflight.length_eq]
  cases c with
  | fresh | between | home | lost => exact ⟨.nil, Nat.zero_le _⟩
  | within left crew completed batch hands =>
    have handled : Handled h s w groups es crew batch hands := haccount
    have underway : Underway s es crew.groups completed batch := hledger
    refine ⟨handled.outstanding_nodup names, ?_⟩
    calc (outstanding hands).length
      _ ≤ hands.length := length_outstanding_le hands
      _ ≤ batch.length := handled.length_le
      _ ≤ s.effectiveBatchSize := underway.size
      _ = max 1 s.batchSize := Nat.max_comm _ _

omit names in
/-- When a batch is taken up nothing is in flight, so two batches never run side by side. -/
theorem Leads.apart (leads : Leads h s (.fresh w groups) es c) {batch : List Nat}
    (next : Step h s c [.taken batch] c') : inFlight es = [] := by
  have hflight := leads.flight (leads.not_lost_of_alive steady.alive)
  generalize hes : [Event.taken batch] = taken at next
  cases next with
  | refuse | accept | finish | tire | starve | notice | lose | pass | abort | next => cases hes
  | take => exact List.perm_nil.mp hflight
  | work step =>
    subst hes
    exact absurd List.mem_cons_self (step.not_taken batch)

/-- Whatever the order of events, commands run in order; and what is carried out is a run that comes
home, with the calls that have been seen of it. -/
theorem run_orderly (w : World σ) :
    (∀ es c, Leads h s (.fresh w groups) es c → Orderly h s groups es c) ∧
      ∃ report es, Schedule.run (Bench.ofSettings h s) s.effectiveBatchSize w groups = .ok report ∧
        Leads h s (.fresh w groups) es (.home report) ∧
        report.world.calls = w.calls ++ begun es := by
  constructor
  · intro es c leads
    exact {
      inTurn := fun i g found => leads.inTurn names steady found
      waits := fun call c' next => leads.waits names steady next
      bounded := leads.bounded names steady
      apart := fun batch c' next => leads.apart steady next }
  · obtain ⟨report, es, hrun, leads⟩ := run_home_of_steady steady
    exact ⟨report, es, hrun, leads, leads.calls rfl⟩

end Steady

/-- Two groups are carried out in order on a host on which everything succeeds. -/
theorem run_orderly_of_two :
    (buildThenTest.map (·.name)).Nodup ∧ Host.obliging.Steady ∧
      (∀ es c, Leads Host.obliging {} (.fresh { host := () } buildThenTest) es c →
        Orderly Host.obliging {} buildThenTest es c) ∧
      ∃ report es, Schedule.run (Bench.ofSettings Host.obliging {})
          (RunSettings.effectiveBatchSize {}) { host := () } buildThenTest = .ok report ∧
        Leads Host.obliging {} (.fresh { host := () } buildThenTest) es (.home report) ∧
        report.world.calls = [] ++ begun es :=
  ⟨by decide, Host.obliging_steady, run_orderly (by decide) Host.obliging_steady { host := () }⟩

end Runbook.Interleaving
