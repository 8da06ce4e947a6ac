import Runbook.Proofs.Account

/-!
# What a run leaves alone of tasks

Working on a task changes its status and its error, and nothing else: with both set back, as for a task
that is given back (`Task.released`), the tasks of a group are the same before and after
(`Comes.released`). Since a group may be taken up more than once, the same is said of a group when it was
taken up (`Taken.released`), and so of all groups at the end of a run (`Leads.released`).
-/

set_option autoImplicit false

namespace Runbook

theorem Task.released_settled (t : Task) : t.settled.released = t.released := by
  unfold settled
  split <;> rfl

theorem map_released_settled (tasks : List Task) :
    (tasks.map Task.settled).map Task.released = tasks.map Task.released := by
  rw [List.map_map]
  exact List.map_congr_left fun t _ => t.released_settled

/-- A job that was called off has changed statuses and errors only. -/
theorem CalledOff.released {tasks left : List Task} (off : CalledOff tasks left) :
    left.map Task.released = tasks.map Task.released := by
  obtain ⟨split, isOpen, given⟩ := off
  rw [split, List.map_append, List.map_append, map_released_settled, List.map_cons, List.map_cons]
  rcases given with rfl | rfl
  · rfl
  · rfl

namespace Interleaving

variable {σ : Type} {h : Host σ} {s : RunSettings} {w : World σ} {groups : List TaskGroup}
  {programs : List String} {stopped : Bool} {calls : List Call}

/-- However a job ends, its tasks are the same but for their statuses and errors. -/
theorem Ends.released {tasks : List Task} {ending : Ending}
    (ends : Ends programs stopped tasks calls ending) :
    ending.tasks.map Task.released = tasks.map Task.released := by
  cases ends with
  | completed fine all => exact map_released_settled tasks
  | failed fine split isOpen chores asked why =>
    rw [split, List.map_append, List.map_append, map_released_settled]
    rfl
  | calledOff off fine asked back => exact back.released
  | recalled fine asked why back => exact back.released

/-- Whatever becomes of a group, its tasks are the same but for their statuses and errors. -/
theorem Comes.released {g : TaskGroup} {r : Result} (comes : Comes programs stopped g calls r) :
    (broughtBack g r).tasks.map Task.released = g.tasks.map Task.released := by
  cases comes with
  | declined off => rfl
  | died fine asked why => rfl
  | @ended calls ending ends =>
    have hreleased := ends.released
    obtain ⟨tasks, outcome⟩ := ending
    cases outcome <;> exact hreleased

/-- So it is when a group is taken up again, after any number of tries: each of them has left the tasks
what they were. -/
theorem Taken.released {place : Nat} {before : TaskGroup} {es since : List Event}
    (names : (groups.map (·.name)).Nodup) (taken : Taken h s w groups place before es since) :
    ∃ g, groups[place]? = some g ∧ before.tasks.map Task.released = g.tasks.map Task.released := by
  have tries := taken.tries names
  clear taken
  induction tries with
  | @first before past since batch found pending quiet => exact ⟨before, found, rfl⟩
  | again leads taken seen comes told pending tries ih =>
    obtain ⟨g, hg, hsame⟩ := ih
    exact ⟨g, hg, comes.released.trans hsame⟩

/-- At the end of a run all tasks are what they were, but for their statuses and errors: none is added,
lost or put in another place, and their texts and numbers are their own. -/
theorem Leads.released {es : List Event} {report : Schedule.Report σ}
    (names : (groups.map (·.name)).Nodup) (leads : Leads h s (.fresh w groups) es (.home report)) :
    report.groups.map (·.tasks.map Task.released) = groups.map (·.tasks.map Task.released) := by
  obtain ⟨stopped, settled⟩ : ∃ stopped, Settled h s w groups stopped es report.groups :=
    leads.account names
  refine List.ext_getElem? fun i => ?_
  rw [List.getElem?_map, List.getElem?_map]
  cases hg : report.groups[i]? with
  | none =>
    rw [List.getElem?_eq_none_iff, length_of_outline settled.outline,
      ← List.getElem?_eq_none_iff] at hg
    rw [hg]
  | some g =>
    cases settled.fate i g hg with
    | untouched found passed quiet => rw [found]
    | carried carried =>
      obtain ⟨taken, seen, comes, told⟩ := carried
      obtain ⟨g', hg', hsame⟩ := taken.released names
      rw [hg', Option.map_some, Option.map_some, comes.released, hsame]

end Interleaving

end Runbook
