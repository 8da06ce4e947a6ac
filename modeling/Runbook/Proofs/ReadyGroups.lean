import Runbook.Execution.Schedule

/-!
# Names as a set, and which groups are ready

The completed names are kept as a list in order without repeats, and the rounds compare its length
with the number of groups. This file says what that list is: its members (`mem_nameSet`,
`mem_addCompleted`), that it holds no name twice, and so how long it is (`length_of_completed`).
The places that are ready are said in the same way (`mem_ready`).
-/

set_option autoImplicit false

namespace Runbook

/-! ## Distinct names -/

/-- The scheduler works with places, while what is completed and what is waited for is told by names. As
long as no name is given twice, two places are two names. -/
theorem name_ne_of_place_ne {groups : List TaskGroup} (names : (groups.map (·.name)).Nodup)
    {i j : Nat} {g g' : TaskGroup} (hi : groups[i]? = some g) (hj : groups[j]? = some g')
    (hne : i ≠ j) : g.name ≠ g'.name := by
  intro heq
  have hlt : i < (groups.map (·.name)).length := by
    simpa using (List.getElem?_eq_some_iff.mp hi).1
  exact hne ((List.getElem?_inj hlt names).mp (by simp [hi, hj, heq]))

/-- The same from the other side: a name stands for one group only, so whatever is known of a group by
its name is known of the group itself. -/
theorem eq_of_name_eq {groups : List TaskGroup} (names : (groups.map (·.name)).Nodup)
    {g g' : TaskGroup} (hg : g ∈ groups) (hg' : g' ∈ groups) (same : g.name = g'.name) :
    g = g' := by
  obtain ⟨i, hi⟩ := List.mem_iff_getElem?.mp hg
  obtain ⟨j, hj⟩ := List.mem_iff_getElem?.mp hg'
  by_cases hij : i = j
  · subst hij
    exact Option.some.inj (hi.symm.trans hj)
  · exact absurd same (name_ne_of_place_ne names hi hj hij)

/-! ## Sets of names -/

/-- A name goes to where the order has it. Lists in order are what the completed names are kept as,
because then the same names are always the same list. -/
theorem insertName_pairwise {name : String} {names : List String}
    (h : names.Pairwise (· < ·)) : (insertName name names).Pairwise (· < ·) := by
  induction names with
  | nil => simp [insertName]
  | cons n ns ih =>
    obtain ⟨hn, hns⟩ := List.pairwise_cons.mp h
    unfold insertName
    split
    · exact h
    · rename_i hne
      split
      · rename_i hlt
        refine List.pairwise_cons.mpr ⟨fun m hm => ?_, h⟩
        rcases List.mem_cons.mp hm with rfl | hm
        · exact hlt
        · exact String.lt_trans hlt (hn m hm)
      · rename_i hnlt
        have hgt : n < name := by
          rcases Std.lt_trichotomy name n with hlt | rfl | hgt
          · exact absurd hlt hnlt
          · exact absurd rfl hne
          · exact hgt
        refine List.pairwise_cons.mpr ⟨fun m hm => ?_, ih hns⟩
        rcases mem_insertName.mp hm with rfl | hm
        · exact hgt
        · exact hn m hm

/-- A strict order leaves no room for a second copy of a name, so its length counts names. -/
theorem nodup_of_pairwise_lt {names : List String} (h : names.Pairwise (· < ·)) :
    names.Nodup := by
  refine h.imp ?_
  rintro a b hlt rfl
  exact String.lt_irrefl a hlt

/-- Adding names one after the other keeps the order and adds just these names. Both are said at once
because the one induction gives both, and from them follows all that is known of a set of names. -/
theorem foldl_insertName (names set : List String) :
    (set.Pairwise (· < ·) →
      (names.foldl (fun set n => insertName n set) set).Pairwise (· < ·)) ∧
    ∀ a, a ∈ names.foldl (fun set n => insertName n set) set ↔ a ∈ set ∨ a ∈ names := by
  induction names generalizing set with
  | nil => simp
  | cons n ns ih =>
    obtain ⟨hsorted, hmem⟩ := ih (insertName n set)
    refine ⟨fun h => hsorted (insertName_pairwise h), fun a => ?_⟩
    rw [List.foldl_cons, hmem, mem_insertName, List.mem_cons, or_assoc]
    exact or_left_comm

theorem nameSet_pairwise (names : List String) : (nameSet names).Pairwise (· < ·) :=
  (foldl_insertName names []).1 .nil

/-- Putting names in order neither loses one nor makes one up. -/
@[simp] theorem mem_nameSet {a : String} {names : List String} : a ∈ nameSet names ↔ a ∈ names := by
  simpa [nameSet] using (foldl_insertName names []).2 a

namespace Schedule

/-- Some group of the name is completed. It is said of the name because a group waits for names. -/
def IsCompleted (groups : List TaskGroup) (name : String) : Prop :=
  ∃ g ∈ groups, g.status = .completed ∧ g.name = name

/-- The completed names that a run starts from are those of the groups that are completed already, as in
a plan that is run for the second time. -/
theorem mem_completedNames {groups : List TaskGroup} {name : String} :
    name ∈ completedNames groups ↔ IsCompleted groups name := by
  simp [completedNames, IsCompleted, and_assoc]

/-- A group that is still to do is none of the completed ones, so another may take its place. -/
theorem IsCompleted.set {groups : List TaskGroup} {name : String} (done : IsCompleted groups name)
    {place : Nat} {g : TaskGroup} (found : groups[place]? = some g) (pending : g.status = .pending)
    (g' : TaskGroup) : IsCompleted (groups.set place g') name := by
  obtain ⟨g₁, hg₁, hstatus, hname⟩ := done
  obtain ⟨i, hi⟩ := List.mem_iff_getElem?.mp hg₁
  have hne : place ≠ i := by
    rintro rfl
    rw [found, Option.some.injEq] at hi
    rw [← hi, pending] at hstatus
    cases hstatus
  rw [← List.getElem?_set_ne (a := g') hne] at hi
  exact ⟨g₁, List.mem_of_getElem? hi, hstatus, hname⟩

/-- A batch is settled one place after the other. It holds by definition, and it is what an induction on
the batch rewrites with. -/
theorem addCompleted_cons (groups : List TaskGroup) (place : Nat) (batch : List Nat)
    (completed : List String) :
    addCompleted groups (place :: batch) completed =
      addCompleted groups batch (addCompleted groups [place] completed) := rfl

theorem addCompleted_pairwise {groups : List TaskGroup} {batch : List Nat}
    {completed : List String} (h : completed.Pairwise (· < ·)) :
    (addCompleted groups batch completed).Pairwise (· < ·) := by
  induction batch generalizing completed with
  | nil => exact h
  | cons place batch ih =>
    rw [addCompleted_cons]
    refine ih ?_
    simp only [addCompleted, List.foldl_cons, List.foldl_nil]
    split
    · split
      · exact insertName_pairwise h
      · exact h
    · exact h

/-- After a batch the names of its completed groups have been added and no others: a group of the batch
that failed leaves the set as it was. -/
theorem mem_addCompleted {groups : List TaskGroup} {batch : List Nat} {completed : List String}
    {name : String} :
    name ∈ addCompleted groups batch completed ↔ name ∈ completed ∨
      ∃ place ∈ batch, ∃ g, groups[place]? = some g ∧ g.status = .completed ∧ g.name = name := by
  induction batch generalizing completed with
  | nil => simp [addCompleted]
  | cons place batch ih =>
    rw [addCompleted_cons, ih]
    simp only [addCompleted, List.foldl_cons, List.foldl_nil, List.mem_cons]
    cases hg : groups[place]? with
    | none => simp [hg]
    | some g =>
      by_cases hc : g.status = .completed
      · simp [hg, hc, mem_insertName]
        grind
      · simp [hg, hc]

/-- Why a run may compare two numbers to find out whether it is through: the set has one name for each
completed group. This needs distinct names, for two completed groups of one name would be counted once.
-/
theorem length_of_completed {groups : List TaskGroup} {completed : List String}
    (distinct : (groups.map (·.name)).Nodup) (sorted : completed.Pairwise (· < ·))
    (mem : ∀ name, name ∈ completed ↔ IsCompleted groups name) :
    completed.length = (groups.filter (·.status == .completed)).length := by
  have hnodup : ((groups.filter (·.status == .completed)).map (·.name)).Nodup :=
    distinct.sublist (List.Sublist.map _ List.filter_sublist)
  -- two lists without repeats that have the same members are as long as each other
  have hperm : completed.Perm ((groups.filter (·.status == .completed)).map (·.name)) := by
    refine (List.perm_ext_iff_of_nodup (nodup_of_pairwise_lt sorted) hnodup).mpr fun name => ?_
    rw [mem, IsCompleted]
    simp [and_assoc]
  rw [hperm.length_eq, List.length_map]

end Schedule

/-! ## Ready places -/

namespace Dependency

/-- A place is ready when its group is pending and the names that it waits for are all completed. A
group that has failed is never ready again, which is why no group is tried twice. -/
theorem mem_ready {groups : List TaskGroup} {completed : List String} {place : Nat} :
    place ∈ ready groups completed ↔ ∃ g, groups[place]? = some g ∧ g.status = .pending ∧
      g.isReady completed = true := by
  simp [ready, List.mem_zipIdx_iff_getElem?]

/-- No place is ready twice, so no group gets two hands in one batch. -/
theorem ready_nodup (groups : List TaskGroup) (completed : List String) :
    (ready groups completed).Nodup := by
  have hall : (groups.zipIdx.map (·.2)).Nodup := by
    rw [List.zipIdx_map_snd]
    exact List.nodup_range'
  exact hall.sublist (List.Sublist.map _ List.filter_sublist)

end Dependency

end Runbook
