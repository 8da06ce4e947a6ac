import Runbook.Proofs.Cycle

/-!
# Chains of groups

Within a plan every group waits for the one before it. Such a chain has no cycle, because whatever a
group waits for stands before it (`Linked.acyclic`), and when some first groups of it have been
completed exactly the next one is ready (`Linked.ready`). So a plan is carried out one group at a
time, from top to bottom.
-/

set_option autoImplicit false

namespace Runbook.Dependency

open Relation (TransGen)

/-- Every group waits for the one before it and for nothing else; the first one waits for the previous
one, if there is one. The previous one is a parameter so that the rest of a chain is a chain. -/
def Linked : Option String → List TaskGroup → Prop
  | _, [] => True
  | previous, g :: gs => g.dependencies = previous.toList ∧ Linked (some g.name) gs

variable {previous : Option String} {groups done gs : List TaskGroup} {g : TaskGroup}

/-! ## Chaining -/

theorem linked_chainedAfter (free : ∀ g ∈ groups, g.dependencies = []) (name : String) :
    Linked (some name) (chainedAfter name groups) := by
  induction groups generalizing name with
  | nil => trivial
  | cons g gs ih =>
    refine ⟨?_, ih (fun g' hg' => free g' (List.mem_cons_of_mem _ hg')) g.name⟩
    rw [TaskGroup.addDependency, free g List.mem_cons_self]
    rfl

/-- A plan is made into a chain by adding to each group that it waits for the one before. It takes
groups that wait for nothing yet, as all groups are that have just been read. -/
theorem linked_chained (free : ∀ g ∈ groups, g.dependencies = []) :
    Linked none (chained groups) := by
  cases groups with
  | nil => trivial
  | cons g gs =>
    refine ⟨free g List.mem_cons_self, linked_chainedAfter (fun g' hg' => ?_) g.name⟩
    exact free g' (List.mem_cons_of_mem _ hg')

theorem map_chained {β : Type} (f : TaskGroup → β)
    (same : ∀ (g : TaskGroup) (name : String), f (g.addDependency name) = f g) :
    (chained groups).map f = groups.map f := by
  have hafter : ∀ (groups : List TaskGroup) (name : String),
      (chainedAfter name groups).map f = groups.map f := by
    intro groups
    induction groups with
    | nil => exact fun _ => rfl
    | cons g gs ih =>
      intro name
      rw [chainedAfter, List.map_cons, List.map_cons, same, ih]
  cases groups with
  | nil => rfl
  | cons g gs => rw [chained, List.map_cons, List.map_cons, hafter]

/-! ## No cycle -/

/-- A group of a chain waits for one group, and that one stands before it. -/
theorem Linked.before {name : String} (linked : Linked previous groups) {i : Nat}
    (found : groups[i]? = some g) (waits : name ∈ g.dependencies) :
    previous = some name ∨ ∃ j g', j < i ∧ groups[j]? = some g' ∧ g'.name = name := by
  induction groups generalizing previous i with
  | nil => cases found
  | cons x xs ih =>
    obtain ⟨hfirst, hrest⟩ := linked
    cases i with
    | zero =>
      cases found
      rw [hfirst] at waits
      exact .inl (Option.mem_toList.mp waits)
    | succ i =>
      right
      rcases ih hrest found with hx | ⟨j, g', hj, hg', hname⟩
      · exact ⟨0, x, Nat.succ_pos i, rfl, Option.some.inj hx⟩
      · exact ⟨j + 1, g', Nat.succ_lt_succ hj, hg', hname⟩

/-- Whatever a group of a chain waits for, directly or by way of others, stands before it. With distinct
names a group cannot stand before itself. -/
theorem Linked.before_of_transGen (linked : Linked none groups)
    (names : (groups.map (·.name)).Nodup) {a b : String} (waits : TransGen (Waits groups) a b)
    {i : Nat} (found : groups[i]? = some g) (name : g.name = a) :
    ∃ j g', j < i ∧ groups[j]? = some g' ∧ g'.name = b := by
  have hstep : ∀ {a b : String} {i : Nat} {g : TaskGroup}, Waits groups a b →
      groups[i]? = some g → g.name = a → ∃ j g', j < i ∧ groups[j]? = some g' ∧ g'.name = b := by
    intro a b i g hwaits hfound hname
    obtain ⟨g', hg', hname', hmem⟩ := hwaits
    rw [eq_of_name_eq names hg' (List.mem_of_getElem? hfound) (hname'.trans hname.symm)] at hmem
    rcases linked.before hfound hmem with hnone | hbefore
    · cases hnone
    · exact hbefore
  induction waits with
  | single hwaits => exact hstep hwaits found name
  | tail _ hwaits ih =>
    obtain ⟨j, g', hj, hg', hname'⟩ := ih
    obtain ⟨k, g'', hk, hg'', hname''⟩ := hstep hwaits hg' hname'
    exact ⟨k, g'', Nat.lt_trans hk hj, hg'', hname''⟩

/-- So no group of a chain waits for itself, and the plan is not refused for a cycle. -/
theorem Linked.acyclic (linked : Linked none groups) (names : (groups.map (·.name)).Nodup) :
    ¬ Cyclic groups := by
  rintro ⟨a, hcycle⟩
  obtain ⟨_, ⟨g, hg, hname, -⟩, -⟩ := Relation.TransGen.head'_iff.mp hcycle
  obtain ⟨i, hi⟩ := List.mem_iff_getElem?.mp hg
  obtain ⟨j, g', hj, hg', hname'⟩ := linked.before_of_transGen names hcycle hi hname
  exact name_ne_of_place_ne names hg' hi (Nat.ne_of_lt hj) (hname'.trans hname.symm)

/-! ## The next group -/

theorem Linked.waits_of_tail (linked : Linked previous (g :: gs)) {g' : TaskGroup} (mem : g' ∈ gs) :
    ∃ x ∈ g :: gs, x.name ∈ g'.dependencies := by
  induction gs generalizing g previous with
  | nil => cases mem
  | cons y ys ih =>
    obtain ⟨-, hsecond, hrest⟩ := linked
    rcases List.mem_cons.mp mem with rfl | hmem
    · exact ⟨g, List.mem_cons_self, by simp [hsecond]⟩
    · obtain ⟨x, hx, hname⟩ := ih (g := y) ⟨hsecond, hrest⟩ hmem
      exact ⟨x, List.mem_cons_of_mem _ hx, hname⟩

/-- Behind completed groups, only the first group of a chain can be ready while none of them counts as
completed: any later one waits for another. -/
theorem Linked.eq_of_mem_ready {completed : List String} (linked : Linked previous (g :: gs))
    (finished : ∀ x ∈ done, x.status = .completed) (unknown : ∀ x ∈ g :: gs, x.name ∉ completed)
    {i : Nat} (mem : i ∈ Dependency.ready (done ++ g :: gs) completed) :
    i = done.length ∧ g.status = .pending := by
  obtain ⟨x, hx, hpending, hready⟩ := mem_ready.mp mem
  rw [TaskGroup.isReady, List.all_eq_true] at hready
  rcases Nat.lt_trichotomy i done.length with hlt | rfl | hgt
  · rw [List.getElem?_append_left hlt] at hx
    rw [finished x (List.mem_of_getElem? hx)] at hpending
    cases hpending
  · rw [List.getElem?_append_right (Nat.le_refl _), Nat.sub_self, List.getElem?_cons_zero] at hx
    exact ⟨rfl, Option.some.inj hx ▸ hpending⟩
  · obtain ⟨k, rfl⟩ := Nat.exists_eq_add_of_lt hgt
    rw [List.getElem?_append_right (by omega), show done.length + k + 1 - done.length = k + 1 by
      omega, List.getElem?_cons_succ] at hx
    obtain ⟨y, hy, hwaits⟩ := linked.waits_of_tail (List.mem_of_getElem? hx)
    exact absurd (by simpa using hready y.name hwaits) (unknown y hy)

/-- Behind groups that have been completed exactly the first group of a chain is ready. So a batch holds
one group at a time, however many could be taken up at once. -/
theorem Linked.ready {completed : List String} (linked : Linked previous (g :: gs))
    (names : ((done ++ g :: gs).map (·.name)).Nodup) (pending : ∀ x ∈ g :: gs, x.status = .pending)
    (finished : ∀ x ∈ done, x.status = .completed)
    (known : ∀ name, name ∈ completed ↔ name ∈ done.map (·.name))
    (first : ∀ name ∈ previous, name ∈ completed) :
    Dependency.ready (done ++ g :: gs) completed = [done.length] := by
  have hunknown : ∀ x ∈ g :: gs, x.name ∉ completed := by
    intro x hx hmem
    obtain ⟨y, hy, hsame⟩ := List.mem_map.mp ((known _).mp hmem)
    rw [List.map_append, List.nodup_append] at names
    exact names.2.2 _ (List.mem_map_of_mem hy) _ (List.mem_map_of_mem hx) hsame
  have hmem : done.length ∈ Dependency.ready (done ++ g :: gs) completed := by
    refine mem_ready.mpr ⟨g, by simp, pending g List.mem_cons_self, ?_⟩
    rw [TaskGroup.isReady, List.all_eq_true, linked.1]
    intro name hname
    simpa using first name (Option.mem_toList.mp hname)
  refine List.perm_singleton.mp ((List.perm_ext_iff_of_nodup (ready_nodup _ _) (by simp)).mpr ?_)
  intro i
  rw [List.mem_singleton]
  exact ⟨fun hi => (linked.eq_of_mem_ready finished hunknown hi).1, fun hi => hi ▸ hmem⟩

end Runbook.Dependency
