import Mathlib.Logic.Relation
import Runbook.Proofs.ReadyGroups

/-!
# The search for a cycle finds one if there is one

A group waits for those it names, and a cycle is a name that waits for itself by way of others
(`Cyclic`). The search of `Dependency.cycle?` is right about them both ways (`cycle?_eq_none_iff`).

* *It finds no cycle where there is none.* Every name on the path waits for the names that are
  searched next, so one that is met again waits for itself (`exists_cycle_of_search`).
* *It misses none.* A name that has been seen and is not on the path leads to no cycle. The path
  holds no name twice and only names of groups, so the fuel lasts (`acc_of_search`).
-/

set_option autoImplicit false

namespace Runbook.Dependency

open Relation (TransGen)

variable {groups : List TaskGroup}

/-- The group of one name waits for another name. Nobody needs to have the other name: a group may wait
for one that does not exist, and then it waits in vain, but in no cycle. -/
def Waits (groups : List TaskGroup) (a b : String) : Prop :=
  ∃ g ∈ groups, g.name = a ∧ b ∈ g.dependencies

/-- Some name waits for itself by way of others. -/
def Cyclic (groups : List TaskGroup) : Prop := ∃ a, TransGen (Waits groups) a a

/-- Following dependencies from a name comes to an end. As accessibility it is what an induction along
dependencies needs. -/
abbrev Ends (groups : List TaskGroup) (name : String) : Prop :=
  Acc (fun b a => Waits groups a b) name

theorem of_dependenciesOf?_eq_some {name : String} {dependencies : List String}
    (h : dependenciesOf? groups name = some dependencies) :
    ∃ g ∈ groups, g.name = name ∧ g.dependencies = dependencies := by
  rw [dependenciesOf?, Option.map_eq_some_iff] at h
  obtain ⟨g, hfind, hdependencies⟩ := h
  have hname := List.find?_some hfind
  exact ⟨g, by simpa using List.mem_of_find?_eq_some hfind, by simpa using hname, hdependencies⟩

theorem of_dependenciesOf?_eq_none {name : String} (h : dependenciesOf? groups name = none) :
    ∀ g ∈ groups, g.name ≠ name := by
  rw [dependenciesOf?, Option.map_eq_none_iff, List.find?_eq_none] at h
  intro g hg
  simpa using h g (by simpa using hg)

theorem waits_of_dependenciesOf? {name : String} {dependencies : List String}
    (h : dependenciesOf? groups name = some dependencies) :
    ∀ n ∈ dependencies, Waits groups name n := by
  obtain ⟨g, hg, hname, rfl⟩ := of_dependenciesOf?_eq_some h
  exact fun n hn => ⟨g, hg, hname, hn⟩

/-! ## Cycles that are found -/

/-- A search that starts behind everything on its path only reports names that wait for themselves: the
name that is met again stands on the path, and everything on the path waits for what is searched. -/
theorem exists_cycle_of_search {fuel : Nat} {path seen names found : List String}
    (waits : ∀ p ∈ path, ∀ n ∈ names, TransGen (Waits groups) p n)
    (h : search groups fuel path seen names = .cycle found) : Cyclic groups := by
  fun_induction search groups fuel path seen names generalizing found with
  | case1 => cases h
  | case2 fuel path seen name names hseen hpath =>
    exact ⟨name, waits name hpath name List.mem_cons_self⟩
  | case3 fuel path seen name names hseen hpath ih =>
    exact ih (fun p hp n hn => waits p hp n (List.mem_cons_of_mem _ hn)) h
  | case4 path seen name names hseen fuel dependencies hdeps found' hfound ih =>
    refine ih (fun p hp n hn => ?_) hfound
    have hstep := waits_of_dependenciesOf? hdeps n hn
    rcases List.mem_cons.mp hp with rfl | hp
    · exact .single hstep
    · exact (waits p hp name List.mem_cons_self).tail hstep
  | case5 path seen name names hseen fuel dependencies hdeps seen' hclear ih₁ ih₂ =>
    exact ih₂ (fun p hp n hn => waits p hp n (List.mem_cons_of_mem _ hn)) h
  | case6 path seen name names hseen fuel hnone ih =>
    exact ih (fun p hp n hn => waits p hp n (List.mem_cons_of_mem _ hn)) h

/-! ## Names that lead to none -/

/-- What a search has come by: a path of distinct names of groups, all of them seen, and no seen name
off the path that leads to a cycle. The last field says that the fuel lasts: what has been spent is on
the path, and a path is no longer than the list of groups. -/
structure Searched (groups : List TaskGroup) (fuel : Nat) (path seen : List String) : Prop where
  nodup : path.Nodup
  known : path ⊆ groups.map (·.name)
  visited : path ⊆ seen
  ends : ∀ n ∈ seen, n ∉ path → Ends groups n
  enough : groups.length < fuel + path.length

theorem Searched.start (groups : List TaskGroup) : Searched groups (groups.length + 1) [] [] :=
  ⟨.nil, List.nil_subset _, List.nil_subset _, by simp, by simp⟩

theorem Searched.fuel_pos {fuel : Nat} {path seen : List String}
    (searched : Searched groups fuel path seen) : 0 < fuel := by
  -- the path holds no more names than there are groups
  have hle := searched.nodup.length_le_of_subset searched.known
  have henough := searched.enough
  rw [List.length_map] at hle
  omega

/-- With distinct names a name has one list of dependencies, so it comes to an end when all of these do.
-/
theorem ends_of_dependencies {name : String} {dependencies : List String}
    (names : (groups.map (·.name)).Nodup)
    (h : dependenciesOf? groups name = some dependencies)
    (ends : ∀ n ∈ dependencies, Ends groups n) : Ends groups name := by
  obtain ⟨g, hg, hname, rfl⟩ := of_dependenciesOf?_eq_some h
  refine .intro name fun n hn => ?_
  obtain ⟨g', hg', hname', hmem⟩ := hn
  rw [eq_of_name_eq names hg' hg (hname'.trans hname.symm)] at hmem
  exact ends n hmem

theorem ends_of_unknown {name : String} (h : dependenciesOf? groups name = none) :
    Ends groups name := by
  refine .intro name fun n hn => ?_
  obtain ⟨g, hg, hname, -⟩ := hn
  exact absurd hname (of_dependenciesOf?_eq_none h g hg)

/-- The search gives up on a name only when no group has it, and not because the fuel has run out. -/
theorem Searched.unknown {fuel : Nat} {path seen : List String} {name : String}
    (searched : Searched groups fuel path seen)
    (noWay : ∀ fuel' dependencies, fuel = fuel' + 1 →
      dependenciesOf? groups name = some dependencies → False) :
    dependenciesOf? groups name = none := by
  cases hdeps : dependenciesOf? groups name with
  | none => rfl
  | some dependencies =>
    obtain ⟨fuel', hfuel⟩ := Nat.exists_eq_add_one_of_ne_zero (Nat.ne_of_gt searched.fuel_pos)
    exact (noWay fuel' dependencies hfuel hdeps).elim

/-- A new name goes onto the path while those that it waits for are searched. The path grows by what the
fuel loses. -/
theorem Searched.enter {fuel : Nat} {path seen dependencies : List String} {name : String}
    (searched : Searched groups (fuel + 1) path seen) (new : name ∉ seen)
    (h : dependenciesOf? groups name = some dependencies) :
    Searched groups fuel (name :: path) (name :: seen) := by
  obtain ⟨g, hg, hname, -⟩ := of_dependenciesOf?_eq_some h
  refine {
    nodup := List.nodup_cons.mpr ⟨fun hp => new (searched.visited hp), searched.nodup⟩
    known := List.cons_subset.mpr ⟨List.mem_map.mpr ⟨g, hg, hname⟩, searched.known⟩
    visited := List.cons_subset_cons _ searched.visited
    ends := ?ends
    enough := ?enough }
  case ends =>
    intro n hn hpath
    rcases List.mem_cons.mp hn with rfl | hn
    · exact absurd List.mem_cons_self hpath
    · exact searched.ends n hn fun hp => hpath (List.mem_cons_of_mem _ hp)
  case enough =>
    have hfuel := searched.enough
    rw [List.length_cons]
    omega

/-- It comes off the path again once it is known to lead to no cycle. What has been seen in between
stays seen. -/
theorem Searched.leave {fuel : Nat} {path seen seen' : List String} {name : String}
    (searched : Searched groups fuel path seen)
    (behind : Searched groups (fuel - 1) (name :: path) seen') (more : name :: seen ⊆ seen')
    (ends : Ends groups name) : Searched groups fuel path seen' := by
  have hvisited : path ⊆ seen' := fun p hp => (List.cons_subset.mp more).2 (searched.visited hp)
  refine { searched with visited := hvisited, ends := ?_ }
  intro n hn hpath
  by_cases heq : n = name
  · exact heq ▸ ends
  · exact behind.ends n hn fun hp => hpath ((List.mem_cons.mp hp).resolve_left heq)

/-- A search that finds no cycle has seen all names to their end. The induction follows the search, with
`Searched` for what it has come by so far. -/
theorem acc_of_search (distinct : (groups.map (·.name)).Nodup) {fuel : Nat}
    {path seen names seen' : List String} (searched : Searched groups fuel path seen)
    (h : search groups fuel path seen names = .clear seen') :
    Searched groups fuel path seen' ∧ seen ⊆ seen' ∧ ∀ n ∈ names, Ends groups n := by
  fun_induction search groups fuel path seen names generalizing seen' with
  | case1 =>
    cases h
    exact ⟨searched, List.Subset.refl _, by simp⟩
  | case2 => cases h
  | case3 fuel path seen name names hseen hpath ih =>
    obtain ⟨hsearched, hsubset, hends⟩ := ih searched h
    refine ⟨hsearched, hsubset, fun n hn => ?_⟩
    rcases List.mem_cons.mp hn with rfl | hn
    · exact searched.ends _ hseen hpath
    · exact hends n hn
  | case4 => cases h
  -- all ways from the name's dependencies end, and so do those from the name
  | case5 path seen name names hseen fuel dependencies hdeps seen₁ hclear ih₁ ih₂ =>
    obtain ⟨hbehind, hsubset, hends⟩ := ih₁ (searched.enter hseen hdeps) hclear
    have hname : Ends groups name := ends_of_dependencies distinct hdeps hends
    obtain ⟨hsearched', hsubset', hends'⟩ := ih₂ (searched.leave hbehind hsubset hname) h
    refine ⟨hsearched', fun n hn => hsubset' ((List.cons_subset.mp hsubset).2 hn), fun n hn => ?_⟩
    rcases List.mem_cons.mp hn with rfl | hn
    · exact hname
    · exact hends' n hn
  | case6 path seen name names hseen fuel hnone ih =>
    obtain ⟨hsearched, hsubset, hends⟩ := ih searched h
    refine ⟨hsearched, hsubset, fun n hn => ?_⟩
    rcases List.mem_cons.mp hn with rfl | hn
    · exact ends_of_unknown (searched.unknown hnone)
    · exact hends n hn

theorem Ends.not_cycle {name : String} (ends : Ends groups name) :
    ¬ TransGen (Waits groups) name name := by
  induction ends with
  | intro name _ ih =>
    intro hcycle
    rcases Relation.TransGen.head'_iff.mp hcycle with ⟨next, hstep, hback⟩
    exact ih next hstep (Relation.TransGen.tail' hback hstep)

/-- A cycle is reported exactly when there is one. So a run that is not refused has groups that can be
put in order. -/
theorem cycle?_eq_none_iff (names : (groups.map (·.name)).Nodup) :
    cycle? groups = none ↔ ¬ Cyclic groups := by
  rw [cycle?]
  cases hsearch : search groups (groups.length + 1) [] [] (groups.map (·.name)) with
  | cycle found =>
    have hcycle : Cyclic groups := exists_cycle_of_search (by simp) hsearch
    simpa using hcycle
  | clear seen =>
    obtain ⟨-, -, hends⟩ := acc_of_search names (Searched.start groups) hsearch
    refine ⟨fun _ => ?_, fun _ => rfl⟩
    rintro ⟨name, hcycle⟩
    obtain ⟨next, ⟨g, hg, hname, -⟩, -⟩ := Relation.TransGen.head'_iff.mp hcycle
    exact (hends name (List.mem_map.mpr ⟨g, hg, hname⟩)).not_cycle hcycle

end Runbook.Dependency
