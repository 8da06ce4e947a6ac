import Mathlib.Data.List.Chain
import Mathlib.Data.List.Nodup
import Runbook.Proofs.Cycle

/-!
# The path to a cycle

What the search for a cycle reports is a path that runs into itself (`Reported`): it goes from name to
name along dependencies, no name stands on it twice but the last, and it sets out from the first group
that leads into a cycle at all. When nothing is reported there is no round of groups to go
(`Round`, `cycle?_verdict`).

## No bound on the depth

`search` counts down, so that it ends for every argument. The rules it goes by do not (`Searches`): they
are the same search without a bound, as a relation, and need not end at all. From the names of the
groups they do, and with the answer of `search` (`searches_of_searched`): names come onto a path once, so
the count lasts.
-/

set_option autoImplicit false

namespace Runbook.Dependency

open Relation (TransGen ReflTransGen)

variable {groups : List TaskGroup}

/-! ## Rounds -/

/-- Groups of the list, each waiting for the next, from a group back to itself. It is said with groups,
and not with names, so that it needs no distinct names to make sense. -/
structure Round (groups : List TaskGroup) (g : TaskGroup) (gs : List TaskGroup) : Prop where
  listed : ∀ h ∈ g :: gs, h ∈ groups
  waits : (g :: gs).IsChain fun a b => b.name ∈ a.dependencies
  closed : gs.getLast? = some g

/-- Waiting for what a name waits for, one comes to a name that waits for itself. The name itself need
not be part of the round. -/
def LeadsRound (groups : List TaskGroup) (name : String) : Prop :=
  ∃ a, ReflTransGen (Waits groups) name a ∧ TransGen (Waits groups) a a

theorem not_leadsRound_of_ends {name : String} (ends : Ends groups name) :
    ¬ LeadsRound groups name := by
  rintro ⟨a, hway, hround⟩
  have ha : Ends groups a := by
    clear hround
    induction hway with
    | refl => exact ends
    | tail _ hstep ih => exact ih.inv hstep
  exact ha.not_cycle hround

theorem transGen_of_chain {g h : TaskGroup} {gs : List TaskGroup}
    (listed : ∀ a ∈ g :: gs, a ∈ groups) (waits : (g :: gs).IsChain fun a b => b.name ∈ a.dependencies)
    (last : gs.getLast? = some h) : TransGen (Waits groups) g.name h.name := by
  induction gs generalizing g with
  | nil => cases last
  | cons a gs ih =>
    rw [List.isChain_cons_cons] at waits
    have hstep : Waits groups g.name a.name := ⟨g, listed g List.mem_cons_self, rfl, waits.1⟩
    cases gs with
    | nil =>
      cases last
      exact .single hstep
    | cons b gs =>
      rw [List.getLast?_cons_cons] at last
      exact .head hstep (ih (List.forall_mem_cons.mp listed).2 waits.2 last)

/-- Whoever waits for a group by way of others does so by way of listed ones, since only the group of a
name waits for anything. -/
theorem exists_chain {a b : String} (way : TransGen (Waits groups) a b)
    (known : b ∈ groups.map (·.name)) : ∃ g gs h, (∀ k ∈ g :: gs, k ∈ groups) ∧
      (g :: gs).IsChain (fun a b => b.name ∈ a.dependencies) ∧ g.name = a ∧
      gs.getLast? = some h ∧ h.name = b := by
  induction way using TransGen.head_induction_on with
  | single step =>
    obtain ⟨g, hg, rfl, hmem⟩ := step
    obtain ⟨h, hh, rfl⟩ := List.mem_map.mp known
    exact ⟨g, [h], h, by simp [hg, hh], by simpa using hmem, rfl, rfl, rfl⟩
  | head step _ ih =>
    obtain ⟨g, hg, rfl, hmem⟩ := step
    obtain ⟨g', gs, h, hlisted, hwaits, rfl, hlast, rfl⟩ := ih
    refine ⟨g, g' :: gs, h, List.forall_mem_cons.mpr ⟨hg, hlisted⟩, ?_, rfl, ?_, rfl⟩
    · exact List.isChain_cons_cons.mpr ⟨hmem, hwaits⟩
    · cases gs with
      | nil => cases hlast
      | cons k gs => rwa [List.getLast?_cons_cons]

/-- There is a round to go exactly when some name waits for itself. The one is what a user sees in a
plan, the other what the search is proved about. -/
theorem exists_round_iff (distinct : (groups.map (·.name)).Nodup) :
    (∃ g gs, Round groups g gs) ↔ Cyclic groups := by
  constructor
  · rintro ⟨g, gs, hround⟩
    exact ⟨g.name, transGen_of_chain hround.listed hround.waits hround.closed⟩
  · rintro ⟨a, hway⟩
    obtain ⟨b, ⟨g, hg, hname, -⟩, -⟩ := TransGen.head'_iff.mp hway
    obtain ⟨g', gs, h, hlisted, hwaits, rfl, hlast, hsame⟩ :=
      exists_chain hway (List.mem_map.mpr ⟨g, hg, hname⟩)
    have hmem : h ∈ groups := hlisted h (List.mem_cons_of_mem _ (List.mem_of_getLast? hlast))
    have heq : h = g' := eq_of_name_eq distinct hmem (hlisted g' List.mem_cons_self) hsame
    exact ⟨g', gs, hlisted, hwaits, heq ▸ hlast⟩

/-! ## The search without a bound -/

/-- What comes of searching from some names, behind a path and after some names have been seen. The
rules are those of the search without its count, so nothing here says that they come to an answer. -/
inductive Searches (groups : List TaskGroup) : List String → List String → List String → Search → Prop
  | done {path seen : List String} : Searches groups path seen [] (.clear seen)
  | closing {path seen names : List String} {name : String} (old : name ∈ seen) (on : name ∈ path) :
    Searches groups path seen (name :: names) (.cycle (path.reverse ++ [name]))
  | passed {path seen names : List String} {name : String} {found : Search} (old : name ∈ seen)
    (off : name ∉ path) (rest : Searches groups path seen names found) :
    Searches groups path seen (name :: names) found
  | unknown {path seen names : List String} {name : String} {found : Search} (new : name ∉ seen)
    (none : dependenciesOf? groups name = none) (rest : Searches groups path seen names found) :
    Searches groups path seen (name :: names) found
  | cycle {path seen names dependencies found : List String} {name : String} (new : name ∉ seen)
    (some : dependenciesOf? groups name = some dependencies)
    (behind : Searches groups (name :: path) (name :: seen) dependencies (.cycle found)) :
    Searches groups path seen (name :: names) (.cycle found)
  | clear {path seen seen' names dependencies : List String} {name : String} {found : Search}
    (new : name ∉ seen) (some : dependenciesOf? groups name = some dependencies)
    (behind : Searches groups (name :: path) (name :: seen) dependencies (.clear seen'))
    (rest : Searches groups path seen' names found) : Searches groups path seen (name :: names) found

def Search.path? : Search → Option (List String)
  | .cycle path => some path
  | .clear _ => none

/-- The rules leave no choice: each applies where no other one does. So an answer that they give is the
only one. -/
theorem Searches.unique {path seen names : List String} {found found' : Search}
    (searches : Searches groups path seen names found)
    (searches' : Searches groups path seen names found') : found' = found := by
  -- by whether a name has been seen, is on the path and is known, one rule applies at most
  induction searches generalizing found' with
  | done =>
    cases searches'
    rfl
  | closing old on =>
    cases searches' with
    | closing => rfl
    | passed _ off => exact absurd on off
    | unknown new | cycle new | clear new => exact absurd old new
  | passed old off _ ih =>
    cases searches' with
    | closing _ on => exact absurd on off
    | passed _ _ rest' => exact ih rest'
    | unknown new | cycle new | clear new => exact absurd old new
  | unknown new none _ ih =>
    cases searches' with
    | closing old | passed old => exact absurd old new
    | unknown _ _ rest' => exact ih rest'
    | cycle _ some | clear _ some => cases none.symm.trans some
  | cycle new some _ ih =>
    cases searches' with
    | closing old | passed old => exact absurd old new
    | unknown _ none => cases none.symm.trans some
    | cycle _ some' behind' =>
      cases some.symm.trans some'
      exact ih behind'
    | clear _ some' behind' =>
      cases some.symm.trans some'
      cases ih behind'
  | clear new some _ _ ih₁ ih₂ =>
    cases searches' with
    | closing old | passed old => exact absurd old new
    | unknown _ none => cases none.symm.trans some
    | cycle _ some' behind' =>
      cases some.symm.trans some'
      cases ih₁ behind'
    | clear _ some' behind' rest' =>
      cases some.symm.trans some'
      cases ih₁ behind'
      exact ih₂ rest'

/-- As long as the count lasts, the search goes by its rules. That it lasts is part of what is kept of a
search (`Searched`), so no answer is ever owed to the count. -/
theorem searches_of_searched (distinct : (groups.map (·.name)).Nodup) {fuel : Nat}
    {path seen names : List String} (searched : Searched groups fuel path seen) :
    Searches groups path seen names (search groups fuel path seen names) := by
  fun_induction search groups fuel path seen names with
  | case1 => exact .done
  | case2 fuel path seen name names hseen hpath => exact .closing hseen hpath
  | case3 fuel path seen name names hseen hpath ih => exact .passed hseen hpath (ih searched)
  | case4 path seen name names hseen fuel dependencies hdeps found hfound ih =>
    have hbehind := ih (searched.enter hseen hdeps)
    rw [hfound] at hbehind
    exact .cycle hseen hdeps hbehind
  | case5 path seen name names hseen fuel dependencies hdeps seen' hclear ih₁ ih₂ =>
    have hsearches := ih₁ (searched.enter hseen hdeps)
    rw [hclear] at hsearches
    obtain ⟨hbehind, hmore, hends⟩ := acc_of_search distinct (searched.enter hseen hdeps) hclear
    have hnext := searched.leave hbehind hmore (ends_of_dependencies distinct hdeps hends)
    exact .clear hseen hdeps hsearches (ih₂ hnext)
  | case6 path seen name names hseen fuel hnone ih =>
    exact .unknown hseen (searched.unknown hnone) (ih searched)

/-! ## What is reported -/

/-- A path of names of groups along dependencies, none of them twice, up to a name that stands on it
already. -/
structure Closes (groups : List TaskGroup) (path : List String) (name : String) : Prop where
  known : path ⊆ groups.map (·.name)
  waits : (path ++ [name]).IsChain (Waits groups)
  distinct : path.Nodup
  closing : name ∈ path

/-- What is found behind a path along dependencies is that path, followed up to where it closes. The
path is kept with its end in front, so it is read backwards here. -/
theorem closes_of_search (distinct : (groups.map (·.name)).Nodup) {fuel : Nat}
    {path seen names found : List String} (searched : Searched groups fuel path seen)
    (trail : path.IsChain fun a b => Waits groups b a)
    (next : ∀ p, path.head? = some p → ∀ n ∈ names, Waits groups p n)
    (h : search groups fuel path seen names = .cycle found) :
    ∃ way name, found = way ++ [name] ∧ path.reverse <+: way ∧ Closes groups way name := by
  fun_induction search groups fuel path seen names generalizing found with
  | case1 => cases h
  -- the name is on the path already, so the way back to it is the path itself
  | case2 fuel path seen name names hseen hpath =>
    cases h
    refine ⟨path.reverse, name, rfl, List.prefix_refl _, ?_⟩
    refine {
      known := fun n hn => searched.known (List.mem_reverse.mp hn)
      waits := ?waits
      distinct := List.nodup_reverse.mpr searched.nodup
      closing := List.mem_reverse.mpr hpath }
    case waits =>
      rw [← List.reverse_cons, List.isChain_reverse, List.isChain_cons]
      exact ⟨fun p hp => next p hp name List.mem_cons_self, trail⟩
  | case3 fuel path seen name names hseen hpath ih =>
    exact ih searched trail (fun p hp n hn => next p hp n (List.mem_cons_of_mem _ hn)) h
  -- the cycle is found further down, on a path that goes on by this name
  | case4 path seen name names hseen fuel dependencies hdeps found' hfound ih =>
    cases h
    have htrail : (name :: path).IsChain fun a b => Waits groups b a :=
      List.isChain_cons.mpr ⟨fun p hp => next p hp name List.mem_cons_self, trail⟩
    have hnext : ∀ p, (name :: path).head? = some p → ∀ n ∈ dependencies, Waits groups p n := by
      intro p hp
      cases hp
      exact waits_of_dependenciesOf? hdeps
    obtain ⟨way, last, hway, hprefix, hcloses⟩ :=
      ih (searched.enter hseen hdeps) htrail hnext hfound
    rw [List.reverse_cons] at hprefix
    exact ⟨way, last, hway, (List.prefix_append _ _).trans hprefix, hcloses⟩
  -- nothing is found behind this name, so it is left and the next one is tried
  | case5 path seen name names hseen fuel dependencies hdeps seen' hclear ih₁ ih₂ =>
    obtain ⟨hbehind, hmore, hends⟩ := acc_of_search distinct (searched.enter hseen hdeps) hclear
    have hleft := searched.leave hbehind hmore (ends_of_dependencies distinct hdeps hends)
    exact ih₂ hleft trail (fun p hp n hn => next p hp n (List.mem_cons_of_mem _ hn)) h
  | case6 path seen name names hseen fuel hnone ih =>
    exact ih searched trail (fun p hp n hn => next p hp n (List.mem_cons_of_mem _ hn)) h

/-- From the outset, what is found begins with the first name that does not come to an end. The names
before it have been searched to their end. -/
theorem first_of_search (distinct : (groups.map (·.name)).Nodup) {fuel : Nat}
    {path seen names found : List String} (searched : Searched groups fuel path seen)
    (outset : path = []) (h : search groups fuel path seen names = .cycle found) :
    ∃ before name after, names = before ++ name :: after ∧ (∀ n ∈ before, Ends groups n) ∧
      found.head? = some name := by
  -- a name from which no way goes on for ever may stand in front of the others
  have skip : ∀ {name : String} {names : List String}, Ends groups name →
      (∃ before first after, names = before ++ first :: after ∧ (∀ n ∈ before, Ends groups n) ∧
        found.head? = some first) →
      ∃ before first after, name :: names = before ++ first :: after ∧
        (∀ n ∈ before, Ends groups n) ∧ found.head? = some first := by
    rintro name names hname ⟨before, first, after, rfl, hbefore, hhead⟩
    exact ⟨name :: before, first, after, rfl, List.forall_mem_cons.mpr ⟨hname, hbefore⟩, hhead⟩
  fun_induction search groups fuel path seen names with
  | case1 => cases h
  | case2 fuel path seen name names hseen hpath =>
    rw [outset] at hpath
    cases hpath
  | case3 fuel path seen name names hseen hpath ih =>
    exact skip (searched.ends name hseen hpath) (ih searched outset h)
  | case4 path seen name names hseen fuel dependencies hdeps found' hfound ih =>
    cases h
    subst outset
    have hnext : ∀ p, [name].head? = some p → ∀ n ∈ dependencies, Waits groups p n := by
      intro p hp
      cases hp
      exact waits_of_dependenciesOf? hdeps
    obtain ⟨way, last, rfl, ⟨more, rfl⟩, -⟩ :=
      closes_of_search distinct (searched.enter hseen hdeps) (List.isChain_singleton _) hnext hfound
    exact ⟨[], name, names, rfl, by simp, rfl⟩
  | case5 path seen name names hseen fuel dependencies hdeps seen' hclear ih₁ ih₂ =>
    obtain ⟨hbehind, hmore, hends⟩ := acc_of_search distinct (searched.enter hseen hdeps) hclear
    have hname := ends_of_dependencies distinct hdeps hends
    exact skip hname (ih₂ (searched.leave hbehind hmore hname) outset h)
  | case6 path seen name names hseen fuel hnone ih =>
    exact skip (ends_of_unknown (searched.unknown hnone)) (ih searched outset h)

/-- A path that closes leads into a cycle from where it sets out. -/
theorem Closes.leadsRound {path : List String} {name first : String}
    (closes : Closes groups path name) (head : (path ++ [name]).head? = some first) :
    LeadsRound groups first := by
  obtain ⟨front, behind, rfl⟩ := List.append_of_mem closes.closing
  have hsplit : front ++ name :: behind ++ [name] = front ++ name :: (behind ++ [name]) := by simp
  have hwaits := closes.waits
  rw [hsplit] at hwaits head
  obtain ⟨hfront, hround⟩ := List.isChain_split.mp hwaits
  -- the path up to the name leads to it, and the rest of the path leads back
  refine ⟨name, ?_, ?_⟩
  · cases front with
    | nil =>
      cases head
      exact .refl
    | cons n front =>
      cases head
      exact List.relationReflTransGen_of_exists_isChain_cons (front ++ [name]) hfront (by simp)
  · cases behind with
    | nil => exact .single (by simpa using hround)
    | cons n behind =>
      rw [List.cons_append, List.isChain_cons_cons] at hround
      refine TransGen.head' hround.1 ?_
      exact List.relationReflTransGen_of_exists_isChain_cons (behind ++ [name]) hround.2 (by simp)

/-- A path that is reported. Its first name need not be part of the round: the search sets out from the
groups in their order, and what it follows from there may come to the round only later. -/
structure Reported (groups : List TaskGroup) (path : List String) : Prop where
  long : 2 ≤ path.length
  known : path ⊆ groups.map (·.name)
  waits : path.IsChain (Waits groups)
  distinct : path.dropLast.Nodup
  closes : ∃ n ∈ path.dropLast, path.getLast? = some n
  /-- It sets out from the first group that leads into a cycle. -/
  first : ∃ before g after, groups = before ++ g :: after ∧ path.head? = some g.name ∧
    LeadsRound groups g.name ∧ ∀ g' ∈ before, ¬ LeadsRound groups g'.name

theorem reported_of_search (distinct : (groups.map (·.name)).Nodup) {fuel : Nat} {found : List String}
    (searched : Searched groups fuel [] [])
    (h : search groups fuel [] [] (groups.map (·.name)) = .cycle found) : Reported groups found := by
  obtain ⟨way, last, hfound, -, hcloses⟩ :=
    closes_of_search distinct searched List.isChain_nil (by simp) h
  obtain ⟨before, name, after, hnames, hbefore, hhead⟩ := first_of_search distinct searched rfl h
  obtain ⟨gs, gs', rfl, rfl, hgs'⟩ := List.map_eq_append_iff.mp hnames
  obtain ⟨g, gs', rfl, rfl, rfl⟩ := List.map_eq_cons_iff.mp hgs'
  subst hfound
  have hpos : 0 < way.length := List.length_pos_of_mem hcloses.closing
  refine {
    long := by simp; omega
    known := fun n hn => ?known
    waits := hcloses.waits
    distinct := by rw [List.dropLast_concat]; exact hcloses.distinct
    closes := ⟨last, by rw [List.dropLast_concat]; exact hcloses.closing, by simp⟩
    first := ⟨gs, g, gs', rfl, hhead, hcloses.leadsRound hhead, fun g' hg' => ?before⟩ }
  case known =>
    rcases List.mem_append.mp hn with hn | hn
    · exact hcloses.known hn
    · rw [List.mem_singleton.mp hn]
      exact hcloses.known hcloses.closing
  case before => exact not_leadsRound_of_ends (hbefore g'.name (List.mem_map_of_mem hg'))

/-- The search for a cycle comes to an end without being cut short, it finds nothing exactly when there
is no round of groups to go, and what it finds is the way from the first group that leads into one. -/
theorem cycle?_verdict (distinct : (groups.map (·.name)).Nodup) :
    (∃ found, Searches groups [] [] (groups.map (·.name)) found ∧
      (∀ found', Searches groups [] [] (groups.map (·.name)) found' → found' = found) ∧
      cycle? groups = found.path?) ∧
    (cycle? groups = none ↔ ¬ ∃ g gs, Round groups g gs) ∧
    ∀ path, cycle? groups = some path → Reported groups path := by
  have hstart := Searched.start groups
  have hsearches : Searches groups [] [] (groups.map (·.name))
      (search groups _ [] [] (groups.map (·.name))) := searches_of_searched distinct hstart
  refine ⟨⟨_, hsearches, fun found' hfound' => hsearches.unique hfound', rfl⟩, ?_, fun path hpath => ?_⟩
  · rw [exists_round_iff distinct]
    exact cycle?_eq_none_iff distinct
  · rw [cycle?] at hpath
    split at hpath
    · rename_i found hfound
      cases hpath
      exact reported_of_search distinct hstart hfound
    · cases hpath

/-- Groups of which the first leads nowhere and the second into a round of the last two. -/
def detour : List TaskGroup :=
  [{ TaskGroup.new "Docs" with dependencies := ["Elsewhere"] },
    { TaskGroup.new "Site" with dependencies := ["Build", "Docs"] },
    { TaskGroup.new "Build" with dependencies := ["Docs", "Tools"] },
    { TaskGroup.new "Tools" with dependencies := ["Build"] }]

/-- The way into the round is reported, and one name beyond it. -/
theorem cycle?_verdict_of_detour :
    (detour.map (·.name)).Nodup ∧ (∃ g gs, Round detour g gs) ∧
      cycle? detour = some ["Site", "Build", "Tools", "Build"] ∧
      Reported detour ["Site", "Build", "Tools", "Build"] := by
  have hnames : (detour.map (·.name)).Nodup := by decide
  have hcycle : cycle? detour = some ["Site", "Build", "Tools", "Build"] := by
    simp [cycle?, detour, TaskGroup.new, search, dependenciesOf?]
  obtain ⟨-, hround, hreported⟩ := cycle?_verdict hnames
  refine ⟨hnames, ?_, hcycle, hreported _ hcycle⟩
  by_contra hnone
  rw [hround.mpr hnone] at hcycle
  cases hcycle

end Runbook.Dependency
