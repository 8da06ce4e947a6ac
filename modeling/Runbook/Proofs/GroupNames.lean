import Runbook.Proofs.Outline
import Runbook.Proofs.ParsedGroups

/-!
# Groups under another name

The name of a group is the title of its heading, and of that name the reader asks only whether another
group has it. So a group whose heading is another one is the same group under another name, if no group
has that name (`readTasks_renamed`).
-/

set_option autoImplicit false

namespace Runbook

open Text Markdown

/-! ## Other names -/

/-- The group under its new name, if it has the old one. The name stands in two places, as the subsystem
of a group that is read is its name. -/
def TaskGroup.rename (name name' : String) (g : TaskGroup) : TaskGroup :=
  if g.name = name then { g with name := name', subsystem := name' } else g

namespace TaskGroup

variable {name name' : String} {g : TaskGroup}

theorem rename_of_ne (other : g.name ≠ name) : g.rename name name' = g := if_neg other

theorem rename_new (name name' : String) : (new name).rename name name' = new name' := if_pos rfl

theorem tasks_rename (g : TaskGroup) : (g.rename name name').tasks = g.tasks := by
  unfold rename
  split <;> rfl

theorem task?_rename (g : TaskGroup) (id : String) : (g.rename name name').task? id = g.task? id := by
  rw [task?, task?, tasks_rename]

theorem addTask_rename (g : TaskGroup) (t : Task) :
    (g.rename name name').addTask t = (g.addTask t).rename name name' := by
  by_cases h : g.name = name
  · rw [rename, if_pos h, rename, if_pos (show (g.addTask t).name = name from h)]
    rfl
  · rw [rename_of_ne h, rename_of_ne (show (g.addTask t).name ≠ name from h)]

end TaskGroup

namespace Plan

/-! ## Reading on -/

theorem map_rename_of_new {groups : List TaskGroup} {name : String}
    (new : name ∉ groups.map (·.name)) (name' : String) :
    groups.map (TaskGroup.rename name name') = groups := by
  have hmap : groups.map (TaskGroup.rename name name') = groups.map id :=
    List.map_congr_left fun g hg =>
      TaskGroup.rename_of_ne fun h => new (h ▸ List.mem_map_of_mem hg)
  rwa [List.map_id] at hmap

/-- Groups that have been opened are among those that are read. So a name that no group has in the end
was free all the way. -/
theorem Reads.names {closed groups : List TaskGroup} {current : TaskGroup} {bs : List Block}
    (reads : Reads closed current bs groups) :
    ∀ name ∈ (closed ++ [current]).map (·.name), name ∈ groups.map (·.name) := by
  induction reads with
  | done => exact fun _ hname => hname
  | task _ _ _ ih =>
    intro name hname
    refine ih name ?_
    rw [List.map_append] at hname ⊢
    exact hname
  | silent _ _ _ ih => exact ih
  | group _ _ _ _ ih =>
    intro name hname
    refine ih name ?_
    rw [List.map_append]
    exact List.mem_append_left _ hname

theorem mem_names_rename {gs : List TaskGroup} {name name' other : String}
    (new : other ≠ name') (mem : other ∈ (gs.map (TaskGroup.rename name name')).map (·.name)) :
    other ∈ gs.map (·.name) := by
  rw [List.map_map, List.mem_map] at mem
  obtain ⟨g, hg, hname⟩ := mem
  rw [Function.comp_apply, TaskGroup.rename] at hname
  split at hname
  · exact absurd hname.symm new
  · exact List.mem_map.mpr ⟨g, hg, hname⟩

section Rename

variable {name name' : String}

/-- Groups that are opened later do not depend on the name of one that is open. All that the reader asks
of that name is whether it is used again, and of neither name it is. -/
theorem Reads.rename {closed groups : List TaskGroup} {current : TaskGroup} {bs : List Block}
    (reads : Reads closed current bs groups) (old : name ∈ (closed ++ [current]).map (·.name))
    (new : name' ∉ groups.map (·.name)) :
    Reads (closed.map (TaskGroup.rename name name')) (current.rename name name') bs
      (groups.map (TaskGroup.rename name name')) := by
  -- the name of a group is looked at only where another one is opened
  induction reads with
  | done =>
    rw [List.map_append, List.map_singleton]
    exact .done
  | task told fresh rest ih =>
    refine .task told (by rwa [TaskGroup.task?_rename]) ?_
    rw [TaskGroup.addTask_rename]
    refine ih ?_ new
    rw [List.map_append] at old ⊢
    exact old
  | silent other general rest ih =>
    obtain ⟨hname, rfl, htasks⟩ := general
    exact .silent other ⟨hname, rfl, by rw [TaskGroup.tasks_rename, htasks]⟩ (ih old new)
  | @group closed groups current b bs other loud fresh rest ih =>
    have hmap : (closed ++ [current]).map (TaskGroup.rename name name') =
        closed.map (TaskGroup.rename name name') ++ [current.rename name name'] := by
      rw [List.map_append, List.map_singleton]
    have hold : String.ofList b.heading.title ≠ name := fun heq => fresh (heq ▸ old)
    have hlater : String.ofList b.heading.title ∈ groups.map (·.name) := rest.names _ (by
      rw [List.map_append]
      exact List.mem_append_right _ (List.mem_singleton.mpr rfl))
    have hnew' : String.ofList b.heading.title ≠ name' := fun heq => new (heq ▸ hlater)
    refine .group other ?_ ?_ ?_
    · rintro ⟨hname, hclosed, htasks⟩
      rw [List.map_eq_nil_iff] at hclosed
      rw [TaskGroup.tasks_rename] at htasks
      exact loud ⟨hname, hclosed, htasks⟩
    · rw [← hmap]
      exact fun hmem => fresh (mem_names_rename hnew' hmem)
    · have hopened := ih (by rw [List.map_append]; exact List.mem_append_left _ old) new
      rwa [TaskGroup.rename_of_ne hold, hmap] at hopened

/-- When the heading of a group is another one, the group has another name. The general name is left
out, for a heading of that name may be silent. -/
theorem Reads.retitled (special : name ≠ TaskGroup.general)
    (special' : name' ≠ TaskGroup.general) {b b' : Block} {before after : List Block}
    (group : taskTitle? b.heading.title = none) (group' : taskTitle? b'.heading.title = none)
    (title : String.ofList b.heading.title = name) (title' : String.ofList b'.heading.title = name')
    {closed groups : List TaskGroup} {current : TaskGroup}
    (reads : Reads closed current (before ++ b :: after) groups)
    (new : name' ∉ groups.map (·.name)) :
    Reads closed current (before ++ b' :: after) (groups.map (TaskGroup.rename name name')) := by
  induction before generalizing closed current with
  | nil =>
    rw [List.nil_append] at reads ⊢
    cases reads with
    | task told _ _ =>
      rw [taskOf?_of_other group] at told
      cases told
    | silent _ general _ => exact absurd (title ▸ general.1) special
    | group _ _ fresh rest =>
      rw [title] at fresh rest
      have hopened : name' ∉ (closed ++ [current]).map (·.name) := fun hmem =>
        new (rest.names _ (by rw [List.map_append]; exact List.mem_append_left _ hmem))
      have hold : name ∈ (closed ++ [current] ++ [TaskGroup.new name]).map (·.name) := by
        rw [List.map_append]
        exact List.mem_append_right _ (List.mem_singleton.mpr rfl)
      have hafter := rest.rename hold new
      rw [map_rename_of_new fresh, TaskGroup.rename_new] at hafter
      exact .group group' (fun silent => special' (title' ▸ silent.1)) (title' ▸ hopened)
        (title' ▸ hafter)
  -- the blocks before it are read in the same way, whatever is read behind them
  | cons x before ih =>
    rw [List.cons_append] at reads ⊢
    cases reads with
    | task told fresh rest => exact .task told fresh (ih rest)
    | silent other general rest => exact .silent other general (ih rest)
    | group other loud fresh rest => exact .group other loud fresh (ih rest)

end Rename

/-! ## The heading -/

/-- A heading parts the blocks before it from its own and those behind. -/
theorem blocks_append_heading {l : Line} {h : Heading} (heading : l.heading? = some h)
    (above below : List Line) : blocks (above ++ l :: below) =
      blocks above ++ ⟨h, below.takeWhile (·.heading?.isNone)⟩ :: blocks below := by
  have hhead : ∀ l', (l :: below).head? = some l' → l'.heading? ≠ none := by
    intro l' hl'
    rw [← Option.some.inj hl', heading]
    exact Option.some_ne_none h
  rw [blocks_append hhead]
  simp only [blocks, heading]

/-- When the heading of a group is another one with a name that no group has, the group has that name,
and nothing else is changed. -/
theorem readTasks_renamed {l l' : Line} {h h' : Heading} (heading : l.heading? = some h)
    (heading' : l'.heading? = some h') (group : taskTitle? h.title = none)
    (group' : taskTitle? h'.title = none) (special : String.ofList h.title ≠ TaskGroup.general)
    (special' : String.ofList h'.title ≠ TaskGroup.general) {above below : List Line}
    {groups : List TaskGroup} (read : readTasks (above ++ l :: below) = .ok groups)
    (new : String.ofList h'.title ∉ groups.map (·.name)) :
    readTasks (above ++ l' :: below) =
      .ok (groups.map (TaskGroup.rename (String.ofList h.title) (String.ofList h'.title))) := by
  rw [readTasks, blocks_append_heading heading] at read
  rw [readTasks, blocks_append_heading heading']
  exact ((readGroups_eq_ok_iff.mp read).retitled special special' group group' rfl rfl
    new).readGroups_eq

end Plan

end Runbook
