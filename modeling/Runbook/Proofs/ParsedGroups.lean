import Runbook.Plan.Parser

/-!
# What a plan is like that has just been read

The blocks of a section are read one after the other, and each of them does one of three things: it adds
a task to the group that is open, it opens another group, or it says nothing (`Reads`). Whatever holds of
the groups of a plan is shown by induction on that.

Reading refuses a name that is used twice, and it ticks nothing off: the groups of a plan that has
just been read have distinct names, wait for no other group and are still to do, and so are their
tasks (`parse_fresh`).
-/

set_option autoImplicit false

/-! ## What a result comes of -/

theorem Except.bind_eq_ok_iff {ε α β : Type} {x : Except ε α} {f : α → Except ε β} {b : β} :
    x.bind f = .ok b ↔ ∃ a, x = .ok a ∧ f a = .ok b := by
  cases x <;> simp [Except.bind]

theorem Except.map_eq_ok_iff {ε α β : Type} {x : Except ε α} {f : α → β} {b : β} :
    x.map f = .ok b ↔ ∃ a, x = .ok a ∧ b = f a := by
  cases x <;> simp [Except.map, eq_comm]

namespace Runbook

/-- Nobody has begun the task, so there is nothing to be told of it but what its rows say. -/
def Task.Fresh (t : Task) : Prop := t.status = .pending ∧ t.error = none

/-- Nobody has begun the group, and it waits for no other. -/
structure TaskGroup.Fresh (g : TaskGroup) : Prop where
  pending : g.status = .pending
  free : g.dependencies = []
  tasks : ∀ t ∈ g.tasks, t.Fresh

theorem TaskGroup.Fresh.addTask {g : TaskGroup} {t : Task} (fresh : g.Fresh) (ht : t.Fresh) :
    (g.addTask t).Fresh := by
  refine ⟨fresh.pending, fresh.free, fun t' ht' => ?_⟩
  rcases List.mem_append.mp ht' with ht' | ht'
  · exact fresh.tasks t' ht'
  · rw [List.mem_singleton.mp ht']
    exact ht

theorem TaskGroup.new_fresh (name : String) : (TaskGroup.new name).Fresh :=
  ⟨rfl, rfl, by simp [TaskGroup.new]⟩

namespace Plan

open Text Markdown

/-! ## Block by block -/

/-- The task of a block, if its heading is the heading of one. A number that is too large makes it no
task here; the reader refuses such a heading, so no block of that kind is left where groups have been
read. -/
def taskOf? (b : Block) : Option Task :=
  (taskTitle? b.heading.title).bind fun title =>
    (natBelow? Task.numberBound title.1).map fun number =>
      readRows false (Task.new number (String.ofList title.2)) b.rows

theorem taskOf?_of_title {b : Block} {digits name : List Char} {number : Nat}
    (title : taskTitle? b.heading.title = some (digits, name))
    (stored : natBelow? Task.numberBound digits = some number) :
    taskOf? b = some (readRows false (Task.new number (String.ofList name)) b.rows) := by
  rw [taskOf?, title, Option.bind_some, stored, Option.map_some]

theorem taskOf?_of_other {b : Block} (other : taskTitle? b.heading.title = none) :
    taskOf? b = none := by
  rw [taskOf?, other]
  rfl

/-- What a block with a task looks like: a heading with a number that can be stored, and the rows from
which the rest of the task is read. -/
theorem title_of_taskOf? {b : Block} {t : Task} (h : taskOf? b = some t) :
    ∃ digits name number, taskTitle? b.heading.title = some (digits, name) ∧
      natBelow? Task.numberBound digits = some number ∧
      t = readRows false (Task.new number (String.ofList name)) b.rows := by
  rw [taskOf?, Option.bind_eq_some_iff] at h
  obtain ⟨⟨digits, name⟩, htitle, hnumber⟩ := h
  obtain ⟨number, hstored, rfl⟩ := Option.map_eq_some_iff.mp hnumber
  exact ⟨digits, name, number, htitle, hstored, rfl⟩

theorem taskOf?_eq_some {b : Block} {t : Task} (h : taskOf? b = some t) :
    ∃ number name, t = readRows false (Task.new number name) b.rows := by
  obtain ⟨_, name, number, -, -, rfl⟩ := title_of_taskOf? h
  exact ⟨number, String.ofList name, rfl⟩

section Blocks

variable {closed : List TaskGroup} {current : TaskGroup} {b : Block}

/-- A task whose name is new in the open group is added to it. Other groups may have one of the same
name. -/
theorem readGroups_of_task {t : Task} (told : taskOf? b = some t)
    (new : ¬ (current.task? t.id).isSome = true) (bs : List Block) :
    readGroups closed current (b :: bs) = readGroups closed (current.addTask t) bs := by
  obtain ⟨digits, name, number, htitle, hstored, rfl⟩ := title_of_taskOf? told
  rw [readGroups, htitle]
  simp only [hstored]
  exact if_neg new

/-- The general name says nothing as long as the group of that name is all there is, with no tasks. It
is the group that is open before any heading, so a document may name it or not. -/
theorem readGroups_of_silent (other : taskTitle? b.heading.title = none)
    (general : String.ofList b.heading.title = TaskGroup.general ∧ closed = [] ∧ current.tasks = [])
    (bs : List Block) : readGroups closed current (b :: bs) = readGroups closed current bs := by
  rw [readGroups, other]
  exact if_pos general

/-- Any other new name opens a group. -/
theorem readGroups_of_group (other : taskTitle? b.heading.title = none)
    (loud : ¬ (String.ofList b.heading.title = TaskGroup.general ∧ closed = [] ∧
      current.tasks = []))
    (new : String.ofList b.heading.title ∉ (closed ++ [current]).map (·.name)) (bs : List Block) :
    readGroups closed current (b :: bs) =
      readGroups (closed ++ [current]) (TaskGroup.new (String.ofList b.heading.title)) bs := by
  rw [readGroups, other]
  exact (if_neg loud).trans (if_neg new)

end Blocks

/-- Behind some groups, the last of which is open, blocks are read one after the other. There is a case
for each way in which a block is accepted and none for a refusal, so induction on it meets no errors. -/
inductive Reads : List TaskGroup → TaskGroup → List Block → List TaskGroup → Prop
  | done {closed : List TaskGroup} {current : TaskGroup} :
    Reads closed current [] (closed ++ [current])
  | task {closed groups : List TaskGroup} {current : TaskGroup} {b : Block} {bs : List Block}
    {t : Task} (told : taskOf? b = some t) (new : ¬ (current.task? t.id).isSome = true)
    (rest : Reads closed (current.addTask t) bs groups) : Reads closed current (b :: bs) groups
  | silent {closed groups : List TaskGroup} {current : TaskGroup} {b : Block} {bs : List Block}
    (other : taskTitle? b.heading.title = none)
    (general : String.ofList b.heading.title = TaskGroup.general ∧ closed = [] ∧ current.tasks = [])
    (rest : Reads closed current bs groups) : Reads closed current (b :: bs) groups
  | group {closed groups : List TaskGroup} {current : TaskGroup} {b : Block} {bs : List Block}
    (other : taskTitle? b.heading.title = none)
    (loud : ¬ (String.ofList b.heading.title = TaskGroup.general ∧ closed = [] ∧
      current.tasks = []))
    (new : String.ofList b.heading.title ∉ (closed ++ [current]).map (·.name))
    (rest : Reads (closed ++ [current]) (TaskGroup.new (String.ofList b.heading.title)) bs groups) :
    Reads closed current (b :: bs) groups

/-- Blocks that can be read in this way are read by the reader, to the same groups. -/
theorem Reads.readGroups_eq {closed groups : List TaskGroup} {current : TaskGroup} {bs : List Block}
    (reads : Reads closed current bs groups) : readGroups closed current bs = .ok groups := by
  induction reads with
  | done => rfl
  | task told new _ ih => rw [readGroups_of_task told new, ih]
  | silent other general _ ih => rw [readGroups_of_silent other general, ih]
  | group other loud new _ ih => rw [readGroups_of_group other loud new, ih]

/-- The reader gives groups exactly when blocks can be read in this way. Nothing below looks into the
reader itself. -/
theorem readGroups_eq_ok_iff {closed groups : List TaskGroup} {current : TaskGroup}
    {bs : List Block} :
    readGroups closed current bs = .ok groups ↔ Reads closed current bs groups := by
  refine ⟨fun h => ?_, Reads.readGroups_eq⟩
  fun_induction readGroups closed current bs with
  | case1 closed current =>
    cases h
    exact .done
  | case2 | case3 | case6 => cases h
  | case4 closed current b bs digits name htitle number hstored task hnew ih =>
    exact .task (taskOf?_of_title htitle hstored) hnew (ih h)
  | case5 closed current b bs hother name hgeneral ih => exact .silent hother hgeneral (ih h)
  | case7 closed current b bs hother name hloud hnew ih => exact .group hother hloud hnew (ih h)

/-! ## The tasks of groups -/

/-- A group keeps its name when a task comes to it. -/
theorem names_addTask (closed : List TaskGroup) (current : TaskGroup) (t : Task) :
    (closed ++ [current.addTask t]).map (·.name) = (closed ++ [current]).map (·.name) := by
  rw [List.map_append, List.map_append]
  rfl

theorem flatMap_tasks_addTask (closed : List TaskGroup) (current : TaskGroup) (t : Task) :
    (closed ++ [current.addTask t]).flatMap (·.tasks) =
      (closed ++ [current]).flatMap (·.tasks) ++ [t] := by
  simp [TaskGroup.addTask]

theorem flatMap_tasks_new (groups : List TaskGroup) (name : String) :
    (groups ++ [TaskGroup.new name]).flatMap (·.tasks) = groups.flatMap (·.tasks) := by
  simp [TaskGroup.new]

/-- The tasks of groups are those of the blocks that they are read from, in order and each once. -/
theorem Reads.tasks {closed groups : List TaskGroup} {current : TaskGroup} {bs : List Block}
    (reads : Reads closed current bs groups) :
    groups.flatMap (·.tasks) = (closed ++ [current]).flatMap (·.tasks) ++ bs.filterMap taskOf? := by
  induction reads with
  | done => rw [List.filterMap_nil, List.append_nil]
  | task told _ _ ih =>
    rw [ih, flatMap_tasks_addTask, List.filterMap_cons_some told, List.append_assoc]
    rfl
  | silent other _ _ ih => rw [ih, List.filterMap_cons_none (taskOf?_of_other other)]
  | group other _ _ _ ih =>
    rw [ih, flatMap_tasks_new, List.filterMap_cons_none (taskOf?_of_other other)]

/-- The tasks of a section are those of its blocks. -/
theorem tasks_of_readTasks {ls : List Line} {groups : List TaskGroup}
    (h : readTasks ls = .ok groups) : groups.flatMap (·.tasks) = (blocks ls).filterMap taskOf? := by
  have htasks := (readGroups_eq_ok_iff.mp h).tasks
  rwa [flatMap_tasks_new, List.flatMap_nil, List.nil_append] at htasks

/-! ## Groups that nobody has begun -/

/-- No row of a task says how far it has got, so reading rows does not begin it. A box that is ticked in
the text is the mark of an earlier run and is not read. -/
theorem readRows_fresh {inSteps : Bool} {t : Task} {lines : List Line} (fresh : t.Fresh) :
    (readRows inSteps t lines).Fresh := by
  fun_induction readRows inSteps t lines with
  | case1 => exact fresh
  | case2 inSteps t l ls fenced ih => exact ih fresh
  | case3 inSteps t l ls fenced row rest hrow ih => exact ih fresh
  | case4 inSteps t l ls fenced row hrow ih => exact ih fresh
  | case5 inSteps t l ls fenced row rest hrow => exact fresh
  | case6 inSteps t l ls fenced row hrow step hstep ih => exact ih fresh
  | case7 inSteps t l ls fenced row hrow hstep ih => exact ih fresh

/-- Groups of distinct names that nobody has begun. This is what a run may rely on at its beginning. -/
structure Fresh (groups : List TaskGroup) : Prop where
  names : (groups.map (·.name)).Nodup
  groups : ∀ g ∈ groups, g.Fresh

theorem Fresh.snoc {groups : List TaskGroup} {g : TaskGroup} (fresh : Fresh groups)
    (new : g.name ∉ groups.map (·.name)) (hg : g.Fresh) : Fresh (groups ++ [g]) := by
  constructor
  · rw [List.map_append, List.map_singleton, List.nodup_append]
    refine ⟨fresh.names, by simp, fun name hname name' hname' heq => ?_⟩
    rw [List.mem_singleton.mp hname'] at heq
    exact new (heq ▸ hname)
  · intro g' hg'
    rcases List.mem_append.mp hg' with hg' | hg'
    · exact fresh.groups g' hg'
    · rw [List.mem_singleton.mp hg']
      exact hg

theorem Fresh.addTask {closed : List TaskGroup} {current : TaskGroup} {t : Task}
    (fresh : Fresh (closed ++ [current])) (ht : t.Fresh) :
    Fresh (closed ++ [current.addTask t]) := by
  constructor
  · have hnames := fresh.names
    rw [List.map_append] at hnames ⊢
    exact hnames
  · intro g hg
    rcases List.mem_append.mp hg with hg | hg
    · exact fresh.groups g (List.mem_append_left _ hg)
    · rw [List.mem_singleton.mp hg]
      exact (fresh.groups current (by simp)).addTask ht

theorem taskOf?_fresh {b : Block} {t : Task} (h : taskOf? b = some t) : t.Fresh := by
  obtain ⟨_, _, _, -, -, rfl⟩ := title_of_taskOf? h
  exact readRows_fresh ⟨rfl, rfl⟩

theorem Reads.fresh {closed groups : List TaskGroup} {current : TaskGroup} {bs : List Block}
    (reads : Reads closed current bs groups) (fresh : Fresh (closed ++ [current])) :
    Fresh groups := by
  induction reads with
  | done => exact fresh
  | task told _ _ ih => exact ih (fresh.addTask (taskOf?_fresh told))
  | silent _ _ _ ih => exact ih fresh
  | group _ _ new _ ih => exact ih (fresh.snoc new (TaskGroup.new_fresh _))

/-! ## Plans -/

/-- The titles that a reader looks for. Other sections of a document are for people. -/
def sectionNames : List String := ["Tasks", "Specification", "Context Loading"]

/-- The plan of a text, given its groups. Everything else is read without fail. -/
def ofGroups (text : String) (groups : List TaskGroup) : Plan :=
  { path := none
    text
    spec := readSpecification (Outline.ofText text.toList)
    context := readContext (sectionBody (Outline.ofText text.toList) "Context Loading")
    groups
    statusLine := (headerField? (Outline.ofText text.toList) "Status").map (·.1) }

/-- A fence that is left open is found before anything else is looked at. -/
theorem parse_of_open {text : String} {line : Nat}
    (opened : (Outline.ofText text.toList).openFence? = some line) :
    parse text = .error (.atLine line .unterminatedFence) := by
  simp only [parse, opened]

theorem parse_of_no_tasks {text : String}
    (closed : (Outline.ofText text.toList).openFence? = none)
    (none : taskSection? (Outline.ofText text.toList) = none) :
    parse text = .error .missingTasks := by
  simp only [parse, closed, none]

/-- With fences closed and a section of tasks, what can still go wrong is in the groups. -/
theorem parse_of_tasks {text : String} {s : Section}
    (closed : (Outline.ofText text.toList).openFence? = none)
    (found : taskSection? (Outline.ofText text.toList) = some s) :
    parse text = (readTasks s.body).map (ofGroups text) := by
  simp only [parse, closed, found]
  rfl

/-- A text is read as a plan when its fences are closed, it has a section of tasks and the groups in
it can be read. -/
theorem parse_eq_ok_iff {text : String} {p : Plan} :
    parse text = .ok p ↔ ∃ s groups, (Outline.ofText text.toList).openFence? = none ∧
      taskSection? (Outline.ofText text.toList) = some s ∧ readTasks s.body = .ok groups ∧
      p = ofGroups text groups := by
  constructor
  · intro h
    cases hopen : (Outline.ofText text.toList).openFence? with
    | some line =>
      rw [parse_of_open hopen] at h
      cases h
    | none =>
      cases hfound : taskSection? (Outline.ofText text.toList) with
      | none =>
        rw [parse_of_no_tasks hopen hfound] at h
        cases h
      | some s =>
        rw [parse_of_tasks hopen hfound] at h
        obtain ⟨groups, hread, rfl⟩ := Except.map_eq_ok_iff.mp h
        exact ⟨s, groups, rfl, rfl, hread, rfl⟩
  · rintro ⟨s, groups, hclosed, hfound, hread, rfl⟩
    rw [parse_of_tasks hclosed hfound, hread]
    rfl

/-- A text is read as the plan that is computed from it. Plans can be compared by evaluation, errors
need not. -/
theorem parse_of_toOption {text : String} {p : Plan} (h : (parse text).toOption = some p) :
    parse text = .ok p := by
  cases hparse : parse text with
  | error e =>
    rw [hparse] at h
    cases h
  | ok q =>
    rw [hparse] at h
    exact congrArg Except.ok (Option.some.inj h)

/-- The groups of a plan that has just been read have distinct names and nobody has begun them, whatever
marks of an earlier run the text has. -/
theorem parse_fresh {text : String} {p : Plan} (h : parse text = .ok p) : Fresh p.groups := by
  obtain ⟨s, groups, -, -, hread, rfl⟩ := parse_eq_ok_iff.mp h
  refine (readGroups_eq_ok_iff.mp hread).fresh ⟨by simp, fun g hg => ?_⟩
  rw [List.mem_singleton.mp hg]
  exact TaskGroup.new_fresh _

end Plan

end Runbook
