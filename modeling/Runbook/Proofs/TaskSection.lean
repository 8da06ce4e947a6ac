import Runbook.Proofs.Insertion

/-!
# Tasks that stand elsewhere

What is read of a section of tasks depends on its own lines and on nothing else. A section stands under
a heading, so no fence is open where its body begins, and the scan of the whole text finds in the body
what the scan of the body by itself would find (`SplitAt.body_eq`). The two scans differ in how the lines
are counted, and so do the readers: with `k` more lines above, everything that is a line number is greater
by `k` and all else is the same (`readTasks_below`).

So two texts with the same lines in their sections of tasks have the same groups, but for the numbers of
the lines (`groups_elsewhere`).
-/

set_option autoImplicit false

namespace Runbook

/-! ## More lines above -/

namespace Markdown

/-- The line with some more lines above it. It keeps its text and its kind. -/
def Line.below (k : Nat) (l : Line) : Line := { l with number := k + l.number }

def Heading.below (k : Nat) (h : Heading) : Heading := { h with line := k + h.line }

def Block.below (k : Nat) (b : Block) : Block := ⟨b.heading.below k, b.rows.map (Line.below k)⟩

@[simp] theorem Line.isFenced_below (k : Nat) (l : Line) : (l.below k).isFenced = l.isFenced := rfl

/-- A heading goes down with its line. -/
theorem Line.heading?_below (k : Nat) (l : Line) :
    (l.below k).heading? = l.heading?.map (Heading.below k) := by
  obtain ⟨number, text, kind⟩ := l
  cases kind <;> rfl

/-- The scan counts lines, and does not look at the numbers. -/
theorem scan_below (k : Nat) (inside : Bool) (n : Nat) (texts : List (List Char)) :
    scan inside (k + n) texts = (scan inside n texts).map (Line.below k) := by
  induction texts generalizing inside n with
  | nil => rfl
  | cons text texts ih =>
    rw [scan, scan, Nat.add_assoc, ih, ih]
    split
    · rfl
    · split <;> rfl

/-- Blocks are cut at headings, which are the same. -/
theorem blocks_below (k : Nat) (ls : List Line) :
    blocks (ls.map (Line.below k)) = (blocks ls).map (Block.below k) :=
  blocks_map fun l _ => l.heading?_below k

/-! ## The body of a section -/

/-- What stands under a heading is scanned as it would be on its own, since no fence is open there. -/
theorem scan_under_heading {inside : Bool} {n : Nat} {texts : List (List Char)} {l : Line}
    {body : List Line} (scanned : scan inside n texts = l :: body) (heading : l.heading? ≠ none) :
    body = scan false (n + 1) (body.map (·.text)) := by
  obtain rfl : inside = false := openBehind_of_heading (by rw [scanned, List.head?_cons]) heading
  cases texts with
  | nil => cases scanned
  | cons text texts =>
    by_cases hfence : isFence text = true
    · -- a fence is no heading
      rw [scan, if_pos hfence, List.cons.injEq] at scanned
      exact absurd (scanned.1 ▸ rfl) heading
    · rw [scan, if_neg hfence, if_neg Bool.false_ne_true, List.cons.injEq] at scanned
      rw [← scanned.2, text_scan]

/-- The body of a section is what a scan of its own lines gives, counted from where it begins. -/
theorem SplitAt.body_eq {text title : List Char} {ends : SectionEnd} {s : Section}
    {above behind : List Line} {l : Line} (split : SplitAt text title ends s above l behind) :
    s.body = scan false s.start (s.body.map (·.text)) := by
  have hback := (scan_take split.scan_above).2
  have hstart : 0 + above.length + 1 = s.start := by
    have hstop := split.stop
    rw [Section.stop, List.length_append, List.length_cons] at hstop
    omega
  rw [← hstart]
  exact scan_under_heading hback (by rw [split.heading]; exact Option.some_ne_none _)

/-- The body of a section, with the lines counted from where it begins. -/
theorem body_below_start {text title : List Char} {ends : SectionEnd} {s : Section}
    (found : (Outline.ofText text).sectionTitled? title ends = some s) :
    s.body = (scan false 0 (s.body.map (·.text))).map (Line.below s.start) := by
  obtain ⟨above, l, behind, hsplit⟩ := exists_splitAt found
  rw [← scan_below, Nat.add_zero]
  exact hsplit.body_eq

end Markdown

/-- The task, read with some more lines above it. Only the lines of its steps are line numbers. -/
def Task.below (k : Nat) (t : Task) : Task := { t with stepLines := t.stepLines.map (k + ·) }

def TaskGroup.below (k : Nat) (g : TaskGroup) : TaskGroup :=
  { g with tasks := g.tasks.map (Task.below k) }

/-- The same fault, some lines further down. -/
def ParseError.below (k : Nat) : ParseError → ParseError
  | .missingTasks => .missingTasks
  | .invalid line fault => .invalid (k + line) fault

theorem Task.addStep_below (k : Nat) (t : Task) (step : String) (line : Nat) :
    (t.addStep step line).below k = (t.below k).addStep step (k + line) := by
  simp [below, addStep]

theorem TaskGroup.addTask_below (k : Nat) (g : TaskGroup) (t : Task) :
    (g.addTask t).below k = (g.below k).addTask (t.below k) := by
  simp [below, addTask]

/-- A task is found by its number, wherever its steps stand. So the same tasks are refused. -/
theorem TaskGroup.isSome_task?_below (k : Nat) (g : TaskGroup) (id : String) :
    ((g.below k).task? id).isSome = (g.task? id).isSome := by
  have hid : ((·.id == id) : Task → Bool) ∘ Task.below k = (·.id == id) := rfl
  show ((g.tasks.map (Task.below k)).find? (·.id == id)).isSome = _
  rw [List.find?_map, Option.isSome_map, hid]
  rfl

/-- The task with the lines of its steps counted from `b` instead of from `a`. -/
def Task.moved (a b : Nat) (t : Task) : Task :=
  { t with stepLines := t.stepLines.map fun n => b + (n - a) }

def TaskGroup.moved (a b : Nat) (g : TaskGroup) : TaskGroup :=
  { g with tasks := g.tasks.map (Task.moved a b) }

/-- A group that stands below `a` lines, moved to stand below `b`, is the one that is read there. -/
theorem TaskGroup.moved_below (a b : Nat) (g : TaskGroup) : (g.below a).moved a b = g.below b := by
  have htask : ∀ t : Task, (t.below a).moved a b = t.below b := by
    intro t
    simp [Task.below, Task.moved]
  simp [below, moved, htask]

namespace Plan

open Text Markdown

/-! ## Readers -/

/-- Rows are read alike further down, and the lines of the steps with them. -/
theorem readRows_below (k : Nat) (inSteps : Bool) (t : Task) (rows : List Line) :
    readRows inSteps (t.below k) (rows.map (Line.below k)) = (readRows inSteps t rows).below k := by
  induction rows generalizing inSteps t with
  | nil => rfl
  | cons row rows ih =>
    have htext : (row.below k).text = row.text := rfl
    rw [List.map_cons, readRows, readRows, Line.isFenced_below, htext]
    cases row.isFenced with
    | true => exact ih inSteps t
    | false =>
      simp only [Bool.false_eq_true, if_false]
      cases rowOf (trim row.text) with
      | context rest => exact ih inSteps { t with context := String.ofList (contextValue rest) }
      | steps => exact ih true t
      | verify rest => rfl
      | other =>
        cases if inSteps = true then stepText? (trim row.text) else none with
        | none => exact ih inSteps t
        | some step =>
          show readRows inSteps ((t.below k).addStep (String.ofList step) (k + row.number)) _ = _
          rw [← Task.addStep_below]
          exact ih inSteps (t.addStep (String.ofList step) row.number)

/-- Groups are read alike further down, or refused with the same fault on a line further down. -/
theorem readGroups_below (k : Nat) (closed : List TaskGroup) (current : TaskGroup) (bs : List Block) :
    readGroups (closed.map (TaskGroup.below k)) (current.below k) (bs.map (Block.below k)) =
      ((readGroups closed current bs).map (·.map (TaskGroup.below k))).mapError
        (ParseError.below k) := by
  induction bs generalizing closed current with
  | nil =>
    rw [List.map_nil, readGroups, readGroups]
    simp [Except.map, Except.mapError]
  | cons b bs ih =>
    -- neither the titles nor the names move, so the reader takes the same branch in both
    have htitle : (b.below k).heading.title = b.heading.title := rfl
    have hnames : (closed.map (TaskGroup.below k) ++ [current.below k]).map (·.name) =
        (closed ++ [current]).map (·.name) := by
      simp [Function.comp_def, TaskGroup.below]
    rw [List.map_cons, readGroups, readGroups, htitle]
    cases taskTitle? b.heading.title with
    | some title =>
      obtain ⟨digits, name⟩ := title
      simp only
      cases natBelow? Task.numberBound digits with
      | none => rfl
      | some number =>
        simp only
        have htask : readRows false (Task.new number (String.ofList name)) (b.below k).rows =
            (readRows false (Task.new number (String.ofList name)) b.rows).below k :=
          readRows_below k false (Task.new number (String.ofList name)) b.rows
        rw [htask]
        generalize readRows false (Task.new number (String.ofList name)) b.rows = task
        have hid : (task.below k).id = task.id := rfl
        rw [hid, TaskGroup.isSome_task?_below]
        split
        · rfl
        · rw [← TaskGroup.addTask_below]
          exact ih closed (current.addTask task)
    | none =>
      have hunused : (closed.map (TaskGroup.below k) = [] ∧ (current.below k).tasks = []) ↔
          closed = [] ∧ current.tasks = [] := by
        simp [TaskGroup.below]
      simp only [hnames, hunused]
      split
      · exact ih closed current
      · split
        · rfl
        · have hclosed : closed.map (TaskGroup.below k) ++ [current.below k] =
              (closed ++ [current]).map (TaskGroup.below k) := by simp
          rw [hclosed]
          exact ih (closed ++ [current]) (TaskGroup.new (String.ofList b.heading.title))

/-- With some more lines above it, a section holds the same tasks, and their steps stand as many lines
further down. -/
theorem readTasks_below (k : Nat) (ls : List Line) :
    readTasks (ls.map (Line.below k)) =
      ((readTasks ls).map (·.map (TaskGroup.below k))).mapError (ParseError.below k) := by
  rw [readTasks, readTasks, blocks_below]
  exact readGroups_below k [] (TaskGroup.new TaskGroup.general) (blocks ls)

/-! ## Two texts with the same tasks -/

/-- The groups of a text are those of the body of its section of tasks by itself, as far down as the
body begins. -/
theorem groups_of_body {text : String} {p : Plan} {s : Section} (read : parse text = .ok p)
    (found : taskSection? (Outline.ofText text.toList) = some s) :
    ∃ groups, readTasks (scan false 0 (s.body.map (·.text))) = .ok groups ∧
      p.groups = groups.map (TaskGroup.below s.start) := by
  obtain ⟨s₀, groups, -, hfound, hread, rfl⟩ := parse_eq_ok_iff.mp read
  obtain rfl : s = s₀ := Option.some.inj (found.symm.trans hfound)
  rw [body_below_start found, readTasks_below] at hread
  cases hown : readTasks (scan false 0 (s.body.map (·.text))) with
  | error e =>
    rw [hown] at hread
    cases hread
  | ok own =>
    rw [hown] at hread
    exact ⟨own, rfl, (Except.ok.inj hread).symm⟩

/-- What a text says of its tasks depends on the lines of their section alone: with the same lines in
it, another text has the same groups, but for where the steps stand. -/
theorem groups_elsewhere {text text' : String} {p p' : Plan} {s s' : Section}
    (read : parse text = .ok p) (read' : parse text' = .ok p')
    (found : taskSection? (Outline.ofText text.toList) = some s)
    (found' : taskSection? (Outline.ofText text'.toList) = some s')
    (same : s'.body.map (·.text) = s.body.map (·.text)) :
    p'.groups = p.groups.map (TaskGroup.moved s.start s'.start) ∧
      ∀ t ∈ p.tasks, ∀ n ∈ t.stepLines, s.start ≤ n := by
  obtain ⟨groups, hown, hgroups⟩ := groups_of_body read found
  obtain ⟨groups', hown', hgroups'⟩ := groups_of_body read' found'
  obtain rfl : groups' = groups := by
    rw [same, hown] at hown'
    exact (Except.ok.inj hown').symm
  constructor
  · rw [hgroups', hgroups, List.map_map]
    exact List.map_congr_left fun g _ => (g.moved_below s.start s'.start).symm
  · intro t ht n hn
    rw [tasks, hgroups] at ht
    obtain ⟨g, hg, ht⟩ := List.mem_flatMap.mp ht
    obtain ⟨g₀, -, rfl⟩ := List.mem_map.mp hg
    obtain ⟨t₀, -, rfl⟩ := List.mem_map.mp ht
    obtain ⟨m, -, rfl⟩ := List.mem_map.mp hn
    exact Nat.le_add_right s.start m

/-- A section of tasks, with nothing above it. -/
def bareText : String := "## Tasks\n### Task 1: Build\n**Steps:**\n1. [ ] make\n"

/-- The same lines under a heading of another level, behind an example and above a further section. -/
def framedText : String :=
  "# Demo\n```\n## Tasks\n```\n# Tasks\n### Task 1: Build\n**Steps:**\n1. [ ] make\n# Notes\n"

def builtTask (line : Nat) : Task :=
  { Task.new 1 "Build" with steps := ["make"], stepLines := [line] }

def builtGroups (line : Nat) : List TaskGroup :=
  [{ TaskGroup.new TaskGroup.general with tasks := [builtTask line] }]

/-- The same task, whose step stands four lines further down. -/
theorem groups_elsewhere_of_framed :
    ∃ p p' s s', parse bareText = .ok p ∧ parse framedText = .ok p' ∧
      taskSection? (Outline.ofText bareText.toList) = some s ∧
      taskSection? (Outline.ofText framedText.toList) = some s' ∧ s.start = 1 ∧ s'.start = 5 ∧
      p.groups = builtGroups 3 ∧ p'.groups = builtGroups 7 := by
  have hbare : parse bareText = .ok { text := bareText, groups := builtGroups 3 } :=
    parse_of_toOption (by decide +kernel)
  have hframed : ∃ p', parse framedText = .ok p' := by
    cases hread : parse framedText with
    | ok p' => exact ⟨p', rfl⟩
    | error e =>
      have hsome : (parse framedText).toOption.isSome = true := by decide +kernel
      rw [hread] at hsome
      cases hsome
  obtain ⟨p', hp'⟩ := hframed
  have hstart : (taskSection? (Outline.ofText bareText.toList)).map (·.start) = some 1 := by
    decide +kernel
  have hstart' : (taskSection? (Outline.ofText framedText.toList)).map (·.start) = some 5 := by
    decide +kernel
  have hsame : (taskSection? (Outline.ofText framedText.toList)).map (·.body.map (·.text)) =
      (taskSection? (Outline.ofText bareText.toList)).map (·.body.map (·.text)) := by
    decide +kernel
  obtain ⟨s, hs, hone⟩ := Option.map_eq_some_iff.mp hstart
  obtain ⟨s', hs', hfive⟩ := Option.map_eq_some_iff.mp hstart'
  rw [hs, hs', Option.map_some, Option.map_some, Option.some.injEq] at hsame
  obtain ⟨hgroups, -⟩ := groups_elsewhere hbare hp' hs hs' hsame
  refine ⟨_, p', s, s', hbare, hp', hs, hs', hone, hfive, rfl, ?_⟩
  rw [hgroups, hone, hfive]
  rfl

end Plan

end Runbook
