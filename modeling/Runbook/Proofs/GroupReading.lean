import Runbook.Proofs.GroupLines
import Runbook.Proofs.Outline
import Runbook.Proofs.ParsedGroups
import Runbook.Proofs.Rows

/-!
# Reading what has been written

The lines of a group are read back as the group, line by line and then task by task: what is read of
a task is the task with nothing done (`Task.reread`, `readRows_rows`), what is read of groups are the
groups with such tasks (`readGroups_lines`). The context and the verify command come back through
their quotes (`contextBack`, `commandBack`), which keep every text that has no quote of its own
(`contextBack_eq_iff`, `commandBack_eq_iff`).
-/

set_option autoImplicit false

namespace Runbook

open Text Markdown

/-! ## Lines outside of fences -/

namespace Markdown

/-- A line that is neither a fence nor verbatim. Whatever is written of a plan, its commands apart, is
made of such lines. -/
def openLine (n : Nat) (l : List Char) : Line := ⟨n, l, kindOutside l⟩

/-- Such lines from a number on. -/
def openLines : Nat → List (List Char) → List Line
  | _, [] => []
  | n, l :: ls => openLine n l :: openLines (n + 1) ls

@[simp] theorem openLines_nil (n : Nat) : openLines n [] = [] := rfl

@[simp] theorem openLines_cons (n : Nat) (l : List Char) (ls : List (List Char)) :
    openLines n (l :: ls) = openLine n l :: openLines (n + 1) ls := rfl

theorem openLines_append (n : Nat) (ls ls' : List (List Char)) :
    openLines n (ls ++ ls') = openLines n ls ++ openLines (n + ls.length) ls' := by
  induction ls generalizing n with
  | nil => rfl
  | cons l ls ih =>
    rw [List.cons_append, openLines_cons, ih, openLines_cons, List.length_cons,
      Nat.add_right_comm]
    rfl

/-- Lines without a fence are scanned as such lines, and leave the scan outside of all fences. -/
theorem scan_open {ls : List (List Char)} (h : ∀ l ∈ ls, isFence l = false) (n : Nat)
    (ls' : List (List Char)) :
    scan false n (ls ++ ls') = openLines n ls ++ scan false (n + ls.length) ls' := by
  induction ls generalizing n with
  | nil => rfl
  | cons l ls ih =>
    obtain ⟨hl, hls⟩ := List.forall_mem_cons.mp h
    rw [List.cons_append, scan, if_neg (by simp [hl]), if_neg (by simp), ih hls, List.length_cons,
      Nat.add_right_comm]
    rfl

theorem scan_of_no_fence {ls : List (List Char)} (h : ∀ l ∈ ls, isFence l = false) (n : Nat) :
    scan false n ls = openLines n ls := by
  have hscan := scan_open h n []
  rwa [List.append_nil, scan, List.append_nil] at hscan

theorem isFenced_openLine (n : Nat) (l : List Char) : (openLine n l).isFenced = false := by
  unfold openLine kindOutside Line.isFenced
  split <;> rfl

theorem heading?_openLine (n : Nat) (l : List Char) :
    (openLine n l).heading? = (parseHeading? l).map fun (level, title) => ⟨level, title, n⟩ := by
  unfold openLine kindOutside Line.heading?
  cases parseHeading? l <;> rfl

theorem exists_of_mem_openLines {n : Nat} {ls : List (List Char)} {line : Line}
    (h : line ∈ openLines n ls) : ∃ k, ∃ l ∈ ls, line = openLine k l := by
  induction ls generalizing n with
  | nil => cases h
  | cons l ls ih =>
    rcases List.mem_cons.mp h with rfl | h
    · exact ⟨n, l, List.mem_cons_self, rfl⟩
    · obtain ⟨k, l', hl', hline⟩ := ih h
      exact ⟨k, l', List.mem_cons_of_mem _ hl', hline⟩

/-- No line before the first heading belongs to a block. So they can be left out. -/
theorem blocks_append_rows {rows : List Line} (h : ∀ l ∈ rows, l.heading? = none)
    (more : List Line) : blocks (rows ++ more) = blocks more := by
  induction rows with
  | nil => rfl
  | cons l rows ih =>
    obtain ⟨hl, hrows⟩ := List.forall_mem_cons.mp h
    rw [List.cons_append, blocks, hl, ih hrows]

/-- A heading with rows under it is a block when no row follows. -/
theorem blocks_heading {l : Line} {heading : Heading} (hl : l.heading? = some heading)
    {rows : List Line} (h : ∀ l ∈ rows, l.heading? = none) {more : List Line}
    (hmore : ∀ l, more.head? = some l → l.heading? ≠ none) :
    blocks (l :: (rows ++ more)) = ⟨heading, rows⟩ :: blocks more := by
  rw [blocks, hl]
  simp only [blocks_append_rows h]
  rw [takeWhile_append_stop (by simpa using h) (by simpa [Option.isSome_iff_ne_none] using hmore)]

end Markdown

namespace Plan

/-! ## Rows -/

section Rows

variable {inSteps : Bool} {t : Task} {n : Nat} {ls : List Line}

/-- A row without a label that is no step either says nothing. The empty rows and the rule that a writer
puts between the parts of a task are of this kind. -/
theorem readRows_openLine_other {l : List Char} (other : rowOf (trim l) = .other)
    (noStep : stepText? (trim l) = none) :
    readRows inSteps t (openLine n l :: ls) = readRows inSteps t ls := by
  rw [readRows, isFenced_openLine, if_neg (by simp)]
  simp only [openLine, other, noStep, ite_self]

theorem trim_marker_append {label : String} {c : Char} (hc : isBlank c = false) (cs : List Char) :
    trim (fieldMarker label ++ (cs ++ [c])) = fieldMarker label ++ (cs ++ [c]) := by
  have htrim := trim_cons_concat (c := '*') (d := c) (by decide) hc
    ('*' :: label.toList ++ [':', '*', '*'] ++ cs)
  simpa [fieldMarker] using htrim

theorem readRows_openLine_nil :
    readRows inSteps t (openLine n [] :: ls) = readRows inSteps t ls :=
  readRows_openLine_other (by decide) (by decide)

theorem readRows_rule :
    readRows inSteps t (openLine n "---".toList :: ls) = readRows inSteps t ls :=
  readRows_openLine_other (by decide) (by decide)

theorem readRows_contextLine (code : List Char) :
    readRows inSteps t (openLine n (fieldMarker "Context" ++ inQuotes code) :: ls) =
      readRows inSteps { t with context := String.ofList (contextValue (inQuotes code)) } ls := by
  have htrim : trim (fieldMarker "Context" ++ inQuotes code) =
      fieldMarker "Context" ++ inQuotes code :=
    trim_marker_append (by decide) (' ' :: codeQuote :: code)
  rw [readRows, isFenced_openLine, if_neg (by simp)]
  simp only [openLine, htrim, rowOf_context]

theorem readRows_stepsLine :
    readRows inSteps t (openLine n (fieldMarker "Steps") :: ls) = readRows true t ls := by
  have htrim : trim (fieldMarker "Steps") = fieldMarker "Steps" := by decide
  rw [readRows, isFenced_openLine, if_neg (by simp)]
  simp only [openLine, htrim, rowOf_steps]

theorem readRows_verifyLine (code : List Char) :
    readRows inSteps t (openLine n (fieldMarker "Verify" ++ inQuotes code) :: ls) =
      { t with verify := String.ofList (commandValue (inQuotes code)) } := by
  have htrim : trim (fieldMarker "Verify" ++ inQuotes code) =
      fieldMarker "Verify" ++ inQuotes code :=
    trim_marker_append (by decide) (' ' :: codeQuote :: code)
  rw [readRows, isFenced_openLine, if_neg (by simp)]
  simp only [openLine, htrim, rowOf_verify]

theorem trim_itemRow {step : String} (tidy : Tidy step) (some : step ≠ "") (i : Nat) :
    ∃ d ds, d ≠ '*' ∧ itemRow step i = d :: ds ∧ trim (itemRow step i) = itemRow step i := by
  cases hdigits : (toString (i + 1)).toList with
  | nil => exact absurd hdigits (toString_ne_nil _)
  | cons d ds =>
    have hd : d.isDigit = true := isDigit_of_mem_toString (by rw [hdigits]; exact List.mem_cons_self)
    have hrow : itemRow step i = d :: ((ds ++ ". [ ] ".toList) ++ step.toList) := by
      rw [itemRow, hdigits, List.cons_append, List.cons_append]
    refine ⟨d, _, ?_, hrow, ?_⟩
    · rintro rfl
      exact absurd hd (by decide)
    · rw [hrow]
      exact trim_append_tidy (isBlank_of_isDigit (isDigit_of_ascii hd)) tidy some

theorem readRows_itemLine {step : String} (tidy : Tidy step) (some : step ≠ "") (i : Nat) :
    readRows true t (openLine n (itemRow step i) :: ls) = readRows true (t.addStep step n) ls := by
  obtain ⟨d, ds, hd, hrow, htrim⟩ := trim_itemRow tidy some i
  have hother : rowOf (itemRow step i) = .other := by
    rw [hrow]
    exact rowOf_of_head hd ds
  have hstep : stepText? (itemRow step i) = .some step.toList :=
    stepText?_written (i + 1) tidy.trimmed
  rw [readRows, isFenced_openLine, if_neg (by simp)]
  simp only [openLine, htrim, hother, if_true, hstep, String.ofList_toList]

/-- The items of a task are read one after the other, each with its line. The numbers that they are
written with do not matter. -/
theorem readRows_itemLines {steps : List String} (tidy : ∀ s ∈ steps, Tidy s ∧ s ≠ "") (t : Task)
    (n i : Nat) :
    readRows true t (openLines n ((steps.zipIdx i).map fun (step, i) => itemRow step i) ++ ls) =
      readRows true { t with
        steps := t.steps ++ steps
        stepLines := t.stepLines ++ List.range' n steps.length } ls := by
  induction steps generalizing t n i with
  | nil => simp
  | cons step steps ih =>
    obtain ⟨⟨hstep, hsome⟩, hsteps⟩ := List.forall_mem_cons.mp tidy
    rw [List.zipIdx_cons, List.map_cons, openLines_cons, List.cons_append,
      readRows_itemLine hstep hsome, ih hsteps]
    simp [Task.addStep, List.range'_succ]

end Rows

/-! ## What comes back -/

/-- The context that is read when one is written. It is another one when there is a quote in it, and so
it has a name. -/
def contextBack (context : String) : String :=
  String.ofList (contextValue (inQuotes context.toList))

/-- The command that is read when one is written. -/
def commandBack (command : String) : String :=
  String.ofList (commandValue (inQuotes command.toList))

/-- A context comes back as it is just when it has no quote. -/
theorem contextBack_eq_iff {context : String} (tidy : Tidy context) :
    contextBack context = context ↔ codeQuote ∉ context.toList := by
  by_cases h : context = ""
  · subst h
    decide
  · rw [contextBack, ← String.toList_inj, String.toList_ofList]
    exact contextValue_quoted (by simpa [String.toList_eq_nil_iff] using h) tidy.trimmed

theorem commandBack_eq_iff {command : String} (tidy : Tidy command) :
    commandBack command = command ↔ codeQuote ∉ command.toList := by
  rw [commandBack, ← String.toList_inj, String.toList_ofList]
  exact commandValue_quoted tidy.trimmed

theorem readRows_contextRows {inSteps : Bool} {t : Task} (fresh : t.context = "") (context : String)
    (n : Nat) (ls : List Line) :
    readRows inSteps t (openLines n (contextRows context) ++ ls) =
      readRows inSteps { t with context := contextBack context } ls := by
  unfold contextRows
  split
  · rename_i h
    have hback : contextBack "" = "" := by decide
    rw [h, hback, ← fresh]
    rfl
  · rw [openLines_cons, openLines_cons, openLines_nil, List.cons_append, readRows_contextLine,
      List.cons_append, readRows_openLine_nil]
    rfl

theorem readRows_stepRows (inSteps : Bool) {steps : List String}
    (tidy : ∀ s ∈ steps, Tidy s ∧ s ≠ "") (t : Task) (n : Nat) (ls : List Line) :
    ∃ inSteps', readRows inSteps t (openLines n (stepRows steps) ++ ls) =
      readRows inSteps' { t with
        steps := t.steps ++ steps
        stepLines := t.stepLines ++ List.range' (n + 2) steps.length } ls := by
  unfold stepRows
  split
  · rename_i h
    subst h
    exact ⟨inSteps, by simp⟩
  · refine ⟨true, ?_⟩
    rw [List.cons_append, List.cons_append, openLines_cons, openLines_cons, openLines_append,
      List.cons_append, readRows_stepsLine, List.cons_append, readRows_openLine_nil,
      List.append_assoc, readRows_itemLines tidy, openLines_cons, openLines_nil, List.cons_append,
      readRows_openLine_nil]
    rfl

theorem isBlankText_iff {s : String} : isBlankText s = true ↔ Blank s.toList := by
  rw [isBlankText, List.all_eq_true]
  rfl

theorem readRows_verifyRows {inSteps : Bool} {t : Task} (fresh : t.verify = "") {verify : String}
    (tidy : Tidy verify) (n : Nat) :
    readRows inSteps t (openLines n (verifyRows verify ++ ["---".toList, []])) =
      { t with verify := commandBack verify } := by
  unfold verifyRows
  split
  · rename_i h
    have hempty : verify = "" := by
      have hnil := tidy.trimmed.symm.trans (trim_of_blank (isBlankText_iff.mp h))
      simpa [String.toList_eq_nil_iff] using hnil
    have hback : commandBack "" = "" := by decide
    rw [hempty, hback, ← fresh, List.nil_append, openLines_cons, readRows_rule, openLines_cons,
      readRows_openLine_nil]
    rfl
  · rw [List.cons_append, openLines_cons, readRows_verifyLine]
    rfl

end Plan

/-! ## Tasks and groups -/

open Plan

/-- The task that is read where the task is written, with its heading on a line. Its status and error
are those of a new task: nothing is written of what has been done. -/
def Task.reread (line : Nat) (t : Task) : Task :=
  { Task.new t.number t.name with
    context := contextBack t.context
    steps := t.steps
    stepLines := List.range' (line + (contextRows t.context).length + 4) t.steps.length
    verify := commandBack t.verify }

/-- The number of lines that a task is written in. From it follow the lines of the steps of all tasks
below. -/
def Task.height (t : Task) : Nat := t.rows.length + 1

/-- The number of lines that tasks are written in. -/
def Task.heights : List Task → Nat
  | [] => 0
  | t :: ts => t.height + Task.heights ts

theorem Task.length_lines (level : Nat) (ts : List Task) :
    (ts.flatMap (Task.lines level)).length = Task.heights ts := by
  induction ts with
  | nil => rfl
  | cons t ts ih =>
    rw [List.flatMap_cons, List.length_append, ih]
    rfl

/-- The tasks that are read where tasks are written from a line on. -/
def Task.rereadFrom : Nat → List Task → List Task
  | _, [] => []
  | line, t :: ts => t.reread line :: Task.rereadFrom (line + t.height) ts

/-- The group that is read where its tasks are written from a line on. -/
def TaskGroup.reread (line : Nat) (g : TaskGroup) : TaskGroup :=
  { TaskGroup.new g.name with tasks := Task.rereadFrom line g.tasks }

/-- The groups that are read where groups are written from a line on, each under a heading and an empty
line. -/
def TaskGroup.rereadFrom : Nat → List TaskGroup → List TaskGroup
  | _, [] => []
  | line, g :: gs =>
    g.reread (line + 2) ::
      TaskGroup.rereadFrom (line + 2 + Task.heights g.tasks) gs

namespace Plan

/-- The rows of a task are read as the task. Part by part the reader takes up what the writer has put
there; a part that was left out leaves what a new task has. -/
theorem readRows_rows {t : Task} (h : t.Writable) (line : Nat) :
    readRows false (Task.new t.number t.name) (openLines (line + 1) t.rows) = t.reread line := by
  have hrows : t.rows = [] :: (contextRows t.context ++ (stepRows t.steps
      ++ (verifyRows t.verify ++ ["---".toList, []]))) := by simp [Task.rows]
  rw [hrows, openLines_cons, readRows_openLine_nil, openLines_append, readRows_contextRows rfl,
    openLines_append]
  obtain ⟨inSteps, hsteps⟩ := readRows_stepRows false h.steps
    { Task.new t.number t.name with context := contextBack t.context }
    (line + 1 + 1 + (contextRows t.context).length) _
  rw [hsteps, readRows_verifyRows rfl h.verify, Task.reread]
  simp only [Task.new, List.nil_append]
  congr 2
  omega

theorem taskTitle?_title {t : Task} (h : t.Writable) :
    taskTitle? t.title = some ((toString t.number).toList, t.name.toList) := by
  have htitle : IsTitle t.title (toString t.number).toList (' ' :: t.name.toList) :=
    { eq := ⟨[' '], by decide, by decide, by simp [Task.title_eq]⟩
      some := toString_ne_nil _
      digits := digits_toString t.number
      more := List.cons_ne_nil _ _ }
  rw [taskTitle?_of_isTitle htitle, trim_space, h.name.trimmed]

theorem heading?_headingLine {level : Nat} {title : List Char} (low : 1 ≤ level)
    (high : level ≤ 6) (tidy : trim title = title) (some : title ≠ []) (n : Nat) :
    (openLine n (headingLine level title)).heading? = .some ⟨level, title, n⟩ := by
  rw [heading?_openLine, headingLine, parseHeading?_heading low high tidy some]
  rfl

theorem heading?_openLines {ls : List (List Char)} (h : ∀ l ∈ ls, RowLine l) (n : Nat) :
    ∀ line ∈ openLines n ls, line.heading? = none := by
  intro line hline
  obtain ⟨k, l, hl, rfl⟩ := exists_of_mem_openLines hline
  rw [heading?_openLine, (h l hl).noHeading]
  rfl

section Groups

variable {closed : List TaskGroup} {current : TaskGroup} {level : Nat}

theorem task?_eq_none {g : TaskGroup} {id : String} (h : id ∉ g.tasks.map (·.id)) :
    g.task? id = none := by
  rw [TaskGroup.task?, List.find?_eq_none]
  intro t ht hid
  exact h (List.mem_map.mpr ⟨t, ht, by simpa using hid⟩)

/-- A task that is written under the heading of a group is added to the group. Its number must be new
there, as it is in a group that can be written. -/
theorem readGroups_task (low : 1 ≤ level) (high : level ≤ 6) {t : Task} (h : t.Writable)
    (new : t.id ∉ current.tasks.map (·.id)) (line : Nat) {more : List Line}
    (hmore : ∀ l, more.head? = some l → l.heading? ≠ none) :
    readGroups closed current (blocks (openLines line (t.lines level) ++ more)) =
      readGroups closed (current.addTask (t.reread line)) (blocks more) := by
  have hheading := heading?_headingLine low high h.trim_title t.title_ne_nil line
  have hid : (t.reread line).id = t.id := h.id.symm
  have htold : taskOf? ⟨⟨level, t.title, line⟩, openLines (line + 1) t.rows⟩ =
      some (t.reread line) := by
    rw [taskOf?_of_title (taskTitle?_title h) (natBelow?_toString h.bound), String.ofList_toList,
      readRows_rows h]
  rw [Task.lines, openLines_cons, List.cons_append,
    blocks_heading hheading (heading?_openLines h.rows (line + 1)) hmore,
    readGroups_of_task htold (by rw [hid, task?_eq_none new]; exact Bool.false_ne_true)]

theorem head_openLines_tasks (low : 1 ≤ level) (high : level ≤ 6) {ts : List Task}
    (h : ∀ t ∈ ts, t.Writable) (line : Nat) {more : List Line}
    (hmore : ∀ l, more.head? = some l → l.heading? ≠ none) :
    ∀ l, (openLines line (ts.flatMap (Task.lines level)) ++ more).head? = some l →
      l.heading? ≠ none := by
  cases ts with
  | nil => exact hmore
  | cons t ts =>
    intro l hl
    have ht := h t List.mem_cons_self
    rw [List.flatMap_cons, Task.lines, List.cons_append, openLines_cons, List.cons_append,
      List.head?_cons, Option.some.injEq] at hl
    rw [← hl, heading?_headingLine low high ht.trim_title t.title_ne_nil]
    exact Option.some_ne_none _

/-- Tasks that are written one after the other are added to the group one after the other. -/
theorem readGroups_tasks (low : 1 ≤ level) (high : level ≤ 6) {ts : List Task}
    (h : ∀ t ∈ ts, t.Writable) (new : ((current.tasks ++ ts).map (·.id)).Nodup) (line : Nat)
    {more : List Line} (hmore : ∀ l, more.head? = some l → l.heading? ≠ none) :
    readGroups closed current
        (blocks (openLines line (ts.flatMap (Task.lines level)) ++ more)) =
      readGroups closed { current with tasks := current.tasks ++ Task.rereadFrom line ts }
        (blocks more) := by
  induction ts generalizing current line with
  | nil => simp [Task.rereadFrom]
  | cons t ts ih =>
    obtain ⟨ht, hts⟩ := List.forall_mem_cons.mp h
    have hnew : t.id ∉ current.tasks.map (·.id) := by
      rw [List.map_append, List.nodup_append] at new
      exact fun hmem => new.2.2 _ hmem _ (by simp) rfl
    have hnext : (((current.addTask (t.reread line)).tasks ++ ts).map (·.id)).Nodup := by
      have hid : (t.reread line).id = t.id := ht.id.symm
      simpa [TaskGroup.addTask, hid] using new
    rw [List.flatMap_cons, openLines_append, List.append_assoc,
      readGroups_task low high ht hnew line (head_openLines_tasks low high hts _ hmore),
      ih hts hnext]
    simp [TaskGroup.addTask, Task.rereadFrom, Task.height, Task.lines]

/-- The heading of a group is a block with a blank row, and its tasks are the blocks behind it. -/
theorem blocks_group (low : 1 ≤ level) (high : level ≤ 6) {g : TaskGroup} (h : g.Writable)
    (name : GroupName g.name) (line : Nat) {more : List Line}
    (hmore : ∀ l, more.head? = some l → l.heading? ≠ none) :
    blocks (openLines line (g.lines level true) ++ more) =
      ⟨⟨level, g.name.toList, line⟩, openLines (line + 1) [[]]⟩ ::
        blocks (openLines (line + 2) (g.tasks.flatMap (Task.lines level)) ++ more) := by
  have hlines : g.lines level true =
      headingLine level g.name.toList :: ([[]] ++ g.tasks.flatMap (Task.lines level)) := by
    simp [TaskGroup.lines]
  have hheading := heading?_headingLine low high name.tidy.trimmed
    (by simpa [String.toList_eq_nil_iff] using name.named) line
  have hrow : ∀ l ∈ openLines (line + 1) [[]], l.heading? = none :=
    heading?_openLines (by simpa using RowLine.nil) _
  rw [hlines, openLines_cons, List.cons_append, openLines_append, List.append_assoc,
    blocks_heading hheading hrow (head_openLines_tasks low high h.tasks _ hmore)]
  rfl

/-- A group that is written under a heading is opened, with its tasks. What follows must begin with a
heading, or it would belong to the last task. -/
theorem readGroups_group (low : 1 ≤ level) (high : level ≤ 6) {g : TaskGroup} (h : g.Writable)
    (name : GroupName g.name) (loud : g.name ≠ TaskGroup.general)
    (new : g.name ∉ (closed ++ [current]).map (·.name)) (line : Nat) {more : List Line}
    (hmore : ∀ l, more.head? = some l → l.heading? ≠ none) :
    readGroups closed current (blocks (openLines line (g.lines level true) ++ more)) =
      readGroups (closed ++ [current]) (g.reread (line + 2)) (blocks more) := by
  have hsaid : String.ofList g.name.toList = g.name := String.ofList_toList
  have hloud : ¬ (String.ofList g.name.toList = TaskGroup.general ∧ closed = [] ∧ current.tasks = []) :=
    fun silent => loud (hsaid ▸ silent.1)
  have hids : (((TaskGroup.new g.name).tasks ++ g.tasks).map (·.id)).Nodup := by
    simpa [TaskGroup.new] using h.ids
  rw [blocks_group low high h name line hmore, readGroups_of_group name.other hloud (by rwa [hsaid]),
    hsaid, readGroups_tasks low high h.tasks hids _ hmore]
  rfl

/-- A name that has been given to a group is not given to another one: the reader refuses the heading,
and the text is no plan. -/
theorem readGroups_group_of_taken (low : 1 ≤ level) (high : level ≤ 6) {g : TaskGroup}
    (h : g.Writable) (name : GroupName g.name) (loud : g.name ≠ TaskGroup.general)
    (taken : g.name ∈ (closed ++ [current]).map (·.name)) (line : Nat) {more : List Line}
    (hmore : ∀ l, more.head? = some l → l.heading? ≠ none) :
    readGroups closed current (blocks (openLines line (g.lines level true) ++ more)) =
      .error (.atLine line (.repeatedGroup g.name)) := by
  rw [blocks_group low high h name line hmore, readGroups]
  simp only [name.other, String.ofList_toList, loud, false_and, if_false, if_pos taken]

theorem head_openLines_groups (low : 1 ≤ level) (high : level ≤ 6) {gs : List TaskGroup}
    (names : ∀ g ∈ gs, GroupName g.name) (line : Nat) :
    ∀ l, (openLines line (gs.flatMap (TaskGroup.lines level true))).head? = some l →
      l.heading? ≠ none := by
  cases gs with
  | nil => exact nofun
  | cons g gs =>
    intro l hl
    obtain ⟨tidy, named, -⟩ := names g List.mem_cons_self
    rw [List.flatMap_cons, TaskGroup.lines, if_pos rfl, List.cons_append, List.cons_append,
      openLines_cons, List.head?_cons, Option.some.injEq] at hl
    rw [← hl, heading?_headingLine low high tidy.trimmed
      (by simpa [String.toList_eq_nil_iff] using named)]
    exact Option.some_ne_none _

/-- Groups that are written one after the other are opened one after the other. -/
theorem readGroups_lines (low : 1 ≤ level) (high : level ≤ 6) {gs : List TaskGroup}
    (h : ∀ g ∈ gs, g.Writable ∧ GroupName g.name ∧ g.name ≠ TaskGroup.general)
    (new : ((closed ++ current :: gs).map (·.name)).Nodup) (line : Nat) :
    readGroups closed current
        (blocks (openLines line (gs.flatMap (TaskGroup.lines level true)))) =
      .ok (closed ++ current :: TaskGroup.rereadFrom line gs) := by
  induction gs generalizing closed current line with
  | nil => rfl
  | cons g gs ih =>
    obtain ⟨⟨hg, hname, hloud⟩, hgs⟩ := List.forall_mem_cons.mp h
    have hnew : g.name ∉ (closed ++ [current]).map (·.name) := by
      rw [List.append_cons, List.map_append, List.nodup_append] at new
      exact fun hmem => new.2.2 _ hmem _ (by simp) rfl
    have hnext : ((closed ++ [current] ++ g.reread (line + 2) :: gs).map (·.name)).Nodup := by
      simpa [TaskGroup.reread, TaskGroup.new] using new
    have hheight : (g.lines level true).length = 2 + Task.heights g.tasks := by
      rw [TaskGroup.lines, if_pos rfl, List.length_append, Task.length_lines]
      rfl
    rw [List.flatMap_cons, openLines_append, readGroups_group low high hg hname hloud hnew line
      (head_openLines_groups low high (fun g' hg' => (hgs g' hg').2.1) _), ih hgs hnext, hheight]
    simp [TaskGroup.rereadFrom, Nat.add_assoc]

end Groups

end Plan

end Runbook
