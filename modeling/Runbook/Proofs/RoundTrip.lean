import Runbook.Proofs.GroupReading
import Runbook.Proofs.ParsedGroups
import Runbook.Proofs.WritableGroups

/-!
# Groups survive being written and read

Groups that can be written are read as they were from the section that is written for them
(`readTasks_groupLines`, `parse_renderTasks`). As the groups of a plan that has been read can be
written, the tasks of a plan can be written and read any number of times, and nothing but a context
or a command with a code quote in it changes (`reparse_renderTasks`).
-/

set_option autoImplicit false

namespace Runbook

open Text Markdown

/-! ## The section that is written -/

namespace Plan

/-- The lines under the heading of the tasks. The group of the tasks without a heading comes first and
has none written. -/
def groupLines : List TaskGroup → List (List Char)
  | [] => []
  | g :: gs => g.lines 3 (g.name ≠ TaskGroup.general) ++ gs.flatMap (TaskGroup.lines 3 true)

/-- The heading of the tasks and the lines under it. -/
def taskLines (groups : List TaskGroup) : List (List Char) :=
  headingLine 2 "Tasks".toList :: [] :: groupLines groups

/-- The groups that are read where groups are written from a line on, the first without a heading. They
differ from those that were written in where their steps stand. -/
def rereadGroups (line : Nat) : List TaskGroup → List TaskGroup
  | [] => []
  | g :: gs =>
    g.reread line :: TaskGroup.rereadFrom (line + Task.heights g.tasks) gs

theorem toList_tasksHeading : tasksHeading.toList = endLines [headingLine 2 "Tasks".toList, []] := by
  decide

theorem toList_renderTasks (groups : List TaskGroup) :
    (renderTasks groups).toList =
      endLines (taskLines groups) := by
  have hgroups : ∀ gs : List TaskGroup, (String.join (gs.map (TaskGroup.render 3 true))).toList =
      endLines (gs.flatMap (TaskGroup.lines 3 true)) := by
    intro gs
    rw [String.toList_join, List.flatMap_map]
    induction gs with
    | nil => rfl
    | cons g gs ih =>
      rw [List.flatMap_cons, List.flatMap_cons, endLines_append, ih, TaskGroup.toList_render]
  have hhead : ∀ ls, endLines (headingLine 2 "Tasks".toList :: [] :: ls) =
      tasksHeading.toList ++ endLines ls := by
    intro ls
    rw [toList_tasksHeading, ← endLines_append]
    rfl
  cases groups with
  | nil =>
    rw [taskLines, hhead, renderTasks, groupLines, endLines_nil, List.append_nil]
  | cons g gs =>
    rw [taskLines, hhead, renderTasks, groupLines, String.toList_append, String.toList_append, hgroups,
      TaskGroup.toList_render, endLines_append, List.append_assoc]

/-- Groups that can be written begin with the general one, and no other group has its name. -/
theorem Writable.exists_cons {groups : List TaskGroup} (h : Writable groups) :
    ∃ g gs, groups = g :: gs ∧ g.name = TaskGroup.general ∧
      ∀ g' ∈ gs, g'.Writable ∧ GroupName g'.name ∧ g'.name ≠ TaskGroup.general := by
  cases groups with
  | nil => cases h.first
  | cons g gs =>
    have hname : g.name = TaskGroup.general := by simpa using h.first
    refine ⟨g, gs, rfl, hname, fun g' hg' => ⟨h.groups g' (List.mem_cons_of_mem _ hg'),
      h.others g' hg', fun hgeneral => ?_⟩⟩
    have hnames := h.names
    rw [List.map_cons, List.nodup_cons] at hnames
    exact hnames.1 (List.mem_map.mpr ⟨g', hg', hgeneral.trans hname.symm⟩)

/-- No line that is written for groups is a heading of the level of sections or above. -/
theorem Writable.written_lines {groups : List TaskGroup} (h : Writable groups) :
    ∀ l ∈ groupLines groups, Written 3 l := by
  obtain ⟨g, gs, rfl, hname, hgs⟩ := h.exists_cons
  intro l hl
  rcases List.mem_append.mp hl with hl | hl
  · exact (h.groups g List.mem_cons_self).written_lines (by simp [hname]) (by decide) (by decide) l hl
  · obtain ⟨g', hg', hl⟩ := List.mem_flatMap.mp hl
    obtain ⟨hwritable, hgroup, -⟩ := hgs g' hg'
    exact hwritable.written_lines (fun _ => hgroup) (by decide) (by decide) l hl

/-- The groups that are written in a section are read from it. The first one has no heading and is open
from the start; each of the others is opened by its own. -/
theorem readTasks_groupLines {groups : List TaskGroup} (h : Writable groups) (line : Nat) :
    readTasks (openLines line ([] :: groupLines groups)) = .ok (rereadGroups (line + 1) groups) := by
  obtain ⟨g, gs, rfl, hname, hgs⟩ := h.exists_cons
  have hfirst := h.groups g List.mem_cons_self
  have hlines : g.lines 3 (g.name ≠ TaskGroup.general) = g.tasks.flatMap (Task.lines 3) := by
    simp [TaskGroup.lines, hname]
  have hblank : ∀ l ∈ openLines line [[]], l.heading? = none :=
    heading?_openLines (by simpa using RowLine.nil) line
  have hids : (((TaskGroup.new TaskGroup.general).tasks ++ g.tasks).map (·.id)).Nodup := hfirst.ids
  have hnames : ((TaskGroup.new TaskGroup.general :: gs).map (·.name)).Nodup := by
    have hnodup := h.names
    rwa [List.map_cons, hname] at hnodup
  rw [readTasks, groupLines, hlines, ← List.singleton_append, openLines_append,
    blocks_append_rows hblank, openLines_append,
    readGroups_tasks (by decide) (by decide) hfirst.tasks hids _
      (head_openLines_groups (by decide) (by decide) (fun g' hg' => (hgs g' hg').2.1) _),
    readGroups_lines (by decide) (by decide) hgs hnames, Task.length_lines, rereadGroups, TaskGroup.reread,
    hname]
  rfl

/-- A line that is written below the level of a section does not end it. -/
theorem endsAt_openLine {level : Nat} {text : List Char} (written : Written level text)
    {under : Heading} (below : under.level < level) (n : Nat) :
    SectionEnd.sameLevel.endsAt under (openLine n text) = false := by
  rw [SectionEnd.endsAt, heading?_openLine]
  cases hparse : parseHeading? text with
  | none => rfl
  | some found =>
    obtain ⟨k, title⟩ := found
    simpa [written.level k title hparse] using below

/-- The lines of a section of tasks go on to the end of the text, as it is the last one of a document.
-/
theorem takeWhile_groupLines {groups : List TaskGroup} (h : Writable groups) (tasks : Heading)
    (level : tasks.level = 2) (line : Nat) :
    (openLines line ([] :: groupLines groups)).takeWhile
        (!SectionEnd.sameLevel.endsAt tasks ·) = openLines line ([] :: groupLines groups) := by
  rw [List.takeWhile_eq_self_iff]
  intro l hl
  obtain ⟨k, text, htext, rfl⟩ := exists_of_mem_openLines hl
  have hwritten : Written 3 text := by
    rcases List.mem_cons.mp htext with rfl | htext
    · exact RowLine.nil.written 3
    · exact h.written_lines text htext
  rw [endsAt_openLine hwritten (by omega)]
  rfl

/-- Which fence is open behind some lines is all that matters for the lines that follow. -/
theorem openAfter_append (opened : Option Nat) (ls ls' : List Line) :
    Outline.openAfter opened (ls ++ ls') =
      Outline.openAfter (Outline.openAfter opened ls) ls' := by
  induction ls generalizing opened with
  | nil => rfl
  | cons l ls ih =>
    rw [List.cons_append, Outline.openAfter, Outline.openAfter]
    split <;> exact ih _

/-- Lines without fences leave everything as it was. -/
theorem openAfter_openLines (n : Nat) (ls : List (List Char)) (opened : Option Nat) :
    Outline.openAfter opened (openLines n ls) = opened := by
  induction ls generalizing n with
  | nil => rfl
  | cons l ls ih =>
    have hkind : (openLine n l).kind ≠ .fence := kindOutside_ne_fence l
    rw [openLines_cons, Outline.openAfter, if_neg hkind, ih]

theorem Writable.taskLines {groups : List TaskGroup} (h : Writable groups) :
    ∀ l ∈ taskLines groups, Unbroken l ∧ isFence l = false := by
  refine List.forall_mem_cons.mpr ⟨?_, List.forall_mem_cons.mpr ⟨?_, fun l hl => ?_⟩⟩
  · have hheading : Written 2 (headingLine 2 "Tasks".toList) :=
      written_headingLine (by decide) (by decide) (by decide) (by decide) (by decide)
    exact ⟨hheading.toUnbroken, hheading.noFence⟩
  · exact ⟨RowLine.nil.toUnbroken, RowLine.nil.noFence⟩
  · exact ⟨(h.written_lines l hl).toUnbroken, (h.written_lines l hl).noFence⟩

/-- Whatever stands above the section of tasks, the groups in it are read, as long as no fence is open
there and no heading takes its place. -/
theorem parse_of_taskLines {text : String} {groups : List TaskGroup} (h : Writable groups)
    {above : List Line} {n : Nat}
    (lines : (Outline.ofText text.toList).lines = above ++ openLines n (taskLines groups))
    (closed : Outline.openAfter none above = none)
    (none : ∀ l ∈ above, Outline.isTitled "Tasks".toList l = false) :
    parse text = .ok (ofGroups text (rereadGroups (n + 2) groups)) := by
  have hclosed : (Outline.ofText text.toList).openFence? = .none := by
    rw [Outline.openFence?, lines, openAfter_append, closed]
    exact openAfter_openLines n _ _
  have hheading : (openLine n (headingLine 2 "Tasks".toList)).heading? =
      some ⟨2, "Tasks".toList, n⟩ :=
    heading?_headingLine (by decide) (by decide) (by decide) (by decide) n
  have hfound : taskSection? (Outline.ofText text.toList) =
      some ⟨⟨2, "Tasks".toList, n⟩, openLines (n + 1) ([] :: groupLines groups)⟩ := by
    have htitled : sameIgnoringCase "Tasks".toList "Tasks".toList = true := by decide
    rw [taskSection?, sectionTitled?_of_split lines none hheading htitled,
      takeWhile_groupLines h _ rfl]
  exact parse_eq_ok_iff.mpr ⟨_, _, hclosed, hfound, readTasks_groupLines h (n + 1), rfl⟩

/-- The section of tasks is read as a plan of its own. -/
theorem parse_renderTasks {groups : List TaskGroup} (h : Writable groups) :
    parse (renderTasks groups) =
      .ok (ofGroups (renderTasks groups) (rereadGroups 2 groups)) := by
  have hlines : (Outline.ofText (renderTasks groups).toList).lines =
      [] ++ openLines 0 (taskLines groups) := by
    rw [Outline.ofText, toList_renderTasks, lines_endLines fun l hl => (h.taskLines l hl).1]
    exact scan_of_no_fence (fun l hl => (h.taskLines l hl).2) 0
  exact parse_of_taskLines h hlines rfl nofun

end Plan

/-! ## What is kept -/

/-- A task after it has been written and read: a context and a command are kept if they have no quote,
and only then. Both are written between quotes, so one inside of them ends them early. -/
structure Task.Kept (t t' : Task) : Prop where
  number : t'.number = t.number
  id : t'.id = t.id
  name : t'.name = t.name
  steps : t'.steps = t.steps
  context : t'.context = t.context ↔ codeQuote ∉ t.context.toList
  verify : t'.verify = t.verify ↔ codeQuote ∉ t.verify.toList

structure TaskGroup.Kept (g g' : TaskGroup) : Prop where
  name : g'.name = g.name
  tasks : List.Forall₂ Task.Kept g.tasks g'.tasks

namespace Plan

/-- A task that can be written is kept where it is read again. -/
theorem kept_reread {t : Task} (h : t.Writable) (line : Nat) : t.Kept (t.reread line) where
  number := rfl
  id := h.id.symm
  name := rfl
  steps := rfl
  context := contextBack_eq_iff h.context
  verify := commandBack_eq_iff h.verify

theorem kept_rereadFrom {ts : List Task} (h : ∀ t ∈ ts, t.Writable) (line : Nat) :
    List.Forall₂ Task.Kept ts (Task.rereadFrom line ts) := by
  induction ts generalizing line with
  | nil => exact .nil
  | cons t ts ih =>
    obtain ⟨ht, hts⟩ := List.forall_mem_cons.mp h
    exact .cons (kept_reread ht line) (ih hts _)

theorem kept_group {g : TaskGroup} (h : g.Writable) (line : Nat) : g.Kept (g.reread line) :=
  ⟨rfl, kept_rereadFrom h.tasks line⟩

theorem kept_groups {gs : List TaskGroup} (h : ∀ g ∈ gs, g.Writable) (line : Nat) :
    List.Forall₂ TaskGroup.Kept gs (TaskGroup.rereadFrom line gs) := by
  induction gs generalizing line with
  | nil => exact .nil
  | cons g gs ih =>
    obtain ⟨hg, hgs⟩ := List.forall_mem_cons.mp h
    exact .cons (kept_group hg _) (ih hgs _)

theorem kept_rereadGroups {groups : List TaskGroup} (h : ∀ g ∈ groups, g.Writable) (line : Nat) :
    List.Forall₂ TaskGroup.Kept groups (rereadGroups line groups) := by
  cases groups with
  | nil => exact .nil
  | cons g gs =>
    obtain ⟨hg, hgs⟩ := List.forall_mem_cons.mp h
    exact .cons (kept_group hg _) (kept_groups hgs _)

/-- The tasks of a plan that has been read are read again when they are written: the groups and
everything in the tasks are kept, apart from contexts and commands with a quote in them. -/
theorem reparse_renderTasks {text : String} {p : Plan} (h : parse text = .ok p) :
    ∃ q, parse (renderTasks p.groups) = .ok q ∧ List.Forall₂ TaskGroup.Kept p.groups q.groups := by
  have hwritable := parse_writable h
  exact ⟨_, parse_renderTasks hwritable, kept_rereadGroups hwritable.groups 2⟩

/-- A plan with a context that has a quote, which its reader did not take for a code span. -/
def signText : String :=
  "## Tasks\n### Text\n#### Task 7: Find\n**Context:** `src`, `doc`\n**Steps:**\n1. [x] $ grep\n"
    ++ "**Verify:** `test -s found`\n#### Task 8: Explain\n**Context:** the \x60 sign\n"

def signPlan : Plan where
  text := signText
  groups := [TaskGroup.new "General", { TaskGroup.new "Text" with
    tasks := [{ Task.new 7 "Find" with
      context := "src, doc", steps := ["$ grep"], stepLines := [5], verify := "test -s found" },
      { Task.new 8 "Explain" with context := "the \x60 sign" }] }]

theorem parse_signText : parse signText = .ok signPlan := parse_of_toOption (by decide +kernel)

theorem reparse_renderTasks_of_sign :
    parse signText = .ok signPlan ∧ ∃ q, parse (renderTasks signPlan.groups) = .ok q ∧
      List.Forall₂ TaskGroup.Kept signPlan.groups q.groups :=
  ⟨parse_signText, reparse_renderTasks parse_signText⟩

end Plan

end Runbook
