import Runbook.Plan.Library
import Runbook.Plan.TaskSpec
import Runbook.Proofs.Insertion
import Runbook.Proofs.Numerals
import Runbook.Proofs.RoundTrip

/-!
# A group that is added

A new group is written like any other and nothing in it is escaped. So it stands behind the old groups
as it was given exactly when a reader takes its lines for what they were written for (`Addable`,
`addGroup_appends`): a name that is blank or reads like a task makes no group, a text that goes over
the end of a line is cut there, and a command or a context is read up to its first quote.

1. The old groups are read as before: nothing above the new lines is changed that a reader of tasks
   sees, and a section goes on up to the heading that ends it (`Runbook.Proofs.Insertion`).
2. What is read behind them is a group of its own (`readTasks_append_group`), be the section an old
   one (`parse_insertAt_section`) or a new one (`parse_insertAt_end`). So it is known which texts can
   be added to (`Takes`, `extend_of_takes`, `takes_of_extend`).
3. Conversely a plan that has been read holds nothing but what can be written
   (`parse_writable`), so nothing else can be found there (`Appended.placed`).
-/

set_option autoImplicit false

namespace Runbook

open Text Markdown Plan

/-! ## Tasks from one line each -/

/-- No text of the task has blanks around it, and the name and the steps are more than blanks. A task
that is made of one line of text is always so, because each part of the line is trimmed. -/
structure Task.Trimmed (t : Task) : Prop where
  named : t.name ≠ ""
  name : trim t.name.toList = t.name.toList
  context : trim t.context.toList = t.context.toList
  verify : trim t.verify.toList = t.verify.toList
  steps : ∀ s ∈ t.steps, trim s.toList = s.toList ∧ s ≠ ""

theorem trimmed_stepsOf (cs : List Char) : ∀ s ∈ stepsOf cs, trim s.toList = s.toList ∧ s ≠ "" := by
  intro s hs
  obtain ⟨step, hstep, rfl⟩ := List.mem_map.mp hs
  obtain ⟨hstep, hsome⟩ := List.mem_filter.mp hstep
  obtain ⟨piece, -, rfl⟩ := List.mem_map.mp hstep
  have hne : trim piece ≠ [] := by simpa using hsome
  exact ⟨by rw [String.toList_ofList, trim_trim], ofList_ne_empty hne⟩

theorem Task.trimmed_of_ofSpec {line : String} {t : Task} (h : Task.ofSpec line = .ok t) :
    t.Trimmed := by
  have hpart : ∀ i, trim ((((partsAtBars 3 line.toList).map trim)).getD i []) =
      ((partsAtBars 3 line.toList).map trim).getD i [] := by
    intro i
    rw [List.getD_eq_getElem?_getD, List.getElem?_map]
    cases (partsAtBars 3 line.toList)[i]? with
    | none => decide
    | some part => exact trim_trim part
  rw [Task.ofSpec] at h
  dsimp only at h
  split at h
  · cases h
  · rename_i hnamed
    cases h
    exact {
      named := hnamed
      name := by simpa [Task.new] using hpart 0
      context := by simpa using hpart 1
      verify := by simpa using hpart 2
      steps := trimmed_stepsOf _ }

/-- No text of the task goes over the end of a line. This has to be asked: a line break in what is given
is written as it is, and the next reader takes what follows for a line of its own. -/
@[mk_iff]
structure Task.OneLine (t : Task) : Prop where
  name : '\n' ∉ t.name.toList
  context : '\n' ∉ t.context.toList
  verify : '\n' ∉ t.verify.toList
  steps : ∀ s ∈ t.steps, '\n' ∉ s.toList

instance (t : Task) : Decidable t.OneLine := decidable_of_iff' _ (Task.oneLine_iff t)

/-- The task says what was given. Its number is left out, since the plan that it is added to gives it
another one. -/
@[mk_iff]
structure Task.AsGiven (given t : Task) : Prop where
  name : t.name = given.name
  context : t.context = given.context
  verify : t.verify = given.verify
  steps : t.steps = given.steps

instance (given t : Task) : Decidable (given.AsGiven t) :=
  decidable_of_iff' _ (Task.asGiven_iff given t)

/-- A task with a number, as it is put into a group that is added. -/
def Task.numbered (number : Nat) (t : Task) : Task :=
  { Task.new number t.name with context := t.context, verify := t.verify, steps := t.steps }

theorem Task.writable_numbered {t : Task} (trimmed : t.Trimmed) (oneLine : t.OneLine) {n : Nat}
    (bound : n < Task.numberBound) : (t.numbered n).Writable where
  id := rfl
  bound := bound
  name := ⟨oneLine.name, trimmed.name⟩
  named := trimmed.named
  steps s hs := ⟨⟨oneLine.steps s hs, (trimmed.steps s hs).1⟩, (trimmed.steps s hs).2⟩
  context := ⟨oneLine.context, trimmed.context⟩
  verify := ⟨oneLine.verify, trimmed.verify⟩

/-- When a trimmed task that fits on its lines is written and read again, only its quotes can be lost,
and they are lost whenever there are any. -/
theorem Task.asGiven_reread {t : Task} (trimmed : t.Trimmed) (oneLine : t.OneLine) (n line : Nat) :
    t.AsGiven ((t.numbered n).reread line) ↔
      codeQuote ∉ t.context.toList ∧ codeQuote ∉ t.verify.toList := by
  rw [Task.asGiven_iff, ← contextBack_eq_iff ⟨oneLine.context, trimmed.context⟩,
    ← commandBack_eq_iff ⟨oneLine.verify, trimmed.verify⟩]
  exact ⟨fun h => ⟨h.2.1, h.2.2.1⟩, fun h => ⟨rfl, h.1, h.2, rfl⟩⟩

namespace Plan

theorem renumbered_cons (first : Nat) (t : Task) (ts : List Task) :
    renumbered first (t :: ts) = t.numbered first :: renumbered (first + 1) ts := by
  rw [renumbered, List.zipIdx_cons, List.map_cons, List.zipIdx_succ, List.map_map, renumbered]
  refine congrArg (_ :: ·) (List.map_congr_left fun ti _ => ?_)
  simp only [Function.comp_apply, Nat.add_assoc, Nat.add_comm 1]

theorem exists_of_mem_renumbered {first : Nat} {tasks : List Task} {t : Task}
    (h : t ∈ renumbered first tasks) : ∃ n, ∃ given ∈ tasks, first ≤ n ∧ n < first + tasks.length ∧
      t = given.numbered n := by
  induction tasks generalizing first with
  | nil => cases h
  | cons given tasks ih =>
    rw [renumbered_cons] at h
    rcases List.mem_cons.mp h with rfl | h
    · exact ⟨first, given, List.mem_cons_self, Nat.le_refl _, by simp, rfl⟩
    · obtain ⟨n, given', hgiven, hlow, hhigh, rfl⟩ := ih h
      refine ⟨n, given', List.mem_cons_of_mem _ hgiven, by omega, ?_, rfl⟩
      rw [List.length_cons]
      omega

theorem nodup_renumbered (first : Nat) (tasks : List Task) :
    ((renumbered first tasks).map (·.id)).Nodup := by
  induction tasks generalizing first with
  | nil => exact .nil
  | cons t ts ih =>
    rw [renumbered_cons, List.map_cons, List.nodup_cons]
    refine ⟨fun hmem => ?_, ih _⟩
    obtain ⟨t', ht', hid⟩ := List.mem_map.mp hmem
    obtain ⟨n, given, -, hlow, -, rfl⟩ := exists_of_mem_renumbered ht'
    have hn : n = first := Task.idOf_inj hid
    omega

/-- A group of new tasks can be written if each fits on its lines. The numbers follow one another, so
none comes twice. -/
theorem writable_newGroup {name : String} {first : Nat} {tasks : List Task}
    (trimmed : ∀ t ∈ tasks, t.Trimmed) (oneLine : ∀ t ∈ tasks, t.OneLine)
    (bound : first + tasks.length ≤ Task.numberBound) :
    (newGroup name first tasks).Writable where
  tasks t ht := by
    obtain ⟨n, given, hgiven, -, hhigh, rfl⟩ := exists_of_mem_renumbered ht
    exact (given.writable_numbered (trimmed given hgiven) (oneLine given hgiven) (by omega))
  ids := nodup_renumbered first tasks

/-- The tasks of the group come back as they were given if there is no quote to lose, and otherwise they
do not. So the condition cannot be made weaker. -/
theorem asGiven_rereadFrom {tasks : List Task} (trimmed : ∀ t ∈ tasks, t.Trimmed)
    (oneLine : ∀ t ∈ tasks, t.OneLine) (first line : Nat) :
    List.Forall₂ Task.AsGiven tasks (Task.rereadFrom line (renumbered first tasks)) ↔
      ∀ t ∈ tasks, codeQuote ∉ t.context.toList ∧ codeQuote ∉ t.verify.toList := by
  induction tasks generalizing first line with
  | nil => exact ⟨fun _ => nofun, fun _ => .nil⟩
  | cons t ts ih =>
    obtain ⟨ht, hts⟩ := List.forall_mem_cons.mp trimmed
    obtain ⟨hline, hlines⟩ := List.forall_mem_cons.mp oneLine
    rw [renumbered_cons, Task.rereadFrom, List.forall₂_cons, List.forall_mem_cons,
      Task.asGiven_reread ht hline, ih hts hlines]

end Plan

/-! ## Rows and blocks behind others -/

namespace Plan

theorem readRows_append_blank {blank : List (List Char)} (empty : ∀ l ∈ blank, l = []) (n : Nat)
    (inSteps : Bool) (t : Task) (rows : List Line) :
    readRows inSteps t (rows ++ openLines n blank) = readRows inSteps t rows := by
  induction rows generalizing inSteps t with
  | nil =>
    induction blank generalizing n with
    | nil => rfl
    | cons l blank ih =>
      obtain ⟨rfl, hblank⟩ := List.forall_mem_cons.mp empty
      rw [List.nil_append, openLines_cons, readRows_openLine_nil]
      exact ih hblank (n + 1)
  | cons l rows ih =>
    rw [List.cons_append, readRows, readRows]
    simp only [ih]

theorem heading?_of_empty {blank : List (List Char)} (empty : ∀ l ∈ blank, l = []) (n : Nat) :
    ∀ l ∈ openLines n blank, l.heading? = none :=
  heading?_openLines (fun l hl => empty l hl ▸ RowLine.nil) n

/-- Blank lines behind the last row of a section are not seen. A writer puts them there to keep the new
group apart from what stands above. -/
theorem readGroups_append_blank {blank : List (List Char)} (empty : ∀ l ∈ blank, l = []) (n : Nat)
    (closed : List TaskGroup) (current : TaskGroup) (ls : List Line) :
    readGroups closed current (blocks (ls ++ openLines n blank)) =
      readGroups closed current (blocks ls) := by
  induction ls generalizing closed current with
  | nil =>
    have hrows := blocks_append_rows (heading?_of_empty empty n) []
    rw [List.append_nil] at hrows
    rw [List.nil_append, hrows]
  | cons l ls ih =>
    rw [List.cons_append, blocks, blocks]
    cases l.heading? with
    | none => exact ih closed current
    | some h =>
      -- the blank lines are rows of the last block, and of no other
      have hrows : ∀ t, readRows false t ((ls ++ openLines n blank).takeWhile (·.heading?.isNone)) =
          readRows false t (ls.takeWhile (·.heading?.isNone)) := by
        intro t
        rw [List.takeWhile_append]
        split
        · rename_i hall
          have hblank : (openLines n blank).takeWhile (·.heading?.isNone) = openLines n blank :=
            List.takeWhile_eq_self_iff.mpr fun l hl => by rw [heading?_of_empty empty n l hl]; rfl
          rw [hblank, readRows_append_blank empty, (List.takeWhile_sublist _).eq_of_length hall]
        · rfl
      rw [readGroups, readGroups]
      simp only [hrows, ih]

/-- Blocks are read into the groups of the blocks before them: what has been read decides how those
behind it are read, and nothing else of the text does. -/
theorem Reads.append {closed groups : List TaskGroup} {current : TaskGroup} {bs : List Block}
    (reads : Reads closed current bs groups) : ∃ closed' current',
      groups = closed' ++ [current'] ∧
        ∀ more, readGroups closed current (bs ++ more) = readGroups closed' current' more := by
  induction reads with
  | @done closed current => exact ⟨closed, current, rfl, fun _ => rfl⟩
  | task told new _ ih =>
    obtain ⟨closed', current', hgroups, hmore⟩ := ih
    exact ⟨closed', current', hgroups, fun more =>
      (readGroups_of_task told new _).trans (hmore more)⟩
  | silent other general _ ih =>
    obtain ⟨closed', current', hgroups, hmore⟩ := ih
    exact ⟨closed', current', hgroups, fun more =>
      (readGroups_of_silent other general _).trans (hmore more)⟩
  | group other loud new _ ih =>
    obtain ⟨closed', current', hgroups, hmore⟩ := ih
    exact ⟨closed', current', hgroups, fun more =>
      (readGroups_of_group other loud new _).trans (hmore more)⟩

/-- Behind the groups of a section, the lines of a new group are read as that group, if no group has its
name yet. The old groups are those that were read before, with the same lines for their steps. -/
theorem readTasks_append_group {ls : List Line} {groups : List TaskGroup}
    (read : readTasks ls = .ok groups) {level : Nat} (low : 1 ≤ level) (high : level ≤ 6)
    {g : TaskGroup} (h : g.Writable) (name : GroupName g.name) (loud : g.name ≠ TaskGroup.general)
    {blank : List (List Char)} (empty : ∀ l ∈ blank, l = []) (m n : Nat) :
    readTasks (ls ++ (openLines m blank ++ openLines n (g.lines level true))) =
      if g.name ∈ groups.map (·.name) then .error (.atLine n (.repeatedGroup g.name))
      else .ok (groups ++ [g.reread (n + 2)]) := by
  have hhead : ∀ l, (openLines n (g.lines level true)).head? = some l → l.heading? ≠ none := by
    have hname : ∀ g' ∈ [g], GroupName g'.name := by simpa using name
    have hheads := head_openLines_groups low high hname n
    rwa [List.flatMap_singleton] at hheads
  have hnone : ∀ l, ([] : List Line).head? = some l → l.heading? ≠ none := nofun
  have hblank : readGroups [] (TaskGroup.new TaskGroup.general) (blocks (ls ++ openLines m blank)) =
      .ok groups := (readGroups_append_blank empty m _ _ ls).trans read
  obtain ⟨closed, current, rfl, hmore⟩ := (readGroups_eq_ok_iff.mp hblank).append
  rw [readTasks, ← List.append_assoc, blocks_append hhead, hmore,
    ← List.append_nil (openLines n (g.lines level true))]
  split
  · rename_i htaken
    exact readGroups_group_of_taken low high h name loud htaken n hnone
  · rename_i hnew
    rw [readGroups_group low high h name loud hnew n hnone]
    rfl

/-! ## Texts with a new group -/

/-- A section of tasks goes on with the group that is put behind it, if it has none of that name. The
heading of the section must leave room for two more levels, one for the group and one for its tasks. -/
theorem parse_insertAt_section {text : String} {p : Plan} {s : Section}
    (parsed : parse text = .ok p) (found : taskSection? (Outline.ofText text.toList) = some s)
    (high : s.heading.level + 1 ≤ 6) {g : TaskGroup} (h : g.Writable) (name : GroupName g.name)
    (loud : g.name ≠ TaskGroup.general) {text' : String}
    (extended : text' = String.ofList (insertAt text.toList s.stop
      (g.render (s.heading.level + 1) true).toList)) :
    ∃ line e, parse text' = if g.name ∈ p.groups.map (·.name) then .error e
      else .ok (ofGroups text' (p.groups ++ [g.reread line])) := by
  obtain ⟨s₀, groups, hclosed, hfound, hread, rfl⟩ := parse_eq_ok_iff.mp parsed
  obtain rfl : s₀ = s := Option.some.inj (hfound.symm.trans found)
  have hwritten : ∀ l ∈ g.lines (s₀.heading.level + 1) true, Written (s₀.heading.level + 1) l :=
    h.written_lines (fun _ => name) (Nat.succ_pos _) high
  have htext : text'.toList =
      insertAt text.toList s₀.stop (endLines (g.lines (s₀.heading.level + 1) true)) := by
    rw [extended, String.toList_ofList, TaskGroup.toList_render]
  have hclosed' : (Outline.ofText text'.toList).openFence? = none := by
    rw [htext]
    exact (closed_insertAt (fun l hl => (hwritten l hl).toUnbroken)
      (fun l hl => (hwritten l hl).noFence)).mpr hclosed
  obtain ⟨edit, blank, m, n, hedit, hblank, hsection⟩ := taskSection?_insertAt hclosed found hwritten
  rw [← htext] at hsection
  have hmem : ∀ l ∈ s₀.body, l ∈ (Outline.ofText text.toList).lines :=
    fun l hl => (body_sublist found).subset hl
  -- the line end in front of the new group may be another one, which no reader of rows sees
  have hbody : readTasks (s₀.body.map (redrawn edit)) = .ok groups := by
    rw [readTasks_map (fun l _ => keeps_redrawn edit l)
      (fun l hl => heading?_of_ending hedit (hmem l hl))
      (fun l hl _ => by rw [trim_of_ending hedit (hmem l hl)])
      fun l hl _ => by rw [trim_of_ending hedit (hmem l hl)]]
    exact hread
  refine ⟨n + 2, .atLine n (.repeatedGroup g.name), ?_⟩
  rw [parse_of_tasks hclosed' hsection,
    readTasks_append_group hbody (Nat.succ_pos _) high h name loud hblank m n]
  exact apply_ite (Except.map (ofGroups text')) _ _ _

theorem toList_insertAt_tasks (g : TaskGroup) :
    (tasksHeading ++ g.render 3 true).toList =
      endLines (taskLines [TaskGroup.new TaskGroup.general, g]) := by
  have hlines : taskLines [TaskGroup.new TaskGroup.general, g] =
      [headingLine 2 "Tasks".toList, []] ++ g.lines 3 true := by
    simp [taskLines, groupLines, TaskGroup.lines, TaskGroup.new]
  rw [String.toList_append, toList_tasksHeading, TaskGroup.toList_render, hlines, endLines_append]

/-- A group of another name can be written behind the general one. -/
theorem writable_general_cons {g : TaskGroup} (h : g.Writable) (name : GroupName g.name)
    (loud : g.name ≠ TaskGroup.general) : Writable [TaskGroup.new TaskGroup.general, g] := by
  refine ⟨rfl, ?_, ?_, ?_⟩
  · simpa [TaskGroup.new] using Ne.symm loud
  · simpa using name
  · simpa using ⟨⟨by simp [TaskGroup.new], by simp [TaskGroup.new]⟩, h⟩

section End

variable {text text' : String} {g : TaskGroup} (h : g.Writable) (name : GroupName g.name)
  (loud : g.name ≠ TaskGroup.general)
  (extended : text' = String.ofList (insertAt text.toList (Outline.ofText text.toList).lines.length
    (tasksHeading ++ g.render 3 true).toList))
include h name loud extended

/-- A section that is put at the end of a text opens no fence, nor does it close one. So a text with an
open fence is refused before and after. -/
theorem closed_insertAt_end : (Outline.ofText text'.toList).openFence? = none ↔
    (Outline.ofText text.toList).openFence? = none := by
  have hlines := (writable_general_cons h name loud).taskLines
  rw [extended, String.toList_ofList, toList_insertAt_tasks]
  exact closed_insertAt (fun l hl => (hlines l hl).1) (fun l hl => (hlines l hl).2)

/-- Where there is no section of tasks, the one that is put at the end of the text is read, if no fence
is open there. Its general group is empty, as it is for every plan whose tasks stand under headings. -/
theorem parse_insertAt_end (none : taskSection? (Outline.ofText text.toList) = none)
    (closed : (Outline.ofText text.toList).openFence? = .none) : ∃ line, parse text' =
      .ok (ofGroups text' ([TaskGroup.new TaskGroup.general] ++ [g.reread line])) := by
  have hwritable := writable_general_cons h name loud
  have hlines := hwritable.taskLines
  obtain ⟨edit, blank, m, n, hedit, hblank, houtline⟩ :=
    outline_insertAt_end (fun l hl => (hlines l hl).1) (fun l hl => (hlines l hl).2) closed
  rw [← toList_insertAt_tasks, ← String.toList_ofList (l := insertAt _ _ _), ← extended] at houtline
  have hclosed := (closed_insertAt_end h name loud extended).mpr closed
  -- lines of no fence leave open what is open before them, and nothing is at the end
  have habove : Outline.openAfter .none ((Outline.ofText text.toList).lines.map (redrawn edit) ++
      openLines m blank) = .none := by
    rw [Outline.openFence?, houtline, openAfter_append, openAfter_openLines] at hclosed
    exact hclosed
  have huntitled : ∀ l ∈ (Outline.ofText text.toList).lines.map (redrawn edit) ++ openLines m blank,
      Outline.isTitled "Tasks".toList l = false := by
    intro l hl
    rw [Bool.eq_false_iff]
    intro htitled
    obtain ⟨heading, hheading, htitle⟩ := isTitled_iff.mp htitled
    rcases List.mem_append.mp hl with hl | hl
    · obtain ⟨l₀, hl₀, rfl⟩ := List.mem_map.mp hl
      rw [heading?_of_ending hedit hl₀] at hheading
      exact sectionTitled?_eq_none none heading (List.mem_filterMap.mpr ⟨l₀, hl₀, hheading⟩) htitle
    · rw [heading?_of_empty hblank m l hl] at hheading
      cases hheading
  exact ⟨_, parse_of_taskLines hwritable houtline habove huntitled⟩

end End

/-! ## Plans with a new group -/

/-- The groups that a group is added to. A text without a section of tasks has but the general one,
although by itself it is no plan. -/
def groupsBefore (text : String) : Except ParseError (List TaskGroup) :=
  match taskSection? (Outline.ofText text.toList) with
  | none => .ok [TaskGroup.new TaskGroup.general]
  | some _ => (parse text).map (·.groups)

/-- The groups are followed by one of the given name, whose tasks say what was given. -/
def Appended (groups : List TaskGroup) (name : String) (tasks : List Task)
    (groups' : List TaskGroup) : Prop :=
  ∃ g, groups' = groups ++ [g] ∧ g.name = trimmed name ∧ List.Forall₂ Task.AsGiven tasks g.tasks

/-- Something that is read as it is written: the name can be the name of a further group, no text goes
over the end of a line, and what is put between quotes has none. Nothing is escaped by the writer, so
these conditions are on what is given. -/
@[mk_iff]
structure Addable (name : String) (tasks : List Task) : Prop where
  heading : GroupName (trimmed name)
  further : trimmed name ≠ TaskGroup.general
  oneLine : ∀ t ∈ tasks, t.OneLine
  noQuotes : ∀ t ∈ tasks, codeQuote ∉ t.context.toList ∧ codeQuote ∉ t.verify.toList

instance (name : String) (tasks : List Task) : Decidable (Addable name tasks) :=
  decidable_of_iff' _ (addable_iff name tasks)

/-- A group of a name can be added to a text: under the heading of the tasks there is room for the
headings of a group and its tasks, and the text is a plan without a group of that name. Where there is
no such heading one is made, for which no fence may be open. -/
def Takes (text name : String) : Prop :=
  match taskSection? (Outline.ofText text.toList) with
  | some s => s.heading.level ≤ 5 ∧ ∃ p, parse text = .ok p ∧ trimmed name ∉ p.groups.map (·.name)
  | none => (Outline.ofText text.toList).openFence? = none

/-! A text has a section of tasks, and is read, or it has none, and gets one at its end. -/

theorem groupsBefore_eq_ok {text : String} {groups : List TaskGroup}
    (before : groupsBefore text = .ok groups) :
    (taskSection? (Outline.ofText text.toList) = none ∧ groups = [TaskGroup.new TaskGroup.general]) ∨
      ∃ s p, taskSection? (Outline.ofText text.toList) = some s ∧ parse text = .ok p ∧
        groups = p.groups := by
  rw [groupsBefore] at before
  split at before
  · exact .inl ⟨‹_›, (Except.ok.inj before).symm⟩
  · rename_i s hfound
    obtain ⟨p, hparse, rfl⟩ := Except.map_eq_ok_iff.mp before
    exact .inr ⟨s, p, hfound, hparse, rfl⟩

theorem writable_groupsBefore {text : String} {groups : List TaskGroup}
    (before : groupsBefore text = .ok groups) : Writable groups := by
  obtain ⟨-, rfl⟩ | ⟨s, p, -, hparse, rfl⟩ := groupsBefore_eq_ok before
  · exact ⟨rfl, by simp, by simp, by simp [TaskGroup.new, TaskGroup.writable_iff]⟩
  · exact parse_writable hparse

section NoSection

variable {text : String} (none : taskSection? (Outline.ofText text.toList) = none)
include none

theorem groupsBefore_of_none : groupsBefore text = .ok [TaskGroup.new TaskGroup.general] := by
  rw [groupsBefore, none]

theorem takes_of_none (name : String) :
    Takes text name ↔ (Outline.ofText text.toList).openFence? = .none := by
  rw [Takes, none]

theorem extend_of_none (name : String) (tasks : List Task) : extend text name tasks =
    .ok (String.ofList (insertAt text.toList (Outline.ofText text.toList).lines.length
      (tasksHeading ++ (newGroup name 1 tasks).render 3 true).toList)) := by
  simp only [extend, none]

end NoSection

section OldSection

variable {text : String} {s : Section} (found : taskSection? (Outline.ofText text.toList) = some s)
include found

theorem groupsBefore_of_some {p : Plan} (parsed : parse text = .ok p) :
    groupsBefore text = .ok p.groups := by
  rw [groupsBefore, found, parsed]
  rfl

theorem takes_of_some (name : String) : Takes text name ↔
    s.heading.level ≤ 5 ∧ ∃ p, parse text = .ok p ∧ trimmed name ∉ p.groups.map (·.name) := by
  rw [Takes, found]

theorem extend_of_some {name text' : String} {tasks : List Task} :
    extend text name tasks = .ok text' ↔ s.heading.level ≤ 5 ∧ ∃ p, parse text = .ok p ∧
      text' = String.ofList (insertAt text.toList s.stop
        ((newGroup name (p.maxTaskNumber + 1) tasks).render (s.heading.level + 1) true).toList) := by
  simp only [extend, found]
  split
  · simp only [reduceCtorEq, false_iff]
    omega
  · rw [Except.map_eq_ok_iff, and_iff_right (by omega)]

end OldSection

theorem exists_groupsBefore_of_extend {text name text' : String} {tasks : List Task}
    (extended : extend text name tasks = .ok text') : ∃ groups, groupsBefore text = .ok groups := by
  cases hfound : taskSection? (Outline.ofText text.toList) with
  | none => exact ⟨_, groupsBefore_of_none hfound⟩
  | some s =>
    obtain ⟨-, p, hparse, -⟩ := (extend_of_some hfound).mp extended
    exact ⟨_, groupsBefore_of_some hfound hparse⟩

theorem first_of_general : maxTaskNumber { groups := [TaskGroup.new TaskGroup.general] } + 1 = 1 := by
  decide

theorem exists_of_bind_parse {text : Except ParseError String} {q : Plan}
    (h : text.bind parse = .ok q) : ∃ text', parse text' = .ok q :=
  (Except.bind_eq_ok_iff.mp h).imp fun _ => And.right

section Extend

variable {text name : String} {tasks : List Task} {groups : List TaskGroup} {g : TaskGroup}
  (before : groupsBefore text = .ok groups)
  (new : g = newGroup name (maxTaskNumber { groups } + 1) tasks) (h : g.Writable)
  (heading : GroupName g.name) (loud : g.name ≠ TaskGroup.general)
include before new h heading loud

/-- A text that takes a group is extended to a plan with the old groups and the new one. Of the new
group it only needs that it can be written. -/
theorem extend_of_takes (takes : Takes text name) : ∃ text' line, extend text name tasks = .ok text' ∧
    parse text' = .ok (ofGroups text' (groups ++ [g.reread line])) := by
  obtain ⟨hnone, rfl⟩ | ⟨s, p, hfound, hparse, rfl⟩ := groupsBefore_eq_ok before
  · rw [takes_of_none hnone] at takes
    rw [first_of_general] at new
    obtain ⟨line, hextended⟩ := parse_insertAt_end h heading loud rfl hnone takes
    exact ⟨_, line, new ▸ extend_of_none hnone name tasks, hextended⟩
  · obtain ⟨hlevel, p', hparse', hfree⟩ := (takes_of_some hfound name).mp takes
    obtain rfl : p = p' := Except.ok.inj (hparse.symm.trans hparse')
    have hnew : g = newGroup name (p.maxTaskNumber + 1) tasks := new
    have hname : g.name = trimmed name := by rw [new]; rfl
    obtain ⟨line, e, hextended⟩ :=
      parse_insertAt_section hparse hfound (by omega) h heading loud rfl
    rw [hname, if_neg hfree] at hextended
    exact ⟨_, line, (extend_of_some hfound).mpr ⟨hlevel, p, hparse, by rw [hnew]⟩, hextended⟩

/-- Only a text that takes a group is extended to a plan. Together with `extend_of_takes` this leaves no
case open. -/
theorem takes_of_extend {q : Plan} (extended : (extend text name tasks).bind parse = .ok q) :
    Takes text name := by
  obtain ⟨text', hextend, hread⟩ := Except.bind_eq_ok_iff.mp extended
  obtain ⟨hnone, rfl⟩ | ⟨s, p, hfound, hparse, rfl⟩ := groupsBefore_eq_ok before
  · rw [extend_of_none hnone] at hextend
    rw [first_of_general] at new
    obtain ⟨-, -, hclosed, -, -, -⟩ := parse_eq_ok_iff.mp hread
    exact (takes_of_none hnone name).mpr ((closed_insertAt_end h heading loud
      (new ▸ (Except.ok.inj hextend).symm)).mp hclosed)
  · obtain ⟨hlevel, p', hparse', htext⟩ := (extend_of_some hfound).mp hextend
    obtain rfl : p = p' := Except.ok.inj (hparse.symm.trans hparse')
    have hnew : g = newGroup name (p.maxTaskNumber + 1) tasks := new
    have hname : g.name = trimmed name := by rw [new]; rfl
    obtain ⟨line, e, hextended⟩ :=
      parse_insertAt_section hparse hfound (by omega) h heading loud (hnew ▸ htext)
    refine (takes_of_some hfound name).mpr ⟨hlevel, p, hparse, fun htaken => ?_⟩
    -- the second group of the name would not be read
    rw [hread, hname, if_pos htaken] at hextended
    cases hextended

end Extend

/-- A text that has been added to is a plan with the old groups and, if a reader takes its lines for
one, the new group. -/
theorem groups_of_extend {text name : String} {tasks : List Task} {q : Plan}
    (extended : (extend text name tasks).bind parse = .ok q) : ∃ groups, groupsBefore text = .ok groups ∧
      ∀ g, g = newGroup name (maxTaskNumber { groups } + 1) tasks → g.Writable → GroupName g.name →
        g.name ≠ TaskGroup.general → ∃ line, q.groups = groups ++ [g.reread line] := by
  obtain ⟨text', hextend, hread⟩ := Except.bind_eq_ok_iff.mp extended
  obtain ⟨groups, hbefore⟩ := exists_groupsBefore_of_extend hextend
  refine ⟨groups, hbefore, fun g new h heading loud => ?_⟩
  have htakes := takes_of_extend hbefore new h heading loud extended
  obtain ⟨text'', line, hextend', hparse⟩ := extend_of_takes hbefore new h heading loud htakes
  obtain rfl : text' = text'' := Except.ok.inj (hextend.symm.trans hextend')
  obtain rfl := Except.ok.inj (hparse.symm.trans hread)
  exact ⟨line, rfl⟩

theorem oneLine_of_asGiven {tasks ts : List Task} (given : List.Forall₂ Task.AsGiven tasks ts)
    (written : ∀ t ∈ ts, t.Writable) : ∀ t ∈ tasks, t.OneLine := by
  induction given with
  | nil => exact nofun
  | @cons t t' tasks ts same _ ih =>
    obtain ⟨ht, hts⟩ := List.forall_mem_cons.mp written
    refine List.forall_mem_cons.mpr ⟨⟨?_, ?_, ?_, fun s hs => ?_⟩, ih hts⟩
    · exact same.name ▸ ht.name.oneLine
    · exact same.context ▸ ht.context.oneLine
    · exact same.verify ▸ ht.verify.oneLine
    · exact (ht.steps s (same.steps ▸ hs)).1.oneLine

/-- Only what a reader takes for a further group and its tasks can be found behind the groups, for
everything in a plan that has been read can be written. This is the direction in which a group that was
not read as it was given is shown not to be there. -/
theorem Appended.placed {groups groups' : List TaskGroup} {name : String} {tasks : List Task}
    (appended : Appended groups name tasks groups') (before : Writable groups)
    (after : Writable groups') : GroupName (trimmed name) ∧ trimmed name ≠ TaskGroup.general ∧
      ∀ t ∈ tasks, t.OneLine := by
  obtain ⟨g, rfl, hname, hgiven⟩ := appended
  obtain ⟨general, gs, rfl, hgeneral, -⟩ := before.exists_cons
  refine ⟨hname ▸ after.others g (by simp), fun hsame => ?_,
    oneLine_of_asGiven hgiven (after.groups g (by simp)).tasks⟩
  have hnames := after.names
  rw [List.cons_append, List.map_cons, List.nodup_cons] at hnames
  exact hnames.1 (List.mem_map.mpr ⟨g, by simp, by rw [hname, hsame, hgeneral]⟩)

/-- A group is added to a file that has been read when the extended text is a plan and is written. -/
theorem addGroup_eq_ok_iff {t t' : Files.Tree} {path text name : String} {tasks : List Task} {q : Plan}
    (read : readFile t path = .ok text) : addGroup t path name tasks = .ok (t', q) ↔
      ∃ p, (extend text name tasks).bind parse = .ok p ∧ t.writeText path p.text = .ok t' ∧
        q = { p with path := some path } := by
  have hbind : ∀ f : String → Except PlanError (Files.Tree × Plan), (Except.ok text).bind f = f text :=
    fun _ => rfl
  rw [addGroup, read, hbind]
  constructor
  · intro added
    split at added
    · cases added
    · rename_i p hextended
      split at added
      · cases added
      · rename_i hwritten
        cases added
        exact ⟨p, hextended, hwritten, rfl⟩
  · rintro ⟨p, hextended, hwritten, rfl⟩
    rw [hextended]
    simp only [hwritten]

theorem addGroup_eq_ok {t t' : Files.Tree} {path name : String} {tasks : List Task} {q : Plan}
    (added : addGroup t path name tasks = .ok (t', q)) : ∃ text p, readFile t path = .ok text ∧
      (extend text name tasks).bind parse = .ok p ∧ q = { p with path := some path } := by
  obtain ⟨text, hread, -⟩ := Except.bind_eq_ok_iff.mp added
  obtain ⟨p, hextended, -, hplan⟩ := (addGroup_eq_ok_iff hread).mp added
  exact ⟨text, p, hread, hextended, hplan⟩

/-- If a group has been added to a plan, it stands behind the groups as it was given exactly when all of
it is read as it is written. What the caller is told of the new plan is what is read from the file. -/
theorem addGroup_appends {t t' : Files.Tree} {path name : String} {tasks : List Task} {q : Plan}
    (added : addGroup t path name tasks = .ok (t', q))
    (described : ∀ task ∈ tasks, ∃ line, Task.ofSpec line = .ok task) :
    ∃ text groups, readFile t path = .ok text ∧ groupsBefore text = .ok groups ∧
      (maxTaskNumber { groups } + tasks.length < Task.numberBound →
        (Appended groups name tasks q.groups ↔ Addable name tasks)) := by
  obtain ⟨text, p, hread, hextended, rfl⟩ := addGroup_eq_ok added
  obtain ⟨groups, hbefore, hgroups⟩ := groups_of_extend hextended
  obtain ⟨text', hparse⟩ := exists_of_bind_parse hextended
  have htrimmed : ∀ task ∈ tasks, task.Trimmed := fun task htask => by
    obtain ⟨line, hline⟩ := described task htask
    exact Task.trimmed_of_ofSpec hline
  refine ⟨text, groups, hread, hbefore, fun bound => ?_⟩
  have hplaced : GroupName (trimmed name) → trimmed name ≠ TaskGroup.general →
      (∀ task ∈ tasks, task.OneLine) → ∃ line, p.groups = groups ++
        [(newGroup name (maxTaskNumber { groups } + 1) tasks).reread line] :=
    fun heading further oneLine => hgroups _ rfl (writable_newGroup htrimmed oneLine (by omega))
      heading further
  have hgiven : ∀ line, (∀ task ∈ tasks, task.OneLine) → (List.Forall₂ Task.AsGiven tasks
      ((newGroup name (maxTaskNumber { groups } + 1) tasks).reread line).tasks ↔
        ∀ task ∈ tasks, codeQuote ∉ task.context.toList ∧ codeQuote ∉ task.verify.toList) :=
    fun line oneLine => asGiven_rereadFrom htrimmed oneLine _ line
  constructor
  · -- what is there has been read, so the lines were sound, and it is the group they were written for
    intro happended
    have hafter : Writable p.groups := parse_writable hparse
    obtain ⟨heading, further, oneLine⟩ := happended.placed (writable_groupsBefore hbefore) hafter
    obtain ⟨line, hline⟩ := hplaced heading further oneLine
    obtain ⟨g, hg, -, hsame⟩ := happended
    have hgroup : g = (newGroup name (maxTaskNumber { groups } + 1) tasks).reread line := by
      simpa using hg.symm.trans hline
    rw [hgroup] at hsame
    exact ⟨heading, further, oneLine, (hgiven line oneLine).mp hsame⟩
  · intro h
    obtain ⟨line, hline⟩ := hplaced h.heading h.further h.oneLine
    exact ⟨_, hline, rfl, (hgiven line h.oneLine).mpr h.noQuotes⟩

/-- A directory with one plan, whose last line has no end. -/
def shortTree : Files.Tree :=
  { nodes := [(["plan.md"], .file (.text "## Tasks\n### Task 1: One\n**Verify:** true"))] }

def shortGroups : List TaskGroup :=
  [{ TaskGroup.new "General" with tasks := [{ Task.new 1 "One" with verify := "true" }] }]

theorem groupsBefore_short {text : String} {groups : List TaskGroup}
    (read : readFile shortTree "plan.md" = .ok text) (before : groupsBefore text = .ok groups) :
    groups = shortGroups := by
  obtain rfl : "## Tasks\n### Task 1: One\n**Verify:** true" = text := Except.ok.inj read
  have hgroups : (groupsBefore "## Tasks\n### Task 1: One\n**Verify:** true").toOption =
      some shortGroups := by decide +kernel
  rw [before] at hgroups
  exact Option.some.inj hgroups

/-- A task whose command is kept, as nothing in it has a quote. -/
def apiTask : Task :=
  { Task.new 0 "Api" with context := "src", verify := "make test", steps := ["make"] }

/-- A task whose command is cut at its first quote when it is read again. -/
def clockTask : Task := { Task.new 0 "Clock" with verify := "test \x60date\x60" }

theorem exists_added {t : Files.Tree} {path name : String} {tasks : List Task}
    {groups : List TaskGroup}
    (h : (addGroup t path name tasks).toOption.map (·.2.groups) = some groups) :
    ∃ t' q, addGroup t path name tasks = .ok (t', q) ∧ q.groups = groups := by
  cases hadd : addGroup t path name tasks with
  | error e =>
    rw [hadd] at h
    cases h
  | ok r =>
    rw [hadd] at h
    exact ⟨r.1, r.2, rfl, Option.some.inj h⟩

theorem groups_added_api :
    (addGroup shortTree "plan.md" " Backend " [apiTask]).toOption.map (·.2.groups) =
      some (shortGroups ++ [{ TaskGroup.new "Backend" with
        tasks := [{ apiTask with id := "task-2", number := 2, stepLines := [12] }] }]) := by
  decide +kernel

theorem addGroup_appends_api : ∃ t' q, addGroup shortTree "plan.md" " Backend " [apiTask] = .ok (t', q) ∧
    Task.ofSpec "Api | src | make test | make ;" = .ok apiTask ∧
    maxTaskNumber { groups := shortGroups } + 1 < Task.numberBound ∧
    Appended shortGroups " Backend " [apiTask] q.groups := by
  obtain ⟨t', q, hadded, -⟩ := exists_added groups_added_api
  have hspec : Task.ofSpec "Api | src | make test | make ;" = .ok apiTask := by decide +kernel
  obtain ⟨text, groups, hread, hbefore, happended⟩ := addGroup_appends hadded
    fun task htask => ⟨_, List.mem_singleton.mp htask ▸ hspec⟩
  obtain rfl := groupsBefore_short hread hbefore
  exact ⟨t', q, hadded, hspec, by decide, (happended (by decide)).mpr (by decide)⟩

theorem addGroup_cuts_clock : ∃ t' q, addGroup shortTree "plan.md" "Backend" [clockTask] = .ok (t', q) ∧
    Task.ofSpec "Clock||test \x60date\x60" = .ok clockTask ∧
    maxTaskNumber { groups := shortGroups } + 1 < Task.numberBound ∧
    ¬ Appended shortGroups "Backend" [clockTask] q.groups := by
  have hrun : (addGroup shortTree "plan.md" "Backend" [clockTask]).toOption.map (·.2.groups) =
      some (shortGroups ++ [{ TaskGroup.new "Backend" with
        tasks := [{ Task.new 2 "Clock" with verify := "test" }] }]) := by
    decide +kernel
  obtain ⟨t', q, hadded, hgroups⟩ := exists_added hrun
  refine ⟨t', q, hadded, by decide +kernel, by decide, ?_⟩
  rintro ⟨g, hq, -, hgiven⟩
  rw [hgroups, List.append_cancel_left_eq, List.singleton_inj] at hq
  rw [← hq] at hgiven
  cases hgiven with
  | cons same _ => exact absurd same.verify (by decide)

end Plan

end Runbook
