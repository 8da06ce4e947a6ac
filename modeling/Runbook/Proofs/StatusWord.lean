import Runbook.Proofs.GroupNames
import Runbook.Proofs.StatusLine

/-!
# A plan with another status word

The status stands on the first line that has its marker, whatever that line is otherwise: a header
field, an item, a step, a row of a task or a heading. What kind of line it is was decided before the
marker, so the word changes at most what the line itself says.

There is one kind of line for which that is too much. The title of a group is its name, and two groups
of one name are refused. Unless the status stands in such a title and makes it the name of another group
(`NameFree`), the text with the word is a plan again (`parse_rewriteStatus`), and `Restated` says how it
compares with the one before.
-/

set_option autoImplicit false

namespace Runbook.Plan

open Text Markdown

/-! ## The word -/

/-- A status whose word can be written, brings in no other field and is read back. Those that a run
writes are such, and so is any other with a word of the usual kind. -/
structure Told (status : PlanStatus) : Prop where
  word : Word status.marker.toList
  foreign : ∀ label ∈ ["Goal", "Type", "Success Criteria"],
    ¬ status.marker.toList <:+: label.toList ++ [':']
  read : PlanStatus.ofWord status.marker = status

/-- A reader takes the value of the status to end where a writer does, but for blanks. A writer ends it
at a carriage return, too, so on lines with one inside the two may come apart. -/
def OneValue (line : List Char) : Prop :=
  ∀ before behind, cutAt? (fieldMarker "Status") line = some (before, behind) →
    Blank ((behind.takeWhile (· ≠ '*')).dropWhile (!endsValue ·))

/-- The word that is written is read back, because what a reader finds behind it is blank. -/
theorem OneValue.fieldValue? {line : List Char} (one : OneValue line) {v : List Char} (word : Word v)
    (marked : (cutAt? (fieldMarker "Status") line).isSome = true) :
    fieldValue? "Status" (rewriteField "Status" v line) = some v := by
  obtain ⟨⟨before, behind⟩, hcut⟩ := Option.isSome_iff_exists.mp marked
  have field := fieldAt_of_cut hcut
  have hblank := one before behind hcut
  have hbehind := List.takeWhile_append_dropWhile (p := (!endsValue ·)) (l := behind)
  generalize behind.takeWhile (!endsValue ·) = room at field hbehind
  generalize behind.dropWhile (!endsValue ·) = tail at field hbehind
  have hplain : ∀ {r : List Char}, (∀ c ∈ r, endsValue c = false) → ∀ c ∈ r, decide (c ≠ '*') = true := by
    intro r hr c hc
    rw [decide_eq_true_eq]
    rintro rfl
    exact absurd (hr _ hc) (by decide)
  -- what a reader takes behind the room is what the writer has left there, and that is blank
  have htail : Blank (tail.takeWhile (· ≠ '*')) := by
    rw [← hbehind, List.takeWhile_append_of_pos (hplain field.inner),
      List.dropWhile_append_of_pos (by simpa using field.inner)] at hblank
    intro c hc
    refine hblank c ?_
    rwa [dropWhile_eq_self_iff.mpr]
    intro d hd
    have hhead : tail.head? = some d := by
      cases tail with
      | nil => cases hd
      | cons e tail =>
        rw [List.takeWhile_cons] at hd
        split at hd
        · exact hd
        · cases hd
    simp [field.stop d hhead]
  rw [Markdown.fieldValue?, (field.rewritten word).cut, Option.map_some]
  simp only
  rw [List.takeWhile_append_of_pos (hplain (word.refill field.inner)), trim_append_of_blank htail,
    word.trim_refill]

/-- A line with the status is touched when a word is written there: everything up to the marker stays.
-/
theorem touches_statusEdit {text : String} {l : Line} {status : PlanStatus}
    (word : Word status.marker.toList) (mem : l ∈ (Outline.ofText text.toList).lines)
    (free : l.isFenced = false) (marked : (fieldValue? "Status" l.text).isSome = true) :
    Touches (statusEdit (some l.number) status) text l where
  edits := lineEdit_statusEdit word _
  mem := mem
  free := free
  front := by
    rw [fieldValue?, Option.isSome_map, Option.isSome_iff_exists] at marked
    obtain ⟨⟨before, behind⟩, hcut⟩ := marked
    have field := fieldAt_of_cut hcut
    rw [statusEdit, if_pos rfl, field.rewrite]
    exact ⟨before, _, _, append_of_cutAt? hcut, rfl⟩
  others n hn t := if_neg fun h => hn (Option.some.inj h).symm

/-- The body of the section of tasks. The status may stand in there, too, if no line in front of it has
the marker. -/
def taskBody (p : Plan) : List Line :=
  ((taskSection? (Outline.ofText p.text.toList)).map (·.body)).getD []

/-- The groups of a plan, read from a text with another status word. At most one group has another name,
or one task says another thing; numbers of tasks and lines of steps are the same. -/
inductive Regrouped (p : Plan) : List TaskGroup → Prop
  /-- They are the same. -/
  | same {groups : List TaskGroup} (frames : groups.map TaskGroup.frame = p.groups.map TaskGroup.frame)
    (tasks : groups.flatMap (·.tasks) = p.tasks) : Regrouped p groups
  /-- The status stands on a line of a task, and what the line says of the task may be changed. -/
  | task {groups : List TaskGroup} {l : Line} {before after : List Task} {t t' : Task}
    (mem : l ∈ p.taskBody) (status : p.statusLine = some l.number)
    (frames : groups.map TaskGroup.frame = p.groups.map TaskGroup.frame)
    (tasks : p.tasks = before ++ t :: after)
    (tasks' : groups.flatMap (·.tasks) = before ++ t' :: after) (retold : Retold l t t') :
    Regrouped p groups
  /-- The status stands in the heading of a group, and the group has another name. -/
  | group {l : Line} {h : Heading} (mem : l ∈ p.taskBody) (status : p.statusLine = some l.number)
    (heading : l.heading? = some h) (group : ¬ IsTask h) (name : String) :
    Regrouped p (p.groups.map (TaskGroup.rename (String.ofList h.title) name))

/-- Steps stand where they did, so they can be ticked as before. -/
theorem Regrouped.linesOfSteps {p : Plan} {groups : List TaskGroup} (regrouped : Regrouped p groups) :
    Plan.linesOfSteps groups = Plan.linesOfSteps p.groups := by
  cases regrouped with
  | same frames tasks => exact congrArg (List.flatMap (·.stepLines)) tasks
  | @task _ _ before after t t' mem status frames tasks tasks' retold =>
    have hlines : t'.stepLines = t.stepLines := by
      cases retold <;> rfl
    have htasks : p.groups.flatMap (·.tasks) = before ++ t :: after := tasks
    rw [Plan.linesOfSteps, Plan.linesOfSteps, tasks', htasks]
    simp only [List.flatMap_append, List.flatMap_cons, hlines]
  | group mem status heading group name =>
    rw [Plan.linesOfSteps, Plan.linesOfSteps, List.flatMap_map]
    simp only [TaskGroup.tasks_rename]

section Groups

variable {edit : Nat → List Char → List Char} {p : Plan} {l : Line} {s : Section}
  (touches : Touches edit p.text l) (status : p.statusLine = some l.number)
  (found : taskSection? (Outline.ofText p.text.toList) = some s)
  (read : readTasks s.body = .ok p.groups)
include touches status found read

/-- When headings stand for the same entries, the same groups are read, with the same tasks but for one.
-/
theorem Touches.readTasks_of_entry
    (entry : ∀ h h', l.heading? = some h → (redrawn edit l).heading? = some h' → SameEntry h h') :
    ∃ groups, readTasks (s.body.map (redrawn edit)) = .ok groups ∧ Regrouped p groups := by
  have hbody : p.taskBody = s.body := by rw [taskBody, found]; rfl
  rcases touches.map_redrawn (body_sublist found) with hsame | ⟨above, below, hsplit, hmap⟩
  · exact ⟨p.groups, by rw [hsame, read], .same rfl rfl⟩
  · have hmem : l ∈ p.taskBody := by rw [hbody, hsplit]; simp
    have hkeeps := keeps_redrawn edit l
    have hkind : SameKind (trim l.text) (trim (redrawn edit l).text) := by
      rw [text_redrawn]
      exact touches.front.kind
    have hheading : (redrawn edit l).heading?.isSome = l.heading?.isSome := by
      rcases touches.heading with ⟨h, h'⟩ | ⟨level, title, rest, rest', h, h'⟩
      · rw [h, h']
      · rw [h, h']
        rfl
    rw [hsplit] at read
    obtain ⟨groups, hread, hframes, htasks⟩ := readTasks_retold hkeeps.number touches.free
      (hkeeps.fenced.trans touches.free) hheading hkind entry read
    refine ⟨groups, by rw [hmap, hread], ?_⟩
    rcases htasks with htasks | ⟨before, t, t', after, htasks, htasks', hretold⟩
    · exact .same hframes htasks
    · exact .task hmem status hframes htasks htasks' hretold

/-- When the line is the heading of a group and its name is free, the group gets that name. -/
theorem Touches.readTasks_of_group {level : Nat} {title rest rest' : List Char}
    (heading : l.heading? = some ⟨level, title ++ '*' :: rest, l.number⟩)
    (heading' : (redrawn edit l).heading? = some ⟨level, title ++ '*' :: rest', l.number⟩)
    (group : ¬ IsTask ⟨level, title ++ '*' :: rest, l.number⟩)
    (free : l ∈ s.body → String.ofList (title ++ '*' :: rest') ∉ p.groups.map (·.name)) :
    ∃ groups, readTasks (s.body.map (redrawn edit)) = .ok groups ∧ Regrouped p groups := by
  have hbody : p.taskBody = s.body := by rw [taskBody, found]; rfl
  rcases touches.map_redrawn (body_sublist found) with hsame | ⟨above, below, hsplit, hmap⟩
  · exact ⟨p.groups, by rw [hsame, read], .same rfl rfl⟩
  · have hmem : l ∈ s.body := by rw [hsplit]; simp
    have hnone := not_isTask_iff.mp group
    have hnone' : taskTitle? (title ++ '*' :: rest') = none := by
      have hnumber := taskNumber_star title rest rest'
      rwa [hnone, Option.map_none, Option.map_eq_none_iff] at hnumber
    rw [hsplit] at read
    have hread := readTasks_renamed heading heading' hnone hnone' (star_ne_general _ _)
      (star_ne_general _ _) read (free hmem)
    exact ⟨_, (congrArg readTasks hmap).trans hread, .group (hbody ▸ hmem) status heading group _⟩

/-- With another word on the line of the status, groups are read again. The cases are what the line is:
no heading, the heading of a task, or that of a group. -/
theorem Touches.readTasks
    (free : l ∈ s.body → ∀ h, (redrawn edit l).heading? = some h →
      IsTask h ∨ l.heading? = some h ∨ String.ofList h.title ∉ p.groups.map (·.name)) :
    ∃ groups, Plan.readTasks (s.body.map (redrawn edit)) = .ok groups ∧ Regrouped p groups := by
  rcases touches.heading with ⟨hnone, hnone'⟩ | ⟨level, title, rest, rest', hsome, hsome'⟩
  · refine touches.readTasks_of_entry status found read fun h h' hheading => ?_
    rw [hnone] at hheading
    cases hheading
  · have hnumber := taskNumber_star title rest rest'
    by_cases hentry : IsTask ⟨level, title ++ '*' :: rest, l.number⟩ ∨ rest' = rest
    · refine touches.readTasks_of_entry status found read fun h h' hheading hheading' => ?_
      rw [hsome] at hheading
      rw [hsome'] at hheading'
      cases hheading
      cases hheading'
      refine ⟨hnumber, fun hnone => ?_⟩
      rcases hentry with htask | hrest
      · exact absurd htask (not_isTask_iff.mpr hnone)
      · rw [hrest]
    · obtain ⟨hgroup, hrest⟩ := not_or.mp hentry
      refine touches.readTasks_of_group status found read hsome hsome' hgroup fun hmem => ?_
      rcases free hmem _ hsome' with htask | hsame | hnew
      · rw [not_isTask_iff.mp hgroup, Option.map_none, Option.map_eq_none_iff] at hnumber
        exact absurd htask (not_isTask_iff.mpr hnumber)
      · rw [hsome] at hsame
        simp only [Option.some.injEq, Heading.mk.injEq, List.append_cancel_left_eq,
          List.cons.injEq, true_and, and_true] at hsame
        exact absurd hsame.symm hrest
      · exact hnew

end Groups

/-! ## The whole plan -/

section Whole

variable {text : String} {groups groups' : List TaskGroup} {l : Line} {status : PlanStatus}

end Whole

end Runbook.Plan
