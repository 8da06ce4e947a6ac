import Mathlib.Data.List.Basic
import Mathlib.Tactic.MkIffOfInductiveProp
import Runbook.Plan.Printer
import Runbook.Proofs.Boxes
import Runbook.Proofs.CodeQuotes
import Runbook.Proofs.Lines

/-!
# The lines that are written

A group is written line by line (`TaskGroup.toList_render`): a heading for the group, one for each
task, and under it the rows of the task. Whatever can be written at all (`TaskGroup.Writable`) comes
out in lines that are read as they are written, that are no fences, and whose headings have the level
that was asked for (`TaskGroup.written_lines`).
-/

set_option autoImplicit false

namespace Runbook

open Text Markdown Plan

/-! ## Lines of every kind -/

namespace Markdown

/-- One character settles whether a line is a fence: it is none when it begins with neither a blank nor
a quote. Most of the lines that are written are dealt with by this. -/
theorem isFence_of_head {c : Char} (hblank : isBlank c = false) (hquote : c ≠ codeQuote)
    (cs : List Char) : isFence (c :: cs) = false := by
  rw [isFence, trimStart_of_head hblank, fenceMarker, List.isPrefixOf_cons_cons]
  simpa using fun h => absurd h.symm hquote

/-- In the same way a line that does not begin with a number sign is no heading. -/
theorem parseHeading?_of_head {c : Char} (h : c ≠ '#') (cs : List Char) :
    parseHeading? (c :: cs) = none := by
  rw [parseHeading?, List.takeWhile_cons_of_neg (by simpa using h)]
  exact if_neg (by simp)

theorem isFence_nil : isFence [] = false := by decide

theorem parseHeading?_nil : parseHeading? [] = none := by decide

theorem isFence_of_blank {l : List Char} (h : Blank l) : isFence l = false := by
  rw [isFence, trimStart_eq_nil_iff.mpr h]
  rfl

theorem parseHeading?_of_blank {l : List Char} (h : Blank l) : parseHeading? l = none := by
  cases l with
  | nil => exact parseHeading?_nil
  | cons c cs =>
    refine parseHeading?_of_head ?_ cs
    rintro rfl
    exact absurd h (not_blank_of_mem List.mem_cons_self (by decide))

/-- A title without blanks around it is read from a heading. It must not be empty, because a number sign
with nothing behind it is prose. -/
theorem parseHeading?_heading {level : Nat} {title : List Char} (low : 1 ≤ level) (high : level ≤ 6)
    (tidy : trim title = title) (some : title ≠ []) :
    parseHeading? (List.replicate level '#' ++ ' ' :: title) = .some (level, title) := by
  have hmarks : ∀ c ∈ List.replicate level '#', (c == '#') = true := by
    intro c hc
    rw [List.eq_of_mem_replicate hc]
    rfl
  have hstop : ∀ c, (' ' :: title).head? = .some c → (c == '#') = false := by
    intro c hc
    rw [← Option.some.inj hc]
    decide
  have htrim : trim (' ' :: title) = title := (trim_space title).trans tidy
  rw [parseHeading?, takeWhile_append_stop hmarks hstop, dropWhile_append_stop hmarks hstop]
  simp only [List.length_replicate, htrim]
  exact if_pos ⟨low, high, by simp; decide, some⟩

end Markdown

/-- A line that is read as it is written, is no fence, and is of a given level if it is a heading. The
level matters where a group is added to a plan: a heading that is not below that of the tasks would end
their section. -/
structure Written (level : Nat) (l : List Char) : Prop extends Unbroken l where
  noFence : isFence l = false
  level : ∀ k title, parseHeading? l = some (k, title) → k = level

/-- A line under a heading: it is read as it is written, and has no part in the outline. All the lines
of a task but its heading are of this kind, whatever the task says, as long as it can be written. -/
structure RowLine (l : List Char) : Prop extends Unbroken l where
  noFence : isFence l = false
  noHeading : parseHeading? l = none

theorem RowLine.written {l : List Char} (h : RowLine l) (level : Nat) : Written level l where
  toUnbroken := h.toUnbroken
  noFence := h.noFence
  level k title hk := by
    rw [h.noHeading] at hk
    cases hk

theorem RowLine.nil : RowLine [] where
  noFeed := by simp
  noReturn := by simp
  noFence := isFence_nil
  noHeading := parseHeading?_nil

/-- The three ways to have a part in the outline are told by the first character of a line, and a line
that begins otherwise takes none of them. -/
theorem RowLine.of_head {l : List Char} {c : Char} (head : l.head? = some c)
    (hblank : isBlank c = false) (hquote : c ≠ codeQuote) (hhash : c ≠ '#')
    (unbroken : Unbroken l) : RowLine l := by
  obtain ⟨cs, rfl⟩ := List.head?_eq_some_iff.mp head
  exact ⟨unbroken, isFence_of_head hblank hquote cs, parseHeading?_of_head hhash cs⟩

/-- A line is read as it is written when it holds no line feed and does not end in a carriage return;
its last character decides the second. -/
theorem unbroken_concat {l : List Char} {c : Char} (noFeed : '\n' ∉ l) (hfeed : c ≠ '\n')
    (hreturn : c ≠ '\r') : Unbroken (l ++ [c]) where
  noFeed h := by
    rcases List.mem_append.mp h with h | h
    · exact noFeed h
    · exact hfeed (List.mem_singleton.mp h).symm
  noReturn h := by
    rw [List.getLast?_concat] at h
    exact hreturn (Option.some.inj h)

/-! ## What can be written -/

/-- A text that fits on a line, without blanks around it. This is what a reader makes of whatever it
reads, and it is what a writer needs: a line feed would end the line too early, and blanks at an end
would be cut off by the next reader. -/
@[mk_iff]
structure Tidy (s : String) : Prop where
  oneLine : '\n' ∉ s.toList
  trimmed : trim s.toList = s.toList

instance (s : String) : Decidable (Tidy s) := decidable_of_iff' _ (tidy_iff s)

/-- A tidy text at the end of a line keeps it from ending in a carriage return, which counts as a blank.
The text must not be empty, or the line ends in what stands before it. -/
theorem Tidy.unbroken_append {s : String} (tidy : Tidy s) (some : s ≠ "") {front : List Char}
    (noFeed : '\n' ∉ front) : Unbroken (front ++ s.toList) where
  noFeed h := (List.mem_append.mp h).elim noFeed tidy.oneLine
  noReturn h := by
    have hnil : s.toList ≠ [] := by simpa [String.toList_eq_nil_iff] using some
    rw [List.getLast?_append_of_ne_nil _ hnil] at h
    exact absurd ((trim_eq_self_iff.mp tidy.trimmed).2 _ h) (by decide)

/-- The same when the text may be empty, given that what stands before it does not end in a carriage
return. -/
theorem Tidy.unbroken {s : String} (tidy : Tidy s) {front : List Char} (noFeed : '\n' ∉ front)
    (noReturn : front.getLast? ≠ some '\r') : Unbroken (front ++ s.toList) := by
  by_cases h : s = ""
  · subst h
    simpa using Unbroken.mk noFeed noReturn
  · exact tidy.unbroken_append h noFeed

/-- A task that comes back when it is written: its name and number fill a heading, and each of its texts
fits on a line. Its status and error are of no account, for they are not written. -/
@[mk_iff]
structure Task.Writable (t : Task) : Prop where
  id : t.id = Task.idOf t.number
  bound : t.number < Task.numberBound
  name : Tidy t.name
  named : t.name ≠ ""
  steps : ∀ s ∈ t.steps, Tidy s ∧ s ≠ ""
  context : Tidy t.context
  verify : Tidy t.verify

instance (t : Task) : Decidable t.Writable := decidable_of_iff' _ (Task.writable_iff t)

/-- A name that a heading can give to a group, as no task is called so. A heading like `Task 1: x` would
be read as a task, and the group would be lost. -/
@[mk_iff]
structure GroupName (name : String) : Prop where
  tidy : Tidy name
  named : name ≠ ""
  other : taskTitle? name.toList = none

instance (name : String) : Decidable (GroupName name) := decidable_of_iff' _ (groupName_iff name)

/-- Tasks that can be written, no two of them alike for a reader. A reader refuses a number that comes
twice in a group, so without the second condition the text would not be a plan. -/
@[mk_iff]
structure TaskGroup.Writable (g : TaskGroup) : Prop where
  tasks : ∀ t ∈ g.tasks, t.Writable
  ids : (g.tasks.map (·.id)).Nodup

instance (g : TaskGroup) : Decidable g.Writable := decidable_of_iff' _ (TaskGroup.writable_iff g)

/-! ## The lines of a task -/

def Task.title (t : Task) : List Char :=
  ("Task " ++ toString t.number ++ ": " ++ t.name).toList

theorem Task.title_eq (t : Task) :
    t.title = "Task ".toList ++ (toString t.number).toList ++ ':' :: ' ' :: t.name.toList := by
  simp [title]

theorem Task.title_ne_nil (t : Task) : t.title ≠ [] := by
  simp [title_eq]

/-- A heading as it is written: the number signs, one space, the title. -/
def headingLine (level : Nat) (title : List Char) : List Char :=
  List.replicate level '#' ++ ' ' :: title

/-- The row of the context with an empty one behind it, or none at all when there is no context. -/
def contextRows (context : String) : List (List Char) :=
  if context = "" then [] else [fieldMarker "Context" ++ inQuotes context.toList, []]

def itemRow (step : String) (i : Nat) : List Char :=
  (toString (i + 1)).toList ++ ". [ ] ".toList ++ step.toList

/-- The label of the steps and the numbered items, each with an empty box. The writer numbers them anew
from one, whatever numbers they were read with. -/
def stepRows (steps : List String) : List (List Char) :=
  if steps = [] then []
  else fieldMarker "Steps" :: [] :: (steps.zipIdx.map fun (step, i) => itemRow step i) ++ [[]]

/-- The row of the verify command, left out when the command is blank. -/
def verifyRows (verify : String) : List (List Char) :=
  if isBlankText verify then [] else [fieldMarker "Verify" ++ inQuotes verify.toList, []]

/-- What stands under the heading of a task. -/
def Task.rows (t : Task) : List (List Char) :=
  [] :: contextRows t.context ++ stepRows t.steps ++ verifyRows t.verify ++ ["---".toList, []]

def Task.lines (level : Nat) (t : Task) : List (List Char) := headingLine level t.title :: t.rows

/-- The lines of a group; the first group of all has no heading. -/
def TaskGroup.lines (level : Nat) (withHeading : Bool) (g : TaskGroup) : List (List Char) :=
  (if withHeading then [headingLine level g.name.toList, []] else [])
    ++ g.tasks.flatMap (Task.lines level)

/-! ## Writing is ending lines -/

/-- The printer joins strings where the proofs speak of lines. From here on a text that is written is a
list of lines, each of them ended. -/
theorem toList_unlines (ls : List String) :
    (unlines ls).toList = endLines (ls.map String.toList) := by
  rw [unlines, String.toList_join, List.flatMap_map, endLines, List.flatMap_map]
  simp

theorem toList_headingMark (level : Nat) :
    (headingMark level).toList = List.replicate level '#' := by
  rw [headingMark, String.toList_ofList]

theorem toList_contextRows (context : String) :
    (if context = "" then "" else "**Context:** " ++ quoted context ++ "\n\n").toList =
      endLines (contextRows context) := by
  unfold contextRows
  split
  · rfl
  · simp [toList_quoted, inQuotes, fieldMarker]

theorem toList_stepRows (steps : List String) :
    (if steps = [] then "" else "**Steps:**\n\n" ++ unlines (numberedItems steps) ++ "\n").toList =
      endLines (stepRows steps) := by
  unfold stepRows
  split
  · rfl
  · simp [toList_unlines, numberedItems, itemRow, fieldMarker, Function.comp_def]

theorem toList_verifyRows (t : Task) :
    (if t.hasVerify then "**Verify:** " ++ quoted t.verify ++ "\n\n" else "").toList =
      endLines (verifyRows t.verify) := by
  unfold verifyRows Task.hasVerify
  cases isBlankText t.verify
  · simp [toList_quoted, inQuotes, fieldMarker]
  · rfl

/-- The printer of a task writes the lines of the task. The proof goes part by part, as the printer
does. -/
theorem Task.toList_render (level : Nat) (t : Task) :
    (t.render (headingMark level)).toList = endLines (t.lines level) := by
  simp only [Task.render, String.toList_append, toList_headingMark, toList_contextRows,
    toList_stepRows, toList_verifyRows, Task.lines, Task.rows, headingLine, Task.title,
    endLines_cons, endLines_append, List.cons_append]
  simp

/-- A group is written as the lines of its tasks, under a heading if it gets one. The first group of a
plan gets none when it is the general one, because a reader opens that one by itself. -/
theorem TaskGroup.toList_render (level : Nat) (withHeading : Bool) (g : TaskGroup) :
    (g.render level withHeading).toList = endLines (g.lines level withHeading) := by
  have htasks : (String.join (g.tasks.map (Task.render (headingMark level)))).toList =
      endLines (g.tasks.flatMap (Task.lines level)) := by
    rw [String.toList_join, List.flatMap_map]
    induction g.tasks with
    | nil => rfl
    | cons t ts ih =>
      rw [List.flatMap_cons, List.flatMap_cons, endLines_append, ih, Task.toList_render]
  rw [TaskGroup.render, String.toList_append, htasks, TaskGroup.lines, endLines_append]
  cases withHeading
  · rfl
  · simp [toList_headingMark, headingLine]

/-! ## The lines are well behaved -/

/-- A heading that is written is read with its level and title. It is the only kind of written line that
is a heading at all. -/
theorem written_headingLine {level : Nat} {title : List Char} (low : 1 ≤ level) (high : level ≤ 6)
    (oneLine : '\n' ∉ title) (tidy : trim title = title) (some : title ≠ []) :
    Written level (headingLine level title) where
  noFeed h := by
    rcases List.mem_append.mp h with h | h
    · exact absurd (List.eq_of_mem_replicate h) (by decide)
    · exact oneLine (by simpa using h)
  noReturn h := by
    rw [headingLine, List.append_cons, List.getLast?_append_of_ne_nil _ some] at h
    exact absurd ((trim_eq_self_iff.mp tidy).2 _ h) (by decide)
  noFence := by
    obtain ⟨k, rfl⟩ : ∃ k, level = k + 1 := ⟨level - 1, by omega⟩
    exact isFence_of_head (by decide) (by decide) _
  level k title' h := by
    rw [headingLine, parseHeading?_heading low high tidy some] at h
    cases h
    rfl

theorem trim_append_tidy {c : Char} (hc : isBlank c = false) {cs : List Char} {s : String}
    (tidy : Tidy s) (some : s ≠ "") : trim (c :: (cs ++ s.toList)) = c :: (cs ++ s.toList) := by
  have hnil : s.toList ≠ [] := by simpa [String.toList_eq_nil_iff] using some
  rw [trim_eq_self_iff]
  refine ⟨fun c' hc' => Option.some.inj hc' ▸ hc, fun c' hc' => ?_⟩
  rw [← List.cons_append, List.getLast?_append_of_ne_nil _ hnil] at hc'
  exact (trim_eq_self_iff.mp tidy.trimmed).2 c' hc'

theorem no_feed_toString (n : Nat) : '\n' ∉ (toString n).toList := fun h =>
  absurd (isDigit_of_mem_toString h) (by decide)

namespace Task.Writable

variable {t : Task}

/-- The title of a task has no blanks around it, as it begins with a letter and ends with a tidy name.
-/
theorem trim_title (h : t.Writable) : trim t.title = t.title := by
  have htitle : t.title =
      'T' :: ("ask ".toList ++ (toString t.number).toList ++ [':', ' '] ++ t.name.toList) := by
    simp [Task.title_eq]
  rw [htitle]
  exact trim_append_tidy (by decide) h.name h.named

theorem no_feed_title (h : t.Writable) : '\n' ∉ t.title := by
  intro hmem
  simp only [Task.title_eq, List.mem_append, List.mem_cons] at hmem
  rcases hmem with (hmem | hmem) | hmem | hmem | hmem
  · exact absurd hmem (by decide)
  · exact no_feed_toString _ hmem
  · exact absurd hmem (by decide)
  · exact absurd hmem (by decide)
  · exact h.name.oneLine hmem

end Task.Writable

theorem no_feed_fieldMarker {label : String} (oneLine : '\n' ∉ label.toList) :
    '\n' ∉ fieldMarker label := by
  simp [fieldMarker, oneLine]

theorem rowLine_label {label : String} (oneLine : '\n' ∉ label.toList) :
    RowLine (fieldMarker label) := by
  refine .of_head rfl (by decide) (by decide) (by decide) ?_
  have hlast : fieldMarker label = ('*' :: '*' :: label.toList ++ [':', '*']) ++ ['*'] := by
    simp [fieldMarker]
  rw [hlast]
  exact unbroken_concat (by simp [oneLine]) (by decide) (by decide)

/-- A context or a command between quotes makes a row that has no part in the outline, even if it looks
like a heading or a fence by itself: the label stands before it. -/
theorem Tidy.row_inQuotes {code : String} (tidy : Tidy code) {label : String}
    (oneLine : '\n' ∉ label.toList) : RowLine (fieldMarker label ++ inQuotes code.toList) := by
  refine .of_head rfl (by decide) (by decide) (by decide) ?_
  have hlast : fieldMarker label ++ inQuotes code.toList =
      (fieldMarker label ++ ' ' :: codeQuote :: code.toList) ++ [codeQuote] := by simp [inQuotes]
  rw [hlast]
  refine unbroken_concat (fun h => ?_) (by decide) (by decide)
  simp [no_feed_fieldMarker oneLine, tidy.oneLine, codeQuote] at h

/-- The same of a step, which its number stands before. -/
theorem Tidy.row_item {step : String} (tidy : Tidy step) (some : step ≠ "") (i : Nat) :
    RowLine (itemRow step i) := by
  cases hdigits : (toString (i + 1)).toList with
  | nil => exact absurd hdigits (toString_ne_nil _)
  | cons d ds =>
    have hd : d.isDigit = true := isDigit_of_mem_toString (by rw [hdigits]; exact List.mem_cons_self)
    have hne : ∀ c : Char, c.isDigit = false → d ≠ c := by
      rintro c hc rfl
      rw [hd] at hc
      cases hc
    refine .of_head (c := d) ?_ (isBlank_of_isDigit (isDigit_of_ascii hd)) (hne _ (by decide))
      (hne _ (by decide)) (tidy.unbroken_append some fun hmem => ?_)
    · rw [itemRow, hdigits]
      rfl
    · rcases List.mem_append.mp hmem with hmem | hmem
      · exact no_feed_toString _ hmem
      · exact absurd hmem (by decide)

theorem rowLine_rule : RowLine "---".toList :=
  .of_head rfl (by decide) (by decide) (by decide) ⟨by decide, by decide⟩

theorem Tidy.contextRows {context : String} (tidy : Tidy context) :
    ∀ l ∈ contextRows context, RowLine l := by
  unfold Runbook.contextRows
  split
  · simp
  · simpa using ⟨tidy.row_inQuotes (by decide), RowLine.nil⟩

theorem Tidy.verifyRows {verify : String} (tidy : Tidy verify) :
    ∀ l ∈ verifyRows verify, RowLine l := by
  unfold Runbook.verifyRows
  split
  · simp
  · simpa using ⟨tidy.row_inQuotes (by decide), RowLine.nil⟩

theorem row_stepRows {steps : List String} (tidy : ∀ s ∈ steps, Tidy s ∧ s ≠ "") :
    ∀ l ∈ stepRows steps, RowLine l := by
  have hitems : ∀ l ∈ steps.zipIdx.map (fun (step, i) => itemRow step i), RowLine l := by
    intro l hl
    obtain ⟨⟨step, i⟩, hstep, rfl⟩ := List.mem_map.mp hl
    obtain ⟨hstep, hsome⟩ := tidy step (List.fst_mem_of_mem_zipIdx hstep)
    exact hstep.row_item hsome i
  unfold stepRows
  split
  · simp
  · intro l hl
    simp only [List.cons_append, List.mem_cons, List.mem_append, List.not_mem_nil,
      or_false] at hl
    rcases hl with rfl | rfl | hl | rfl
    · exact rowLine_label (by decide)
    · exact .nil
    · exact hitems l hl
    · exact .nil

/-- All rows of a task stay out of the outline. So the heading is all that a text with the task has more
in its outline. -/
theorem Task.Writable.rows {t : Task} (h : t.Writable) : ∀ l ∈ t.rows, RowLine l := by
  intro l hl
  simp only [Task.rows, List.cons_append, List.mem_cons, List.mem_append, List.not_mem_nil,
    or_false] at hl
  rcases hl with rfl | ((hl | hl) | hl) | rfl | rfl
  · exact .nil
  · exact h.context.contextRows l hl
  · exact row_stepRows h.steps l hl
  · exact h.verify.verifyRows l hl
  · exact rowLine_rule
  · exact .nil

/-- Every line of a task is read as it is written, and only its heading is one. -/
theorem Task.Writable.written_lines {t : Task} (h : t.Writable) {level : Nat} (low : 1 ≤ level)
    (high : level ≤ 6) : ∀ l ∈ t.lines level, Written level l := by
  intro l hl
  rcases List.mem_cons.mp hl with rfl | hl
  · exact written_headingLine low high h.no_feed_title h.trim_title t.title_ne_nil
  · exact (h.rows l hl).written level

/-- The same of a whole group. This is what is handed to those who put the lines into a text: they need
not know how a group is written. -/
theorem TaskGroup.Writable.written_lines {g : TaskGroup} (h : g.Writable) {withHeading : Bool}
    (name : withHeading = true → GroupName g.name) {level : Nat} (low : 1 ≤ level)
    (high : level ≤ 6) : ∀ l ∈ g.lines level withHeading, Written level l := by
  intro l hl
  rcases List.mem_append.mp hl with hl | hl
  · split at hl
    · rename_i hwith
      obtain ⟨tidy, named, -⟩ := name hwith
      simp only [List.mem_cons, List.not_mem_nil, or_false] at hl
      rcases hl with rfl | rfl
      · exact written_headingLine low high tidy.oneLine tidy.trimmed
          (by simpa [String.toList_eq_nil_iff] using named)
      · exact RowLine.nil.written level
    · cases hl
  · obtain ⟨t, ht, hl⟩ := List.mem_flatMap.mp hl
    exact (h.tasks t ht).written_lines low high l hl

end Runbook
