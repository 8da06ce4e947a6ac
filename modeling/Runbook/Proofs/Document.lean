import Runbook.Proofs.Commands
import Runbook.Proofs.Fields

/-!
# The document of a plan

A whole plan is written as one document: a title, fields for everybody to see, the specification, the
commands that prepare a run, and the tasks (`toList_render`). When the plan can be presented at all
(`Presentable`), the lines are read as they are written, but for a carriage return behind the title,
and the scan finds them outside of all fences, but for the commands (`outline_render`).
-/

set_option autoImplicit false

namespace Runbook

open Text Markdown

/-! ## Plans that can be presented -/

/-- A text for a field: a star would end it, because the reader of a field takes what stands before the
next star. -/
@[mk_iff]
structure FieldText (s : String) : Prop extends Tidy s where
  noStar : '*' ∉ s.toList

instance (s : String) : Decidable (FieldText s) := decidable_of_iff' _ (fieldText_iff s)

/-- A status whose word is read as the status. A word that is none of the four known ones must not be
one of them in other letters, or it would be read as the known one. -/
def PlanStatus.Legible : PlanStatus → Prop
  | .other word => FieldText word ∧ word ≠ "" ∧
      upper word.toList ∉ ["DRAFT", "IN_PROGRESS", "COMPLETED", "FAILED"].map String.toList
  | _ => True

instance (s : PlanStatus) : Decidable s.Legible :=
  match s with
  | .other _ => inferInstanceAs (Decidable (_ ∧ _))
  | .draft | .inProgress | .completed | .failed => .isTrue trivial

namespace Plan

/-- An item of the checklist, which must not be taken for a field of the header. The labels of the goal
and of the checklist itself do no harm, because those fields stand above the items and are found first.
-/
@[mk_iff]
structure Criterion (s : String) : Prop extends Tidy s where
  some : s ≠ ""
  noStatus : ¬ fieldMarker "Status" <:+: s.toList
  noType : ¬ fieldMarker "Type" <:+: s.toList

instance (s : String) : Decidable (Criterion s) := decidable_of_iff' _ (criterion_iff s)

/-- A plan of which a document can be made that says the same. Each field is a condition on one part of
the plan. -/
@[mk_iff]
structure Presentable (p : Plan) : Prop where
  groups : Writable p.groups
  noQuotes : ∀ g ∈ p.groups, ∀ t ∈ g.tasks,
    codeQuote ∉ t.context.toList ∧ codeQuote ∉ t.verify.toList
  goal : FieldText p.spec.goal
  kind : FieldText p.spec.kind
  typed : p.spec.kind ≠ ""
  criteria : ∀ c ∈ p.spec.criteria, Criterion c
  context : ∀ c ∈ p.context, Command c
  status : p.spec.status.Legible

instance (p : Plan) : Decidable p.Presentable := decidable_of_iff' _ (presentable_iff p)

/-- A title that is neither a heading of a section nor a field. It is the one text of a document that
nothing stands before. -/
@[mk_iff]
structure Title (title : String) : Prop where
  oneLine : '\n' ∉ title.toList
  other : ∀ name ∈ ["Tasks", "Specification", "Context Loading"],
    sameIgnoringCase (trim title.toList) name.toList = false
  noStatus : ¬ fieldMarker "Status" <:+: title.toList
  noType : ¬ fieldMarker "Type" <:+: title.toList

instance (title : String) : Decidable (Title title) := decidable_of_iff' _ (title_iff title)

/-! ## The lines of a document -/

/-- A field of the header as it is written, in a quote of its own. -/
def fieldLine (label : String) (value : List Char) : List Char :=
  '>' :: ' ' :: (fieldMarker label ++ ' ' :: value)

/-- The lines above all sections. -/
def headLines (spec : Specification) (title : List Char) (day : Option (List Char)) :
    List (List Char) :=
  ('#' :: ' ' :: title) :: [] :: fieldLine "Status" spec.status.marker.toList
    :: fieldLine "Type" spec.kind.toList :: (day.toList.map (fieldLine "Created") ++ [[]])

def criteriaLines (criteria : List String) : List (List Char) :=
  if criteria = [] then []
  else fieldMarker "Success Criteria" :: [] ::
    (criteria.map (fun c => "- [ ] ".toList ++ c.toList) ++ [[]])

/-- The lines under the heading of the specification. -/
def specificationRows (spec : Specification) : List (List Char) :=
  [] :: (fieldMarker "Goal" ++ ' ' :: spec.goal.toList) :: [] :: criteriaLines spec.criteria

/-- The heading of the commands and the lines down to the first one. -/
def contextHead (context : List String) : List (List Char) :=
  if context = [] then []
  else [headingLine 2 "Context Loading".toList, [], "_Run before starting:_".toList, []]

/-- The part of a document between its head and its first command, all of it outside of fences. -/
def openPart (p : Plan) : List (List Char) :=
  headingLine 2 "Specification".toList :: specificationRows p.spec ++ contextHead p.context

theorem toList_criteriaLines (criteria : List String) :
    (if criteria = [] then ""
      else "**Success Criteria:**\n\n" ++ unlines (criteria.map ("- [ ] " ++ ·)) ++ "\n").toList =
      endLines (criteriaLines criteria) := by
  unfold criteriaLines
  split
  · rfl
  · simp [toList_unlines, fieldMarker, Function.comp_def]

theorem toList_contextLines (context : List String) :
    (if context = [] then ""
      else "## Context Loading\n\n_Run before starting:_\n\n"
        ++ String.join (context.map renderCommand)).toList =
      endLines (contextHead context ++ context.flatMap commandLines) := by
  have hcommands : (String.join (context.map renderCommand)).toList =
      endLines (context.flatMap commandLines) := by
    rw [String.toList_join, List.flatMap_map]
    induction context with
    | nil => rfl
    | cons c cs ih =>
      rw [List.flatMap_cons, List.flatMap_cons, endLines_append, ih, toList_renderCommand]
  unfold contextHead
  split
  · rename_i h
    subst h
    rfl
  · rw [String.toList_append, hcommands, endLines_append]
    rfl

/-- The document of a plan is its lines, each of them ended. The parts are in the order in which they
are written, and only the commands have fences. -/
theorem toList_render (p : Plan) (title : String) (created : Option String) :
    (p.render title created).toList =
      endLines (headLines p.spec title.toList (created.map String.toList) ++ openPart p
        ++ p.context.flatMap commandLines ++ taskLines p.groups) := by
  have hcriteria := toList_criteriaLines p.spec.criteria
  have hcontext := toList_contextLines p.context
  delta render
  rw [String.toList_append, String.toList_append, hcontext, String.toList_append, hcriteria,
    toList_renderTasks]
  simp only [String.toList_append, headLines, openPart, specificationRows, endLines_append,
    endLines_cons, List.cons_append]
  simp [fieldLine, fieldMarker, headingLine]
  cases created with
  | none => rfl
  | some day => simp [fieldLine, fieldMarker]

end Plan

open Plan

/-! ## The lines that are read -/

/-- A reader may drop a carriage return at the end of a line, and nothing else. So a label that is found
on a line that is read was on the line that has been written. -/
theorem infix_of_readBack {needle l : List Char} (oneLine : '\n' ∉ l)
    (h : needle <:+: readBack l) : needle <:+: l := by
  rcases append_readBack oneLine with heq | heq
  · rwa [heq]
  · rw [heq]
    exact h.trans (List.prefix_append _ _).isInfix

theorem PlanStatus.Legible.marker {s : PlanStatus} (h : s.Legible) : FieldText s.marker := by
  cases s with
  | other word => exact h.1
  | _ => exact ⟨⟨by decide, by decide⟩, by decide⟩

theorem fieldLine_eq (label : String) (value : List Char) :
    fieldLine label value = '>' :: ' ' :: (fieldMarker label ++ [' ']) ++ value := by
  simp [fieldLine]

theorem readBack_fieldLine {label : String} (hlabel : '\n' ∉ label.toList) {value : List Char}
    (hvalue : '\n' ∉ value) : readBack (fieldLine label value) = fieldLine label (readBack value) := by
  rw [fieldLine_eq, fieldLine_eq, readBack_append (by simp [no_feed_fieldMarker hlabel]) ?_ hvalue]
  rw [← List.cons_append, ← List.cons_append, List.getLast?_concat]
  decide

theorem Tidy.readBack {s : String} (tidy : Tidy s) : readBack s.toList = s.toList :=
  Unbroken.readBack (tidy.unbroken (by simp : '\n' ∉ ([] : List Char)) (by simp))

theorem noFence_headLines (spec : Specification) (title : List Char)
    (day : Option (List Char)) : ∀ l ∈ headLines spec title day, isFence l = false := by
  intro l hl
  simp only [headLines, List.mem_cons, List.mem_append, List.mem_map, Option.mem_toList,
    List.not_mem_nil, or_false] at hl
  rcases hl with rfl | rfl | rfl | rfl | ⟨d, hd, rfl⟩ | rfl
  · exact isFence_of_head (by decide) (by decide) _
  · exact isFence_nil
  · exact isFence_of_head (by decide) (by decide) _
  · exact isFence_of_head (by decide) (by decide) _
  · exact isFence_of_head (by decide) (by decide) _
  · exact isFence_nil

theorem rowLine_note : RowLine "_Run before starting:_".toList :=
  .of_head rfl (by decide) (by decide) (by decide) ⟨by decide, by decide⟩

namespace Plan.Presentable

variable {p : Plan} (h : p.Presentable)
include h

theorem rows_criteriaLines : ∀ l ∈ criteriaLines p.spec.criteria, RowLine l := by
  unfold criteriaLines
  split
  · simp
  · intro l hl
    simp only [List.mem_cons, List.mem_append, List.mem_map, List.not_mem_nil, or_false] at hl
    rcases hl with rfl | rfl | ⟨c, hc, rfl⟩ | rfl
    · exact rowLine_label (by decide)
    · exact .nil
    · refine .of_head rfl (by decide) (by decide) (by decide) ?_
      exact (h.criteria c hc).toTidy.unbroken (by decide) (by decide)
    · exact .nil

theorem rows_specification : ∀ l ∈ specificationRows p.spec, RowLine l := by
  intro l hl
  simp only [specificationRows, List.mem_cons] at hl
  rcases hl with rfl | rfl | rfl | hl
  · exact .nil
  · have hgoal : fieldMarker "Goal" ++ ' ' :: p.spec.goal.toList =
        (fieldMarker "Goal" ++ [' ']) ++ p.spec.goal.toList := by simp
    rw [hgoal]
    exact .of_head rfl (by decide) (by decide) (by decide)
      (h.goal.toTidy.unbroken (by decide) (by decide))
  · exact .nil
  · exact h.rows_criteriaLines l hl

omit h in
theorem written_contextHead (context : List String) : ∀ l ∈ contextHead context, Written 2 l := by
  intro l hl
  unfold contextHead at hl
  split at hl
  · cases hl
  · simp only [List.mem_cons, List.not_mem_nil, or_false] at hl
    rcases hl with rfl | rfl | rfl | rfl
    · exact written_headingLine (by decide) (by decide) (by decide) (by decide) (by decide)
    · exact RowLine.nil.written 2
    · exact rowLine_note.written 2
    · exact RowLine.nil.written 2

omit h in
theorem written_specificationLine : Written 2 (headingLine 2 "Specification".toList) :=
  written_headingLine (by decide) (by decide) (by decide) (by decide) (by decide)

/-- The lines above the sections, as they are read. The title and the date come from outside and may end
in a carriage return, which is lost. -/
theorem map_readBack_headLines {title : List Char} (htitle : '\n' ∉ title)
    {day : Option (List Char)} (hday : ∀ d ∈ day, '\n' ∉ d) :
    (∀ l ∈ headLines p.spec title day, '\n' ∉ l) ∧
      (headLines p.spec title day).map readBack =
        headLines p.spec (readBack title) (day.map readBack) := by
  have hstatus := h.status.marker
  have hline : ∀ {label : String} {value : List Char}, '\n' ∉ label.toList → '\n' ∉ value →
      '\n' ∉ fieldLine label value := by
    intro label value hlabel hvalue
    simp [fieldLine, no_feed_fieldMarker hlabel, hvalue]
  constructor
  · intro l hl
    simp only [headLines, List.mem_cons, List.mem_append, List.mem_map, Option.mem_toList,
      List.not_mem_nil, or_false] at hl
    rcases hl with rfl | rfl | rfl | rfl | ⟨d, hd, rfl⟩ | rfl
    · simpa using htitle
    · simp
    · exact hline (by decide) hstatus.oneLine
    · exact hline (by decide) h.kind.oneLine
    · exact hline (by decide) (hday d hd)
    · simp
  · -- a line feed is in none of the values, so the mark of each line stays in front of it
    have htitleLine : readBack ('#' :: ' ' :: title) = '#' :: ' ' :: readBack title :=
      readBack_append (by decide : '\n' ∉ ['#', ' ']) (by decide) htitle
    have hdays : (day.toList.map (fieldLine "Created")).map readBack =
        (day.map readBack).toList.map (fieldLine "Created") := by
      cases day with
      | none => rfl
      | some d => simpa using readBack_fieldLine (by decide) (hday d rfl)
    simp only [headLines, List.map_cons, List.map_append, List.map_nil, htitleLine, hdays,
      readBack_fieldLine (by decide : '\n' ∉ "Status".toList) hstatus.oneLine,
      readBack_fieldLine (by decide : '\n' ∉ "Type".toList) h.kind.oneLine,
      hstatus.toTidy.readBack, h.kind.toTidy.readBack, RowLine.nil.toUnbroken.readBack]

/-- What the scan finds in lines that are those of a plan but for the rows under the specification. The
rows are left open so that a document with other rows there can be looked at as well. -/
theorem outline_document {rows : List (List Char)} (noFence : ∀ l ∈ rows, isFence l = false)
    {text title : List Char} {day : Option (List Char)}
    (lines : lines text = (headLines p.spec title day ++
      (headingLine 2 "Specification".toList :: rows ++ contextHead p.context)) ++
        (p.context.flatMap commandLines ++ taskLines p.groups)) :
    ∃ k m ls n, (p.context = [] → ls = []) ∧ Verbatim p.context ls ∧
      (Outline.ofText text).lines =
        openLines 0 (headLines p.spec title day) ++
          (openLines k (headingLine 2 "Specification".toList :: rows) ++
            (openLines m (contextHead p.context) ++ (ls ++ openLines n (taskLines p.groups)))) := by
  have hopen : ∀ l ∈ headLines p.spec title day ++
      (headingLine 2 "Specification".toList :: rows ++ contextHead p.context), isFence l = false := by
    intro l hl
    rcases List.mem_append.mp hl with hl | hl
    · exact noFence_headLines _ _ _ l hl
    rcases List.mem_cons.mp hl with rfl | hl
    · exact written_specificationLine.noFence
    rcases List.mem_append.mp hl with hl | hl
    · exact noFence l hl
    · exact (written_contextHead p.context l hl).noFence
  have htasks := scan_of_no_fence fun l hl => (h.groups.taskLines l hl).2
  -- only commands bring in fences, and they close them again
  have hcommands : ∀ n, ∃ ls m, (p.context = [] → ls = []) ∧ Verbatim p.context ls ∧
      scan false n (p.context.flatMap commandLines ++ taskLines p.groups) =
        ls ++ openLines m (taskLines p.groups) := by
    intro n
    cases hcontext : p.context with
    | nil => exact ⟨[], n, fun _ => rfl, .nil, htasks n⟩
    | cons c cs =>
      obtain ⟨ls, hscan, hverbatim⟩ := scan_commands h.context n (taskLines p.groups)
      rw [hcontext, htasks] at hscan
      rw [hcontext] at hverbatim
      exact ⟨ls, _, nofun, hverbatim, hscan⟩
  obtain ⟨ls, n, hempty, hverbatim, hscan⟩ := hcommands (0 + (headLines p.spec title day ++
    (headingLine 2 "Specification".toList :: rows ++ contextHead p.context)).length)
  refine ⟨?k, ?m, ls, n, hempty, hverbatim, ?lines⟩
  case lines =>
    rw [Outline.ofText, lines, scan_open hopen, hscan, openLines_append, openLines_append,
      List.append_assoc, List.append_assoc]

/-- The lines of a document whose rows under the specification are written on lines of their own. -/
theorem lines_document {rows : List (List Char)} (oneLine : ∀ l ∈ rows, '\n' ∉ l) {title : List Char}
    (htitle : '\n' ∉ title) {day : Option (List Char)} (hday : ∀ d ∈ day, '\n' ∉ d) :
    lines (endLines (headLines p.spec title day ++
      (headingLine 2 "Specification".toList :: rows ++ contextHead p.context)
        ++ p.context.flatMap commandLines ++ taskLines p.groups)) =
      (headLines p.spec (readBack title) (day.map readBack) ++
        (headingLine 2 "Specification".toList :: rows.map readBack ++ contextHead p.context)) ++
          (p.context.flatMap commandLines ++ taskLines p.groups) := by
  obtain ⟨hfeed, hhead⟩ := h.map_readBack_headLines htitle hday
  have hheading := written_specificationLine.toUnbroken
  have hcontext : ∀ l ∈ contextHead p.context, Unbroken l := fun l hl =>
    (written_contextHead p.context l hl).toUnbroken
  have hrest : ∀ l ∈ p.context.flatMap commandLines ++ taskLines p.groups, Unbroken l := by
    intro l hl
    rcases List.mem_append.mp hl with hl | hl
    · obtain ⟨c, hc, hl⟩ := List.mem_flatMap.mp hl
      exact (h.context c hc).unbroken l hl
    · exact (h.groups.taskLines l hl).1
  rw [List.append_assoc (_ ++ _), lines_endLines_map]
  · rw [List.map_append, List.map_append, map_readBack hrest, hhead, List.cons_append, List.map_cons,
      List.map_append, map_readBack hcontext, hheading.readBack, List.cons_append]
  · simp only [List.mem_append, List.mem_cons]
    rintro l ((hl | (rfl | hl) | hl) | hl)
    · exact hfeed l hl
    · exact hheading.noFeed
    · exact oneLine l hl
    · exact (hcontext l hl).noFeed
    · exact (hrest l (List.mem_append.mpr hl)).noFeed

/-- What the scan finds in the document of a plan: its lines as they were written, all outside of fences
but for those of the commands. -/
theorem outline_render {title : String} (htitle : '\n' ∉ title.toList) {created : Option String}
    (hcreated : ∀ day ∈ created, '\n' ∉ day.toList) :
    ∃ day k m ls n, (p.context = [] → ls = []) ∧ Verbatim p.context ls ∧
      (Outline.ofText (p.render title created).toList).lines =
        openLines 0 (headLines p.spec (readBack title.toList) day) ++
          (openLines k (headingLine 2 "Specification".toList :: specificationRows p.spec) ++
            (openLines m (contextHead p.context) ++ (ls ++ openLines n (taskLines p.groups)))) := by
  have hrows := h.rows_specification
  have hread := map_readBack fun l hl => (hrows l hl).toUnbroken
  have hday : ∀ d ∈ created.map String.toList, '\n' ∉ d := by
    simpa using hcreated
  have hlines := h.lines_document (fun l hl => (hrows l hl).noFeed) htitle hday
  rw [hread, ← openPart, ← toList_render] at hlines
  exact ⟨_, h.outline_document (fun l hl => (hrows l hl).noFence) hlines⟩

end Plan.Presentable

end Runbook
