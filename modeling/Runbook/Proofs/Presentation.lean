import Runbook.Proofs.Document

/-!
# A plan survives being written and read

Four readers go through the lines of a document, and each finds its own part and nothing else
(`parse_render`):

* a section is the first one of its title, as no line above it is a heading of that title;
* the status and the type stand on the first lines with their markers, as the title has none, the
  goal and the type have no stars, and no criterion has one of the two markers;
* the commands are the verbatim blocks of their section, which ends before the tasks.
-/

set_option autoImplicit false

namespace Runbook

open Text Markdown Plan

/-! ## Fields -/

theorem fieldValue?_fieldLine {label value : String} (hvalue : FieldText value) :
    fieldValue? label (fieldLine label value.toList) = some value.toList := by
  have hread : fieldValue? label (['>', ' '] ++ fieldMarker label ++ ' ' :: value.toList) =
      some (trim (' ' :: value.toList)) :=
    fieldValue?_front (by decide) (by simpa using hvalue.noStar)
  rw [trim_space, hvalue.trimmed] at hread
  simpa [fieldLine] using hread

theorem readItems_openLine {n : Nat} {l item : List Char} {ls : List Line} (some : trim l ≠ [])
    (hitem : itemText? l = .some item) :
    readItems (openLine n l :: ls) = String.ofList item :: readItems ls := by
  rw [readItems]
  simp only [openLine, if_neg some, hitem]

/-- The items of a checklist are read from the lines that are written for them, up to the blank line
below. -/
theorem readItems_criteria {criteria : List String} (sound : ∀ c ∈ criteria, Criterion c)
    (n : Nat) :
    readItems (openLines n (criteria.map (fun c => "- [ ] ".toList ++ c.toList) ++ [[]])) =
      criteria := by
  induction criteria generalizing n with
  | nil => rfl
  | cons c cs ih =>
    obtain ⟨hc, hcs⟩ := List.forall_mem_cons.mp sound
    have hitem : itemText? ("- [ ] ".toList ++ c.toList) = some c.toList :=
      itemText?_written hc.trimmed
    have hsome : trim ("- [ ] ".toList ++ c.toList) ≠ [] := by
      rw [Ne, trim_eq_nil_iff]
      exact not_blank_of_mem (c := '-') (by simp) (by decide)
    rw [List.map_cons, List.cons_append, openLines_cons, readItems_openLine hsome hitem, ih hcs,
      String.ofList_toList]

theorem upperChar_ne_nil (c : Char) : upperChar c ≠ [] := by
  have hspecial : ∀ e ∈ upperSpecial, e.2 ≠ [] := by decide
  unfold upperChar
  split
  · simp
  · split
    · rename_i ns hns
      obtain ⟨before, after, htable, -⟩ := List.lookup_eq_some_iff.mp hns
      have hne := hspecial (c.toNat, ns) (by rw [htable]; simp)
      simpa using hne
    · split <;> simp

/-- The word of a status is read as the status. This is where a word of one's own must not be a known
one in other letters. -/
theorem ofWord_marker {s : PlanStatus} (h : s.Legible) : PlanStatus.ofWord s.marker = s := by
  cases s with
  | other word =>
    obtain ⟨hword, hsome, hunknown⟩ := h
    have hne : upper word.toList ≠ "".toList := by
      cases hlist : word.toList with
      | nil => exact absurd (String.toList_eq_nil_iff.mp hlist) hsome
      | cons c cs => simp [upper, upperChar_ne_nil]
    simp only [List.map_cons, List.map_nil, List.mem_cons, List.not_mem_nil, or_false,
      not_or] at hunknown
    obtain ⟨h1, h2, h3, h4⟩ := hunknown
    simp only [PlanStatus.ofWord, PlanStatus.marker, hword.trimmed, String.ofList_toList]
    rw [if_neg (not_or.mpr ⟨hne, h1⟩), if_neg h2, if_neg h3, if_neg h4]
  | draft | inProgress | completed | failed => decide

/-! ## Sections -/

namespace Markdown

/-- A line outside of fences is titled so when it is a heading of the title. There is nothing else to
look at. -/
theorem isTitled_openLine (name : List Char) (n : Nat) (l : List Char) :
    Outline.isTitled name (openLine n l) =
      (parseHeading? l).any fun found => sameIgnoringCase found.2 name := by
  rw [Outline.isTitled, heading?_openLine]
  cases parseHeading? l <;> rfl

/-- The first line of a document is a heading, and what it says is the title without the blanks around
it. -/
theorem parseHeading?_title {title : List Char} {level : Nat} {found : List Char}
    (h : parseHeading? ('#' :: ' ' :: title) = some (level, found)) : found = trim title := by
  rw [parseHeading?, List.dropWhile_cons_of_pos (by decide),
    List.dropWhile_cons_of_neg (by decide), trim_space] at h
  split at h <;> cases h
  rfl

/-- The section of a title begins with the rows under its heading. That no line above is titled so is
the whole difficulty: it is where the title of the document must not interfere. -/
theorem sectionTitled?_front {o : Outline} {above more : List Line} {name : List Char} {n : Nat}
    {rows : List Line} (lines : o.lines = above ++ openLine n (headingLine 2 name) :: (rows ++ more))
    (tidy : trim name = name) (some : name ≠ [])
    (none : ∀ l ∈ above, Outline.isTitled name l = false) (hrows : ∀ l ∈ rows, l.heading? = .none) :
    o.sectionTitled? name .anyHeading =
      .some ⟨⟨2, name, n⟩, rows ++ more.takeWhile (·.heading?.isNone)⟩ := by
  have hheading : (openLine n (headingLine 2 name)).heading? = .some ⟨2, name, n⟩ :=
    heading?_headingLine (by decide) (by decide) tidy some n
  have htitled : Heading.Titled name ⟨2, name, n⟩ := by
    rw [Heading.Titled, sameIgnoringCase]
    exact beq_self_eq_true _
  have hends : (fun l => !SectionEnd.anyHeading.endsAt ⟨2, name, n⟩ l) = (·.heading?.isNone) := by
    funext l
    rw [SectionEnd.endsAt]
    cases l.heading? <;> rfl
  rw [sectionTitled?_of_split lines none hheading htitled, hends, List.takeWhile_append_of_pos]
  intro l hl
  rw [hrows l hl]
  rfl

/-- The section of a title whose rows go down to another heading is made of these rows. -/
theorem sectionTitled?_rows {o : Outline} {above more : List Line} {name : List Char} {n : Nat}
    {rows : List Line} (lines : o.lines = above ++ openLine n (headingLine 2 name) :: (rows ++ more))
    (tidy : trim name = name) (some : name ≠ [])
    (none : ∀ l ∈ above, Outline.isTitled name l = false) (hrows : ∀ l ∈ rows, l.heading? = .none)
    (hmore : ∀ l, more.head? = .some l → l.heading? ≠ .none) :
    o.sectionTitled? name .anyHeading = .some ⟨⟨2, name, n⟩, rows⟩ := by
  have hstop : more.takeWhile (·.heading?.isNone) = [] := by
    cases more with
    | nil => rfl
    | cons l more => exact List.takeWhile_cons_of_neg (by simpa using hmore l rfl)
  rw [sectionTitled?_front lines tidy some none hrows, hstop, List.append_nil]

end Markdown

namespace Plan

/-- Rows under the heading of the specification in which its readers find what a plan says. It is stated
by readers and not by rows, since a goal that is given may leave blank lines behind. -/
structure Specified (spec : Specification) (rows : List (List Char)) : Prop where
  noHeading : ∀ l ∈ rows, parseHeading? l = none
  goal : ∀ k, ∃ n, readField? "Goal" (openLines k rows) = some (n, spec.goal.toList)
  noField : ∀ k, ∀ label, label = "Status" ∨ label = "Type" →
    readField? label (openLines k rows) = none
  criteria : ∀ k, readCriteria (openLines k rows) = spec.criteria

/-- The rows above the checklist: a goal, and what stands below it. In a document that is written for a
plan there is one blank line below; a goal with line feeds at its end leaves more. -/
def goalFront (goal : List Char) (below : List (List Char)) : List (List Char) :=
  [] :: (fieldMarker "Goal" ++ ' ' :: goal) :: below

/-- A goal without stars and blanks below it bring in no marker. -/
theorem no_marker_goalFront {goal : List Char} (noStar : '*' ∉ goal) {below : List (List Char)}
    (blank : ∀ l ∈ below, Blank l) {label : String}
    (other : occursIn (fieldMarker label) (fieldMarker "Goal" ++ [' ']) = false) :
    ∀ l ∈ goalFront goal below, ¬ fieldMarker label <:+: l := by
  intro l hl
  simp only [goalFront, List.mem_cons] at hl
  rcases hl with rfl | rfl | hl
  · exact no_marker_of_no_star (by simp)
  · have hgoal : fieldMarker "Goal" ++ ' ' :: goal = (fieldMarker "Goal" ++ [' ']) ++ goal := by simp
    rw [hgoal, marker_append_right noStar, ← occursIn_iff, other]
    exact Bool.false_ne_true
  · exact no_marker_of_no_star fun hstar => not_blank_of_mem hstar (by decide) (blank l hl)

theorem parseHeading?_goalFront (goal : List Char) {below : List (List Char)}
    (blank : ∀ l ∈ below, Blank l) : ∀ l ∈ goalFront goal below, parseHeading? l = none := by
  intro l hl
  simp only [goalFront, List.mem_cons] at hl
  rcases hl with rfl | rfl | hl
  · exact parseHeading?_nil
  · exact parseHeading?_of_head (by decide) _
  · exact parseHeading?_of_blank (blank l hl)

/-- The goal that is read ends at a star, whatever stands below it. It is the first field of its
section, so no other line is looked at. -/
theorem readField?_goalFront (goal : List Char) (below : List (List Char)) (k : Nat) (ls : List Line) :
    readField? "Goal" (openLines k (goalFront goal below) ++ ls) =
      some (k + 1, trim (goal.takeWhile (· ≠ '*'))) := by
  have hread : fieldValue? "Goal" ([] ++ fieldMarker "Goal" ++ ' ' :: goal) =
      some (trim ((' ' :: goal).takeWhile (· ≠ '*'))) := fieldValue?_marker (by decide) _
  rw [List.takeWhile_cons_of_pos (by decide), trim_space, List.nil_append] at hread
  rw [goalFront, readField?_openLines_skip (by decide), readField?_openLines_cons, hread]

/-- No item of the checklist is taken for a field of the header, nor is its label. -/
theorem Presentable.no_marker_criteriaLines {p : Plan} (h : p.Presentable) {label : String}
    (hlabel : label = "Status" ∨ label = "Type") :
    ∀ l ∈ criteriaLines p.spec.criteria, ¬ fieldMarker label <:+: l := by
  have hnil : ¬ fieldMarker label <:+: [] := no_marker_of_no_star (by simp)
  intro l hl
  unfold criteriaLines at hl
  split at hl
  · cases hl
  · simp only [List.mem_cons, List.mem_append, List.mem_map, List.not_mem_nil, or_false] at hl
    rcases hl with rfl | rfl | ⟨c, hc, rfl⟩ | rfl
    · rw [← occursIn_iff]
      rcases hlabel with rfl | rfl <;> decide
    · exact hnil
    · rw [marker_append_left (by decide)]
      rcases hlabel with rfl | rfl
      · exact (h.criteria c hc).noStatus
      · exact (h.criteria c hc).noType
    · exact hnil

/-- The checklist is read from under its label, and there is none without the label. A plan without
criteria is written without the label, so the two cases agree. -/
theorem Presentable.readCriteria_front {p : Plan} (h : p.Presentable) {front : List (List Char)}
    (noLabel : ∀ l ∈ front, ¬ fieldMarker "Success Criteria" <:+: l) (k : Nat) :
    readCriteria (openLines k (front ++ criteriaLines p.spec.criteria)) = p.spec.criteria := by
  have hlabel : occursIn (fieldMarker "Success Criteria") (fieldMarker "Success Criteria") = true := by
    decide
  have hfront : ∀ l ∈ openLines k front,
      (!occursIn (fieldMarker "Success Criteria") l.text) = true := by
    intro l hl
    obtain ⟨j, text, htext, rfl⟩ := exists_of_mem_openLines hl
    rw [Bool.not_eq_true', Bool.eq_false_iff, ne_eq, occursIn_iff]
    exact noLabel text htext
  rw [readCriteria, openLines_append, List.dropWhile_append_of_pos hfront]
  by_cases hnone : p.spec.criteria = []
  · rw [criteriaLines, if_pos hnone, hnone]
    rfl
  · rw [criteriaLines, if_neg hnone, openLines_cons, openLines_cons, openLine,
      List.dropWhile_cons_of_neg (by simp [hlabel])]
    have hblank : trim [] = [] := rfl
    simp only [openLine, readItems, hblank, if_true]
    exact readItems_criteria h.criteria _

/-- Blanks below the goal and around it are of no account. -/
theorem Presentable.specified_of_goal {p : Plan} (h : p.Presentable) {goal : List Char}
    (noStar : '*' ∉ goal) (trimmed : trim goal = p.spec.goal.toList) {below : List (List Char)}
    (blank : ∀ l ∈ below, Blank l) :
    Specified p.spec (goalFront goal below ++ criteriaLines p.spec.criteria) where
  noHeading := List.forall_mem_append.mpr
    ⟨parseHeading?_goalFront goal blank, fun l hl => (h.rows_criteriaLines l hl).noHeading⟩
  goal k := by
    refine ⟨k + 1, ?_⟩
    rw [openLines_append, readField?_goalFront, takeWhile_no_star noStar, trimmed]
  noField k label hlabel := by
    refine readField?_eq_none fun l hl => .inr ?_
    obtain ⟨j, text, htext, rfl⟩ := exists_of_mem_openLines hl
    rcases List.mem_append.mp htext with htext | htext
    · refine no_marker_goalFront noStar blank ?_ text htext
      rcases hlabel with rfl | rfl <;> decide
    · exact h.no_marker_criteriaLines hlabel text htext
  criteria k := h.readCriteria_front (no_marker_goalFront noStar blank (by decide)) k

/-- The rows that are written for a specification are read as it. -/
theorem Presentable.specified {p : Plan} (h : p.Presentable) :
    Specified p.spec (specificationRows p.spec) :=
  have hblank : ∀ l ∈ [[]], Blank l := by simp [Blank]
  h.specified_of_goal h.goal.noStar h.goal.trimmed hblank

theorem Specified.heading?_openLines {spec : Specification} {rows : List (List Char)}
    (h : Specified spec rows) {k : Nat} : ∀ l ∈ openLines k rows, l.heading? = none := by
  intro l hl
  obtain ⟨n, text, htext, rfl⟩ := exists_of_mem_openLines hl
  rw [heading?_openLine, h.noHeading text htext]
  rfl

/-- Only the title can be the heading of a section among the lines above all sections. The others are a
quotation, which no heading is. -/
theorem untitled_headLines {spec : Specification} {title : List Char} {day : Option (List Char)}
    {name : String} (other : sameIgnoringCase (trim title) name.toList = false) :
    ∀ l ∈ openLines 0 (headLines spec title day), Outline.isTitled name.toList l = false := by
  intro l hl
  obtain ⟨k, text, htext, rfl⟩ := exists_of_mem_openLines hl
  rw [isTitled_openLine]
  simp only [headLines, List.mem_cons, List.mem_append, List.mem_map, Option.mem_toList,
    List.not_mem_nil, or_false] at htext
  rcases htext with rfl | htext
  · cases hparse : parseHeading? ('#' :: ' ' :: title) with
    | none => rfl
    | some found =>
      rw [Option.any_some, parseHeading?_title hparse]
      exact other
  · have hnone : parseHeading? text = none := by
      rcases htext with rfl | rfl | rfl | ⟨d, hd, rfl⟩ | rfl
      · exact parseHeading?_nil
      · exact parseHeading?_of_head (by decide) _
      · exact parseHeading?_of_head (by decide) _
      · exact parseHeading?_of_head (by decide) _
      · exact parseHeading?_nil
    rw [hnone]
    rfl

/-- An outline in which readers find what a plan says, with these rows under the specification. The rows
are left open, because they need not be those that are written for the plan. -/
structure Exhibits (p : Plan) (o : Outline) (title : List Char) (day : Option (List Char))
    (rows : List (List Char)) (k m : Nat) (ls : List Line) (n : Nat) : Prop where
  other : ∀ name ∈ sectionNames, sameIgnoringCase (trim title) name.toList = false
  noStatus : ¬ fieldMarker "Status" <:+: title
  noType : ¬ fieldMarker "Type" <:+: title
  specified : Specified p.spec rows
  empty : p.context = [] → ls = []
  verbatim : Verbatim p.context ls
  lines : o.lines = openLines 0 (headLines p.spec title day) ++
    (openLines k (headingLine 2 "Specification".toList :: rows) ++
      (openLines m (contextHead p.context) ++ (ls ++ openLines n (taskLines p.groups))))

namespace Exhibits

variable {p : Plan} {o : Outline} {title : List Char} {day : Option (List Char)}
  {rows : List (List Char)} {k m : Nat} {ls : List Line} {n : Nat}
  (exhibits : Exhibits p o title day rows k m ls n) (h : p.Presentable)

theorem head_taskLines (groups : List TaskGroup) (n : Nat) :
    ∀ l, (openLines n (taskLines groups)).head? = some l → l.heading? ≠ none := by
  intro l hl
  rw [taskLines, openLines_cons, List.head?_cons, Option.some.injEq] at hl
  rw [← hl, heading?_headingLine (by decide) (by decide) (by decide) (by decide)]
  exact Option.some_ne_none _

include exhibits

theorem untitled_head {name : String} (hname : name ∈ sectionNames) :
    ∀ l ∈ openLines 0 (headLines p.spec title day), Outline.isTitled name.toList l = false :=
  untitled_headLines (exhibits.other name hname)

/-- What stands under the specification begins with a heading. -/
theorem head_below : ∀ l, (openLines m (contextHead p.context) ++
    (ls ++ openLines n (taskLines p.groups))).head? = some l → l.heading? ≠ none := by
  unfold contextHead
  split
  · rename_i hcontext
    rw [exhibits.empty hcontext]
    exact head_taskLines _ _
  · intro l hl
    rw [openLines_cons, List.cons_append, List.head?_cons, Option.some.injEq] at hl
    rw [← hl, heading?_headingLine (by decide) (by decide) (by decide) (by decide)]
    exact Option.some_ne_none _

/-- The section of the specification is made of these rows, down to the next heading. -/
theorem sectionBody_specification :
    sectionBody o "Specification" = openLines (k + 1) (rows) := by
  have hlines := exhibits.lines
  rw [openLines_cons, List.cons_append] at hlines
  have hfound := sectionTitled?_rows hlines (by decide) (by decide)
    (exhibits.untitled_head (by decide)) exhibits.specified.heading?_openLines exhibits.head_below
  rw [sectionBody, hfound]

/-- No line above the commands has the title of another section. A plan may have commands and tasks with
any titles, but those come later. -/
theorem untitled_above {name : String} (hname : name ∈ sectionNames)
    (other : sameIgnoringCase "Specification".toList name.toList = false) :
    ∀ l ∈ openLines 0 (headLines p.spec title day) ++
      openLines k (headingLine 2 "Specification".toList :: rows),
      Outline.isTitled name.toList l = false := by
  intro l hl
  rcases List.mem_append.mp hl with hl | hl
  · exact exhibits.untitled_head hname l hl
  · rcases List.mem_cons.mp hl with rfl | hl
    · rw [isTitled_openLine, headingLine,
        parseHeading?_heading (by decide) (by decide) (by decide) (by decide)]
      exact other
    · rw [Outline.isTitled, exhibits.specified.heading?_openLines l hl]
      rfl

/-- Without commands there is no fence in the document. What else it holds is written outside of fences,
line by line. -/
theorem kind_ne_fence (hcontext : p.context = []) : ∀ l ∈ o.lines, l.kind ≠ .fence := by
  intro l hl
  have hopen : ∃ k text, l = openLine k text := by
    rw [exhibits.lines, exhibits.empty hcontext] at hl
    simp only [List.mem_append, List.not_mem_nil, false_or] at hl
    rcases hl with hl | hl | hl | hl <;>
      · obtain ⟨k, text, -, rfl⟩ := exists_of_mem_openLines hl
        exact ⟨k, text, rfl⟩
  obtain ⟨k, text, rfl⟩ := hopen
  exact kindOutside_ne_fence text

include h

/-- The commands of a document are read from their section, wherever else its title may stand. A group
may be called like it; its heading comes behind. -/
theorem readContext_eq : readContext (sectionBody o "Context Loading") = p.context := by
  by_cases hcontext : p.context = []
  · -- the title may be the name of a group, but there is no fence in a group
    have hkinds := exhibits.kind_ne_fence hcontext
    have hbody : ∀ l ∈ sectionBody o "Context Loading", l.kind ≠ .fence := by
      rw [sectionBody]
      split
      · rename_i s hfound
        exact fun l hl => hkinds l ((body_sublist hfound).subset hl)
      · nofun
    rw [readContext, codeBlocks, codeBlocksFrom_of_no_fence hbody, hcontext]
    rfl
  · -- the section ends at the heading of the tasks, so all its rows are known
    have hhead : contextHead p.context = headingLine 2 "Context Loading".toList ::
        [[], "_Run before starting:_".toList, []] := if_neg hcontext
    have hlines := exhibits.lines
    rw [← List.append_assoc, hhead, openLines_cons m, List.cons_append, ← List.append_assoc _ ls]
      at hlines
    have hrows : ∀ l ∈ openLines (m + 1) [[], "_Run before starting:_".toList, []] ++ ls,
        l.heading? = none := by
      refine List.forall_mem_append.mpr ⟨heading?_openLines ?_ _, exhibits.verbatim.headings⟩
      simpa using ⟨RowLine.nil, rowLine_note, RowLine.nil⟩
    have hfound := sectionTitled?_rows hlines (by decide) (by decide)
      (exhibits.untitled_above (by decide) (by decide)) hrows (head_taskLines _ _)
    rw [sectionBody, hfound]
    exact exhibits.verbatim.readContext h.context _ _

/-- The status stands on the third line, and nothing above it has its marker. -/
theorem headerField?_status :
    headerField? o "Status" = some (2, p.spec.status.marker.toList) := by
  have htitle : ¬ fieldMarker "Status" <:+: '#' :: ' ' :: title :=
    fun hin => exhibits.noStatus ((marker_append_left (by decide : '*' ∉ ['#', ' '])).mp hin)
  rw [headerField?, exhibits.sectionBody_specification, exhibits.specified.noField _ _ (.inl rfl),
    Option.none_or, exhibits.lines, headLines, readField?_openLines_skip htitle,
    readField?_openLines_skip (by decide), readField?_openLines_cons,
    fieldValue?_fieldLine h.status.marker]

theorem headerField?_type : headerField? o "Type" = some (3, p.spec.kind.toList) := by
  have htitle : ¬ fieldMarker "Type" <:+: '#' :: ' ' :: title :=
    fun hin => exhibits.noType ((marker_append_left (by decide : '*' ∉ ['#', ' '])).mp hin)
  have hstatus : ¬ fieldMarker "Type" <:+: fieldLine "Status" p.spec.status.marker.toList := by
    rw [fieldLine_eq, marker_append_right h.status.marker.noStar, ← occursIn_iff]
    decide
  rw [headerField?, exhibits.sectionBody_specification, exhibits.specified.noField _ _ (.inr rfl),
    Option.none_or, exhibits.lines, headLines, readField?_openLines_skip htitle,
    readField?_openLines_skip (by decide), readField?_openLines_skip hstatus,
    readField?_openLines_cons, fieldValue?_fieldLine h.kind]

/-- The specification of a document is the plan's. -/
theorem readSpecification_eq : readSpecification o = p.spec := by
  have hstatus := ofWord_marker h.status
  cases hkind : p.spec.kind.toList with
  | nil => exact absurd (String.toList_eq_nil_iff.mp hkind) h.typed
  | cons c kind =>
    have hword : String.ofList (c :: kind) = p.spec.kind := by
      rw [← hkind, String.ofList_toList]
    obtain ⟨line, hgoal⟩ := exhibits.specified.goal (k + 1)
    rw [readSpecification, exhibits.headerField?_status h, exhibits.headerField?_type h,
      exhibits.sectionBody_specification, hgoal, exhibits.specified.criteria, hkind]
    simp only [String.ofList_toList, hword, hstatus]

end Exhibits

end Plan

/-! ## The document -/

/-- A task with everything that is written of it. How far it has got is not written, nor on which lines
it stands. -/
structure Task.Alike (t t' : Task) : Prop where
  number : t'.number = t.number
  id : t'.id = t.id
  name : t'.name = t.name
  context : t'.context = t.context
  steps : t'.steps = t.steps
  verify : t'.verify = t.verify

structure TaskGroup.Alike (g g' : TaskGroup) : Prop where
  name : g'.name = g.name
  tasks : List.Forall₂ Task.Alike g.tasks g'.tasks

/-- What is kept of a task without code quotes is everything that is written of it. -/
theorem Task.Kept.alike {t t' : Task} (h : t.Kept t')
    (noQuotes : codeQuote ∉ t.context.toList ∧ codeQuote ∉ t.verify.toList) : t.Alike t' where
  number := h.number
  id := h.id
  name := h.name
  context := h.context.mpr noQuotes.1
  steps := h.steps
  verify := h.verify.mpr noQuotes.2

theorem TaskGroup.Kept.alike {g g' : TaskGroup} (h : g.Kept g')
    (noQuotes : ∀ t ∈ g.tasks, codeQuote ∉ t.context.toList ∧ codeQuote ∉ t.verify.toList) :
    g.Alike g' := by
  refine ⟨h.name, ?_⟩
  have htasks := h.tasks
  generalize g.tasks = ts at htasks noQuotes
  generalize g'.tasks = ts' at htasks
  induction htasks with
  | nil => exact .nil
  | cons ht _ ih =>
    obtain ⟨hquotes, hrest⟩ := List.forall_mem_cons.mp noQuotes
    exact .cons (ht.alike hquotes) (ih hrest)

theorem Task.Alike.render_eq {t t' : Task} (h : t.Alike t') (hashes : String) :
    t'.render hashes = t.render hashes := by
  rw [Task.render, Task.render, Task.hasVerify, Task.hasVerify, h.number, h.name, h.context,
    h.steps, h.verify]

/-- Groups that are alike are written alike, as a group is written without its status. -/
theorem TaskGroup.Alike.render_eq {g g' : TaskGroup} (h : g.Alike g') (level : Nat)
    (withHeading : Bool) : g'.render level withHeading = g.render level withHeading := by
  have htasks : g'.tasks.map (Task.render (headingMark level)) =
      g.tasks.map (Task.render (headingMark level)) := by
    have halike := h.tasks
    generalize g.tasks = ts at halike
    generalize g'.tasks = ts' at halike
    induction halike with
    | nil => rfl
    | cons ht _ ih => rw [List.map_cons, List.map_cons, ht.render_eq, ih]
  rw [TaskGroup.render, TaskGroup.render, h.name, htasks]

namespace Plan

/-- Groups that are alike are written alike. -/
theorem renderTasks_of_alike {gs gs' : List TaskGroup} (h : List.Forall₂ TaskGroup.Alike gs gs') :
    renderTasks gs' = renderTasks gs := by
  cases h with
  | nil => rfl
  | @cons g g' gs gs' hg hgs =>
    have hrest : gs'.map (TaskGroup.render 3 true) = gs.map (TaskGroup.render 3 true) := by
      induction hgs with
      | nil => rfl
      | cons hg' _ ih => rw [List.map_cons, List.map_cons, hg'.render_eq, ih]
    rw [renderTasks, renderTasks, hg.name, hg.render_eq, hrest]

theorem render_of_same {p q : Plan} (spec : q.spec = p.spec) (context : q.context = p.context)
    (groups : List.Forall₂ TaskGroup.Alike p.groups q.groups) (title : String)
    (created : Option String) : q.render title created = p.render title created := by
  delta render
  rw [spec, context, renderTasks_of_alike groups]

theorem alike_of_kept {gs gs' : List TaskGroup} (h : List.Forall₂ TaskGroup.Kept gs gs')
    (noQuotes : ∀ g ∈ gs, ∀ t ∈ g.tasks,
      codeQuote ∉ t.context.toList ∧ codeQuote ∉ t.verify.toList) :
    List.Forall₂ TaskGroup.Alike gs gs' := by
  induction h with
  | nil => exact .nil
  | cons hg _ ih =>
    obtain ⟨hquotes, hrest⟩ := List.forall_mem_cons.mp noQuotes
    exact .cons (hg.alike hquotes) (ih hrest)

/-- Commands leave no fence open, and other lines have none. So the fences of a document are those of
its commands, in pairs. -/
theorem closed_of_verbatim {commands : List String} {ls : List Line} (verbatim : Verbatim commands ls)
    (head rows note : List (List Char)) (k m : Nat) : Outline.openAfter none
      ((openLines 0 head ++ openLines k rows) ++ (openLines m note ++ ls)) = none := by
  simp only [openAfter_append, openAfter_openLines, verbatim.closed]

theorem Exhibits.untitled_tasks {p : Plan} {o : Outline} {title : List Char}
    {day : Option (List Char)} {rows : List (List Char)} {k m : Nat} {ls : List Line} {n : Nat}
    (exhibits : Exhibits p o title day rows k m ls n) : ∀ l ∈ (openLines 0 (headLines p.spec title day) ++
    openLines k (headingLine 2 "Specification".toList :: rows)) ++
    (openLines m (contextHead p.context) ++ ls), Outline.isTitled "Tasks".toList l = false := by
  intro l hl
  rcases List.mem_append.mp hl with hl | hl
  · exact exhibits.untitled_above (by decide) (by decide) l hl
  rcases List.mem_append.mp hl with hl | hl
  · obtain ⟨j, text, htext, rfl⟩ := exists_of_mem_openLines hl
    unfold contextHead at htext
    split at htext
    · cases htext
    · rw [isTitled_openLine]
      simp only [List.mem_cons, List.not_mem_nil, or_false] at htext
      rcases htext with rfl | rfl | rfl | rfl <;> decide
  · rw [Outline.isTitled, exhibits.verbatim.headings l hl]
    rfl

/-- A title that can be written is neither the heading of a section nor a field in the line that it is
read from, which may have lost a carriage return. -/
theorem Title.exhibits {p : Plan} {o : Outline} {title : String} {day : Option (List Char)}
    {rows : List (List Char)} {k m : Nat} {ls : List Line} {n : Nat} (htitle : Title title)
    (specified : Specified p.spec rows) (empty : p.context = [] → ls = [])
    (verbatim : Verbatim p.context ls)
    (lines : o.lines = openLines 0 (headLines p.spec (readBack title.toList) day) ++
      (openLines k (headingLine 2 "Specification".toList :: rows) ++
        (openLines m (contextHead p.context) ++ (ls ++ openLines n (taskLines p.groups))))) :
    Exhibits p o (readBack title.toList) day rows k m ls n where
  other := by
    rw [trim_readBack htitle.oneLine]
    exact htitle.other
  noStatus := fun hin => htitle.noStatus (infix_of_readBack htitle.oneLine hin)
  noType := fun hin => htitle.noType (infix_of_readBack htitle.oneLine hin)
  specified := specified
  empty := empty
  verbatim := verbatim
  lines := lines

/-- Such an outline is that of a plan, but for its own text and for what belongs to a run. Its status stands
on the third line, below the title and a blank line. -/
theorem parse_of_exhibits {p : Plan} {text : String} {title : List Char} {day : Option (List Char)}
    {rows : List (List Char)} {k m : Nat} {ls : List Line} {n : Nat}
    (exhibits : Exhibits p (Outline.ofText text.toList) title day rows k m ls n) (h : p.Presentable) :
    ∃ q, parse text = .ok q ∧ q.text = text ∧ q.spec = p.spec ∧ q.context = p.context ∧
      q.statusLine = some 2 ∧ List.Forall₂ TaskGroup.Alike p.groups q.groups := by
  have hsplit := exhibits.lines
  rw [← List.append_assoc (openLines m _), ← List.append_assoc (openLines 0 _),
    ← List.append_assoc] at hsplit
  have hparse := parse_of_taskLines h.groups hsplit
    (closed_of_verbatim exhibits.verbatim _ _ _ _ _) exhibits.untitled_tasks
  refine ⟨_, hparse, rfl, exhibits.readSpecification_eq h, exhibits.readContext_eq h, ?status,
    alike_of_kept (kept_rereadGroups h.groups.groups (n + 2)) h.noQuotes⟩
  case status =>
    rw [ofGroups, exhibits.headerField?_status h]
    rfl

/-- A document is read as the plan that it was made of: specification, commands and tasks are what they
were, and the status stands on the third line. What is read makes the same document again. -/
theorem parse_render {p : Plan} {title : String} {created : Option String} (h : p.Presentable)
    (htitle : Title title) (hcreated : ∀ day ∈ created, '\n' ∉ day.toList) :
    ∃ q, parse (p.render title created) = .ok q ∧ q.text = p.render title created ∧
      q.spec = p.spec ∧ q.context = p.context ∧ q.statusLine = some 2 ∧
      List.Forall₂ TaskGroup.Alike p.groups q.groups ∧
      q.render title created = p.render title created := by
  obtain ⟨day, k, m, ls, n, hempty, hverbatim, hlines⟩ := h.outline_render htitle.oneLine hcreated
  have exhibits := htitle.exhibits h.specified hempty hverbatim hlines
  obtain ⟨q, hparse, htext, hspec, hcontext, hstatus, hgroups⟩ := parse_of_exhibits exhibits h
  exact ⟨q, hparse, htext, hspec, hcontext, hstatus, hgroups,
    render_of_same hspec hcontext hgroups title created⟩

/-- A plan with a group, a checklist, a command of two lines and a status of its own. Its texts look
like parts of a plan where they can: a criterion like a field, a group like a section, a task like
another one. -/
def reportPlan : Plan where
  spec := { goal := "Write it up", criteria := ["**Goal:** met", "Read twice"], kind := "Report",
            status := .other "ON_HOLD" }
  context := ["cat notes\nwc -l notes", "date"]
  groups := [TaskGroup.new "General", { TaskGroup.new "Context Loading" with
    tasks := [{ Task.new 3 "# Draft" with
      context := "notes", steps := ["**Verify:** nothing", "$ make draft"], verify := "test -s draft" },
      { Task.new 1 "Task 4: Print" with steps := ["Print"] }] }]

theorem parse_render_of_report :
    reportPlan.Presentable ∧ Title "Status: \x60\x60\x60" ∧
      (∀ day ∈ some "2024-02-29", '\n' ∉ day.toList) ∧
      ∃ q, parse (reportPlan.render "Status: \x60\x60\x60" (some "2024-02-29")) = .ok q ∧
        q.text = reportPlan.render "Status: \x60\x60\x60" (some "2024-02-29") ∧
        q.spec = reportPlan.spec ∧ q.context = reportPlan.context ∧ q.statusLine = some 2 ∧
        List.Forall₂ TaskGroup.Alike reportPlan.groups q.groups ∧
        q.render "Status: \x60\x60\x60" (some "2024-02-29") =
          reportPlan.render "Status: \x60\x60\x60" (some "2024-02-29") := by
  have hplan : reportPlan.Presentable := by decide +kernel
  have htitle : Title "Status: \x60\x60\x60" := by decide +kernel
  have hday : ∀ day ∈ some "2024-02-29", '\n' ∉ day.toList := by decide +kernel
  exact ⟨hplan, htitle, hday, parse_render hplan htitle hday⟩

end Plan

end Runbook
