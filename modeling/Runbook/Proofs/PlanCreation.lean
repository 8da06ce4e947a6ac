import Runbook.Proofs.FileTree
import Runbook.Proofs.PlanTitle
import Runbook.Proofs.Presentation

/-!
# Plans that are made from a template

A new plan is a title, the goal as it is given, and what the template says. Nothing of the goal is escaped,
so it is the goal that decides what is read.

* Its first line stands behind the marker of the goal and is read up to a star (`goal_of_render`). The goal
  is kept only when it has no star and, but for blanks, ends with its first line (`PlainGoal`).
* Below the first line of such a goal there is nothing but blanks, and the document is read as that of a
  plan that can be presented (`parse_of_plainGoal`).

So the plan that is loaded from a new file is the one that was asked for when the goal is plain, and only
then (`load_created_iff`).
-/

set_option autoImplicit false

namespace Runbook

open Text Markdown

/-! ## The first line of a text -/

namespace Text

/-- The first piece ends at the first separator, and the others are made of what stands behind. So a
goal of several lines is known by its first line and a rest. -/
theorem exists_pieces (sep : Char) (cs : List Char) :
    ∃ ps, pieces sep cs = cs.takeWhile (· ≠ sep) :: ps ∧
      ∀ p ∈ ps, ∀ c ∈ p, c ∈ cs.dropWhile (· ≠ sep) := by
  induction cs with
  | nil => exact ⟨[], rfl, nofun⟩
  | cons d cs ih =>
    by_cases hd : d = sep
    · refine ⟨pieces sep cs, ?_, fun p hp c hc => ?_⟩
      · rw [pieces, if_pos hd, List.takeWhile_cons_of_neg (by simpa using hd)]
      · rw [List.dropWhile_cons_of_neg (by simpa using hd)]
        exact List.mem_cons_of_mem _ (mem_of_mem_piece hp hc)
    · obtain ⟨ps, hps, hmem⟩ := ih
      refine ⟨ps, ?_, fun p hp c hc => ?_⟩
      · rw [pieces, if_neg hd, hps, List.takeWhile_cons_of_pos (by simpa using hd)]
      · rw [List.dropWhile_cons_of_pos (by simpa using hd)]
        exact hmem p hp c hc

theorem mem_of_mem_readBack {c : Char} {l : List Char} (oneLine : '\n' ∉ l) (h : c ∈ readBack l) :
    c ∈ l := by
  rcases append_readBack oneLine with heq | heq
  · rwa [heq]
  · rw [heq]
    exact List.mem_append_left _ h

/-- Trimming takes nothing away but blanks, so two texts that are trimmed to the same have as many other
characters. -/
theorem countP_trim (cs : List Char) : (trim cs).countP (!isBlank ·) = cs.countP (!isBlank ·) := by
  have hzero : ∀ {a : List Char}, Blank a → a.countP (!isBlank ·) = 0 := fun ha =>
    List.countP_eq_zero.mpr fun c hc => by simp [ha c hc]
  obtain ⟨a, b, ha, hb, hcs⟩ := exists_trim cs
  have hcount := congrArg (List.countP (!isBlank ·)) hcs
  rw [List.countP_append, List.countP_append, hzero ha, hzero hb] at hcount
  omega

/-- What can be left out without a difference to the trimmed text is blank. -/
theorem blank_of_trim_append {a b : List Char} (h : trim a = trim (a ++ b)) : Blank b := by
  have hcount := congrArg (List.countP (!isBlank ·)) h
  rw [countP_trim, countP_trim, List.countP_append] at hcount
  have hzero : b.countP (!isBlank ·) = 0 := by omega
  intro c hc
  simpa using List.countP_eq_zero.mp hzero c hc

end Text

namespace Plan

/-! ## Goals -/

def firstLine (cs : List Char) : List Char := cs.takeWhile (· ≠ '\n')

/-- A goal that is read as it is given, but for the blanks around it. A star would end it, since the
next label begins with one, and so would the end of its first line. -/
@[mk_iff]
structure PlainGoal (goal : String) : Prop where
  noStar : '*' ∉ goal.toList
  line : trim (firstLine goal.toList) = trim goal.toList

instance (goal : String) : Decidable (PlainGoal goal) := decidable_of_iff' _ (plainGoal_iff goal)

theorem feed_not_mem_firstLine (cs : List Char) : '\n' ∉ firstLine cs := by
  intro hmem
  simpa using List.mem_takeWhile_imp hmem

/-- Behind the first line of a plain goal there are only blanks. -/
theorem PlainGoal.blank {goal : String} (h : PlainGoal goal) :
    Blank (goal.toList.dropWhile (· ≠ '\n')) := by
  have hline := h.line
  conv at hline => rhs; rw [← List.takeWhile_append_dropWhile (p := (· ≠ '\n')) (l := goal.toList)]
  exact blank_of_trim_append hline

theorem PlainGoal.fieldText {goal : String} (h : PlainGoal goal) : FieldText (trimmed goal) := by
  refine ⟨⟨?_, ?_⟩, ?_⟩
  · rw [trimmed, String.toList_ofList, ← h.line]
    exact fun hmem => feed_not_mem_firstLine _ (mem_of_mem_trim hmem)
  · rw [trimmed, String.toList_ofList, trim_trim]
  · rw [trimmed, String.toList_ofList]
    exact fun hmem => h.noStar (mem_of_mem_trim hmem)

/-- The value that is read is the whole goal for plain goals only. What is lost at a star or at the end
of the line is not blank, so it is missed. -/
theorem plainGoal_of_read {goal : String}
    (h : trim ((readBack (firstLine goal.toList)).takeWhile (· ≠ '*')) = trim goal.toList) :
    PlainGoal goal := by
  have hfeed := feed_not_mem_firstLine goal.toList
  have hgoal : '*' ∉ goal.toList := by
    obtain ⟨a, b, ha, hb, hcs⟩ := exists_trim goal.toList
    have hstar : ∀ {cs : List Char}, Blank cs → '*' ∉ cs := fun hcs hmem =>
      not_blank_of_mem hmem (by decide) hcs
    rw [hcs, List.mem_append, List.mem_append, not_or, not_or]
    refine ⟨⟨hstar ha, fun hmem => ?_⟩, hstar hb⟩
    rw [← h] at hmem
    simpa using List.mem_takeWhile_imp (mem_of_mem_trim hmem)
  have hline : '*' ∉ readBack (firstLine goal.toList) := fun hmem =>
    hgoal ((List.takeWhile_sublist _).subset (mem_of_mem_readBack hfeed hmem))
  rw [takeWhile_no_star hline, trim_readBack hfeed] at h
  exact ⟨hgoal, h⟩

/-! ## The document -/

/-- The lines that a goal is written on, with those above and below it. A goal that has line feeds takes
up more than one. -/
def goalLines (goal : List Char) : List (List Char) :=
  [] :: (pieces '\n' (fieldMarker "Goal" ++ ' ' :: goal) ++ [[]])

theorem endLines_goalLines (goal : List Char) :
    endLines (goalLines goal) = endLines (goalFront goal [[]]) := by
  rw [goalLines, goalFront, endLines_cons, endLines_append, endLines_pieces]
  simp

/-- They are read as the first line of the goal and lines of what stands behind it. The latter are blank
for a plain goal, and then no reader sees them. -/
theorem exists_goalFront (goal : List Char) :
    ∃ below, (goalLines goal).map readBack = goalFront (readBack (firstLine goal)) below ∧
      ∀ l ∈ below, ∀ c ∈ l, c ∈ goal.dropWhile (· ≠ '\n') := by
  have hwhole := List.append_cons (fieldMarker "Goal") ' ' goal
  have hfront : ∀ c ∈ fieldMarker "Goal" ++ [' '], decide (c ≠ '\n') = true :=
    List.all_eq_true.mp (by decide)
  obtain ⟨ps, hps, hmem⟩ := exists_pieces '\n' (fieldMarker "Goal" ++ ' ' :: goal)
  have hfeed : ∀ p ∈ ps, '\n' ∉ p := fun p hp =>
    not_mem_piece (hps ▸ List.mem_cons_of_mem _ hp : p ∈ pieces '\n' (fieldMarker "Goal" ++ ' ' :: goal))
  rw [hwhole, List.takeWhile_append_of_pos hfront, ← firstLine] at hps
  rw [hwhole, List.dropWhile_append_of_pos hfront] at hmem
  refine ⟨(ps ++ [[]]).map readBack, ?_, fun l hl c hc => ?_⟩
  · have hread : readBack ((fieldMarker "Goal" ++ [' ']) ++ firstLine goal) =
        (fieldMarker "Goal" ++ [' ']) ++ readBack (firstLine goal) :=
      readBack_append (by decide) (by decide) (feed_not_mem_firstLine goal)
    rw [goalLines, hwhole, hps, List.map_cons, List.cons_append, List.map_cons, hread,
      RowLine.nil.toUnbroken.readBack, ← List.append_cons, goalFront]
  · obtain ⟨p, hp, rfl⟩ := List.mem_map.mp hl
    rcases List.mem_append.mp hp with hp | hp
    · exact hmem p hp c (mem_of_mem_readBack (hfeed p hp) hc)
    · rw [List.mem_singleton.mp hp, RowLine.nil.toUnbroken.readBack] at hc
      cases hc

theorem feed_not_mem_goalLines (goal : List Char) : ∀ l ∈ goalLines goal, '\n' ∉ l := by
  intro l hl
  simp only [goalLines, List.mem_cons, List.mem_append, List.not_mem_nil, or_false] at hl
  rcases hl with rfl | hl | rfl
  · simp
  · exact not_mem_piece hl
  · simp

/-- A goal makes no fence on its first line, which begins with its marker, so only the lines behind it
matter. -/
theorem isFence_goalFront (goal : List Char) {below : List (List Char)}
    (blank : ∀ l ∈ below, Blank l) : ∀ l ∈ goalFront goal below, isFence l = false := by
  intro l hl
  simp only [goalFront, List.mem_cons] at hl
  rcases hl with rfl | rfl | hl
  · exact isFence_nil
  · exact isFence_of_head (by decide) (by decide) _
  · exact isFence_of_blank (blank l hl)

/-- The goal of a specification is read from its second line, whatever follows it. The rest of the
document may be broken by the goal as badly as can be. -/
theorem goal_of_lines {text : List Char} {spec : Specification} {title : List Char}
    {day : Option (List Char)} {goal : List Char} {rest : List (List Char)}
    (other : sameIgnoringCase (trim title) "Specification".toList = false)
    (hlines : lines text = (headLines spec title day ++
      headingLine 2 "Specification".toList :: goalFront goal []) ++ rest) :
    (readSpecification (Outline.ofText text)).goal =
      String.ofList (trim (goal.takeWhile (· ≠ '*'))) := by
  have hopen : ∀ l ∈ headLines spec title day ++
      headingLine 2 "Specification".toList :: goalFront goal [], isFence l = false := by
    refine List.forall_mem_append.mpr ⟨noFence_headLines spec title day, List.forall_mem_cons.mpr ⟨?_, ?_⟩⟩
    · exact Presentable.written_specificationLine.noFence
    · exact isFence_goalFront goal (by simp)
  have hheadings : ∀ k, ∀ l ∈ openLines k (goalFront goal []), l.heading? = none := by
    intro k l hl
    obtain ⟨j, text, htext, rfl⟩ := exists_of_mem_openLines hl
    rw [heading?_openLine, parseHeading?_goalFront goal (by simp) text htext]
    rfl
  have houtline := scan_open hopen 0 rest
  rw [← hlines, openLines_append, openLines_cons, List.append_assoc, List.cons_append] at houtline
  have hfound := sectionTitled?_front (o := Outline.ofText text) houtline (by decide) (by decide)
    (untitled_headLines other) (hheadings _)
  simp only [readSpecification, sectionBody, hfound, readField?_goalFront]

namespace Presentable

section Goal

variable {p : Plan} (h : p.Presentable) (goal : String) {title : String} (htitle : Title title)
  {created : Option String} (hcreated : ∀ day ∈ created, '\n' ∉ day.toList)
include h htitle hcreated

/-- The lines of the document of a plan that has been given another goal, whatever the goal is. They
differ from those of the plan itself only where the goal is written. -/
theorem lines_render : ∃ day below, (∀ l ∈ below, ∀ c ∈ l, c ∈ goal.toList.dropWhile (· ≠ '\n')) ∧
    lines (({ p with spec := { p.spec with goal } } : Plan).render title created).toList =
      (headLines p.spec (readBack title.toList) day ++
        (headingLine 2 "Specification".toList ::
          (goalFront (readBack (firstLine goal.toList)) below ++ criteriaLines p.spec.criteria) ++
            contextHead p.context)) ++ (p.context.flatMap commandLines ++ taskLines p.groups) := by
  obtain ⟨below, hfront, hbelow⟩ := exists_goalFront goal.toList
  have hcriteria := h.rows_criteriaLines
  have hread := map_readBack fun l hl => (hcriteria l hl).toUnbroken
  have hday : ∀ d ∈ created.map String.toList, '\n' ∉ d := by
    simpa using hcreated
  have hlines := h.lines_document
    (List.forall_mem_append.mpr
      ⟨feed_not_mem_goalLines goal.toList, fun l hl => (hcriteria l hl).noFeed⟩) htitle.oneLine hday
  rw [List.map_append, hfront, hread] at hlines
  refine ⟨_, below, hbelow, Eq.trans (congrArg lines ?_) hlines⟩
  have hrows : endLines (goalLines goal.toList) ++ endLines (criteriaLines p.spec.criteria) =
      endLines (specificationRows { p.spec with goal }) := by
    rw [endLines_goalLines, ← endLines_append]
    rfl
  rw [toList_render]
  simp only [openPart, List.cons_append, endLines_append, endLines_cons, hrows]
  rfl

/-- The goal that is read ends with the first line of the one that is given, and before a star. Nothing
is escaped on the way, so this is all that can be said of a goal that is not plain. -/
theorem goal_of_render : (readSpecification (Outline.ofText
    (({ p with spec := { p.spec with goal } } : Plan).render title created).toList)).goal =
      String.ofList (trim ((readBack (firstLine goal.toList)).takeWhile (· ≠ '*'))) := by
  obtain ⟨day, below, -, hlines⟩ := h.lines_render goal htitle hcreated
  have hother : sameIgnoringCase (trim (readBack title.toList)) "Specification".toList = false := by
    rw [trim_readBack htitle.oneLine]
    exact htitle.other "Specification" (by decide)
  have hsplit : ∀ goal : List Char, goalFront goal below = goalFront goal [] ++ below := fun _ => rfl
  rw [hsplit, List.append_assoc (goalFront _ []), ← List.cons_append, List.append_assoc (_ :: _),
    ← List.append_assoc (headLines _ _ _), List.append_assoc (_ ++ _)] at hlines
  exact goal_of_lines hother hlines

/-- With a plain goal the document is that of a plan, and the plan is read. -/
theorem parse_of_plainGoal (plain : PlainGoal goal) : ∃ q,
    parse (({ p with spec := { p.spec with goal } } : Plan).render title created) = .ok q ∧
      q.spec = { p.spec with goal := trimmed goal } ∧ q.context = p.context ∧
      List.Forall₂ TaskGroup.Alike p.groups q.groups := by
  obtain ⟨day, below, hbelow, hlines⟩ := h.lines_render goal htitle hcreated
  have hblank : ∀ l ∈ below, Blank l := fun l hl c hc => plain.blank c (hbelow l hl c hc)
  have hfeed := feed_not_mem_firstLine goal.toList
  have hstar : '*' ∉ readBack (firstLine goal.toList) := fun hmem =>
    plain.noStar ((List.takeWhile_sublist _).subset (mem_of_mem_readBack hfeed hmem))
  have htrim : trim (readBack (firstLine goal.toList)) = (trimmed goal).toList := by
    rw [trim_readBack hfeed, plain.line, trimmed, String.toList_ofList]
  have hplan : ({ p with spec := { p.spec with goal := trimmed goal } } : Plan).Presentable :=
    { h with goal := plain.fieldText }
  have hspecified := hplan.specified_of_goal hstar htrim hblank
  have hnoFence := List.forall_mem_append.mpr ⟨isFence_goalFront (readBack (firstLine goal.toList)) hblank,
    fun l hl => (h.rows_criteriaLines l hl).noFence⟩
  obtain ⟨k, m, ls, n, hempty, hverbatim, houtline⟩ := h.outline_document hnoFence hlines
  obtain ⟨q, hparse, -, hspec, hcontext, -, hgroups⟩ :=
    parse_of_exhibits (htitle.exhibits hspecified hempty hverbatim houtline) hplan
  exact ⟨q, hparse, hspec, hcontext, hgroups⟩

end Goal

end Presentable

end Plan

/-! ## Files -/

/-- Whatever the goal is, the rest of a template can be presented: the texts of templates are known. -/
theorem Template.presentable_plan (template : Template) : (template.plan "").Presentable := by
  cases template <;> decide +kernel

namespace Plan

/-- The plan is that of a template, with a goal but for the blanks around it. Its tasks are those of the
template but for the lines their steps stand on, which depend on the document. -/
structure AsAsked (p : Plan) (template : Template) (goal : String) : Prop where
  goal : p.spec.goal = trimmed goal
  status : p.spec.status = .draft
  kind : p.spec.kind = template.label
  criteria : p.spec.criteria = template.criteria
  context : p.context = template.context
  general : ∃ g, p.groups = [g] ∧ g.name = TaskGroup.general ∧
    List.Forall₂ Task.Alike template.tasks g.tasks

section Create

variable {t t' : Files.Tree} {directory path : String} {template : Template} {name goal day : String}
  (oneLine : '\n' ∉ day.toList)
  (created : create t directory template name goal day = (t', .ok path))
include oneLine created

/-- A plan that says what was asked for says the whole goal, so the goal was plain. -/
theorem plainGoal_of_load {p : Plan} (loaded : load t' path = .ok p) (asked : p.AsAsked template goal) :
    PlainGoal goal := by
  obtain ⟨q, hparse, rfl⟩ := (load_eq_ok_iff (readText_of_create created)).mp loaded
  obtain ⟨s, groups, -, -, -, rfl⟩ := parse_eq_ok_iff.mp hparse
  have hday : ∀ d ∈ some day, '\n' ∉ d.toList := by
    simpa using oneLine
  have hread := template.presentable_plan.goal_of_render goal (template.sound_title name) hday
  exact plainGoal_of_read (String.ofList_injective (hread.symm.trans asked.goal))

/-- With a plain goal the new file can be loaded, and the plan in it says what was asked for. -/
theorem exists_load_of_plainGoal (plain : PlainGoal goal) :
    ∃ p, load t' path = .ok p ∧ p.AsAsked template goal := by
  have hday : ∀ d ∈ some day, '\n' ∉ d.toList := by
    simpa using oneLine
  obtain ⟨q, hparse, hspec, hcontext, hgroups⟩ :=
    template.presentable_plan.parse_of_plainGoal goal (template.sound_title name) hday plain
  refine ⟨_, (load_eq_ok_iff (readText_of_create created)).mpr ⟨q, hparse, rfl⟩, ?_⟩
  obtain ⟨g, gs, halike, hnone, hlist⟩ := List.forall₂_cons_left_iff.mp hgroups
  rw [List.forall₂_nil_left_iff.mp hnone] at hlist
  exact {
    goal := congrArg Specification.goal hspec
    status := congrArg Specification.status hspec
    kind := congrArg Specification.kind hspec
    criteria := congrArg Specification.criteria hspec
    context := hcontext
    general := ⟨g, hlist, halike.name, halike.tasks⟩ }

/-- The plan that is loaded from a new file says what was asked for when the goal is plain, and only
then. It makes no difference what the plan is called, or when it was made. -/
theorem load_created_iff :
    (∃ p, load t' path = .ok p ∧ p.AsAsked template goal) ↔ PlainGoal goal :=
  ⟨fun ⟨_, loaded, asked⟩ => plainGoal_of_load oneLine created loaded asked,
    exists_load_of_plainGoal oneLine created⟩

end Create

/-- The tree in which a plan with a goal has been made. -/
def areaTree (goal : String) : Files.Tree :=
  (create {} "plans" .feature "Area" goal "2025-01-15").1

/-- The blanks around a goal do no harm, be there ever so many lines of them. -/
theorem load_created_area :
    '\n' ∉ "2025-01-15".toList ∧
      create {} "plans" .feature "Area" " Reach 25\n \n" "2025-01-15" =
        (areaTree " Reach 25\n \n", .ok "plans/2025-01-15-area.md") ∧
      ∃ p, load (areaTree " Reach 25\n \n") "plans/2025-01-15-area.md" = .ok p ∧
        p.AsAsked .feature " Reach 25\n \n" := by
  have hday : '\n' ∉ "2025-01-15".toList := by decide
  have hcreated : create {} "plans" .feature "Area" " Reach 25\n \n" "2025-01-15" =
      (areaTree " Reach 25\n \n", .ok "plans/2025-01-15-area.md") :=
    Prod.ext rfl (by decide +kernel)
  exact ⟨hday, hcreated, (load_created_iff hday hcreated).mpr (by decide)⟩

/-- A star ends a goal, and a plan is made all the same. It is found and read without complaint, and
asks for less than it should. -/
theorem not_asAsked_area :
    create {} "plans" .feature "Area" "Reach 5 * 5" "2025-01-15" =
        (areaTree "Reach 5 * 5", .ok "plans/2025-01-15-area.md") ∧
      ¬ ∃ p, load (areaTree "Reach 5 * 5") "plans/2025-01-15-area.md" = .ok p ∧
        p.AsAsked .feature "Reach 5 * 5" := by
  have hday : '\n' ∉ "2025-01-15".toList := by decide
  have hcreated : create {} "plans" .feature "Area" "Reach 5 * 5" "2025-01-15" =
      (areaTree "Reach 5 * 5", .ok "plans/2025-01-15-area.md") :=
    Prod.ext rfl (by decide +kernel)
  refine ⟨hcreated, ?_⟩
  rintro ⟨p, hloaded, hasked⟩
  exact absurd (plainGoal_of_load hday hcreated hloaded hasked) (by decide)

end Plan

end Runbook
