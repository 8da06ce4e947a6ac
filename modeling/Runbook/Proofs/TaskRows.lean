import Runbook.Proofs.Outline
import Runbook.Proofs.Rows

/-!
# What the rows of a task say

The reader of a task goes through its rows once. It keeps in mind whether the label of the steps has been
seen, lets a later context replace an earlier one, and stops at the first verify command. What comes of this
can be said of the rows as a whole (`Describe`, `describe_readRows`):

* the rows that count are those above the verify command (`ownRows`);
* the context is the last one among them, and the command is the first one of all;
* the steps are the numbered items among them that stand below the label (`stepsBelow`).

The rows themselves are the lines between the heading of the task and the next heading, but for
verbatim text (`rowsUnder`, `rowsUnder_of_mem_blocks`). So all of a task is tied to lines of the text,
and a line that stands between two headings is a row of one task at most.
-/

set_option autoImplicit false

namespace Runbook.Plan

open Text Markdown

/-! ## Rows -/

/-- What stands behind a label, if a row begins with it. A row is a line with its number, and the blanks
around the line are of no account. -/
def behind? (label : String) (row : List Char × Nat) : Option (List Char) :=
  (fieldMarker label).isPrefixOf? (trim row.1)

/-- The rows that a task is made of. The verify command closes a task, so what stands below the first one
belongs to nobody, not even when it looks like a context or a step. -/
def ownRows (rows : List (List Char × Nat)) : List (List Char × Nat) :=
  rows.takeWhile fun row => (behind? "Verify" row).isNone

/-- The step that a row says, with the number of its line. -/
def stepOn? (row : List Char × Nat) : Option (List Char × Nat) :=
  (stepText? (trim row.1)).map (·, row.2)

/-- The steps below the label. A numbered item above the label is prose: it may well be part of what the task
is about. -/
def stepsBelow (rows : List (List Char × Nat)) : List (List Char × Nat) :=
  (rows.dropWhile fun row => (behind? "Steps" row).isNone).filterMap stepOn?

/-- A task holds what its rows say and nothing else. A text is empty when no row says it, which is why the
absence of a row needs no case of its own. -/
structure Describe (rows : List (List Char × Nat)) (t : Task) : Prop where
  context : t.context = String.ofList
    ((((ownRows rows).filterMap (behind? "Context")).getLast?).elim [] contextValue)
  steps : t.steps = (stepsBelow (ownRows rows)).map fun step => String.ofList step.1
  stepLines : t.stepLines = (stepsBelow (ownRows rows)).map (·.2)
  verify : t.verify = String.ofList ((rows.findSome? (behind? "Verify")).elim [] commandValue)

/-! ## Labels -/

/-- A label is no numbered item, as it begins with a star. -/
theorem stepText?_of_marker (label : String) (rest : List Char) :
    stepText? (fieldMarker label ++ rest) = none := by
  have hblank : isBlank '*' = false := by decide
  have hdigit : isDigit '*' = false := by decide
  simp [stepText?, cutNumber?, fieldMarker, hblank, hdigit]

section Labels

variable {row : List Char × Nat} {rest : List Char}

/-- A row that begins with one label begins with no other one, and is no step. -/
theorem behind?_other {label other : String} (mem : label ∈ rowLabels) (mem' : other ∈ rowLabels)
    (different : label ≠ other) (front : fieldMarker label <+: trim row.1) : behind? other row = none :=
  isPrefixOf?_eq_none_iff.mpr fun front' => different (label_unique mem mem' front front')

theorem stepOn?_of_front {label : String} (front : fieldMarker label <+: trim row.1) :
    stepOn? row = none := by
  obtain ⟨rest, hrest⟩ := front
  rw [stepOn?, ← hrest, stepText?_of_marker]
  rfl

/-- A row that the reader takes for a context is one, and is nothing else. The same is said of the other
rows below. -/
theorem behind?_of_context (told : rowOf (trim row.1) = .context rest) :
    behind? "Context" row = some rest ∧ behind? "Steps" row = none ∧ behind? "Verify" row = none ∧
      stepOn? row = none := by
  have heq := rowOf_eq_context told
  have hfront : fieldMarker "Context" <+: trim row.1 := ⟨rest, heq.symm⟩
  exact ⟨isPrefixOf?_eq_some_iff.mpr heq, behind?_other (by decide) (by decide) (by decide) hfront,
    behind?_other (by decide) (by decide) (by decide) hfront, stepOn?_of_front hfront⟩

theorem behind?_of_steps (told : rowOf (trim row.1) = .steps) :
    behind? "Context" row = none ∧ (∃ rest, behind? "Steps" row = some rest) ∧
      behind? "Verify" row = none ∧ stepOn? row = none := by
  have hfront := rowOf_eq_steps told
  refine ⟨behind?_other (by decide) (by decide) (by decide) hfront, ?_,
    behind?_other (by decide) (by decide) (by decide) hfront, stepOn?_of_front hfront⟩
  obtain ⟨rest, heq⟩ := hfront
  exact ⟨rest, isPrefixOf?_eq_some_iff.mpr heq.symm⟩

theorem behind?_of_verify (told : rowOf (trim row.1) = .verify rest) :
    behind? "Verify" row = some rest :=
  isPrefixOf?_eq_some_iff.mpr (rowOf_eq_verify told)

theorem behind?_of_other (told : rowOf (trim row.1) = .other) {label : String}
    (mem : label ∈ rowLabels) : behind? label row = none :=
  isPrefixOf?_eq_none_iff.mpr (rowOf_eq_other told label mem)

end Labels

/-! ## The reader -/

/-- The lines outside of verbatim text, as rows. They are all that a task is read from. -/
def freeRows (ls : List Line) : List (List Char × Nat) :=
  (ls.filter fun l => !l.isFenced).map fun l => (l.text, l.number)

/-- The steps that are found in rows when the label may have been seen already. -/
def stepsFrom (inSteps : Bool) (rows : List (List Char × Nat)) : List (List Char × Nat) :=
  if inSteps then rows.filterMap stepOn? else stepsBelow rows

/-- What the reader makes of a task in the middle of its rows. What the task holds already stays unless a
row says otherwise, and the steps of the rows come behind those there are. -/
structure Completes (inSteps : Bool) (t : Task) (rows : List (List Char × Nat)) (t' : Task) : Prop where
  context : t'.context = (((ownRows rows).filterMap (behind? "Context")).getLast?).elim t.context
    fun rest => String.ofList (contextValue rest)
  steps : t'.steps = t.steps ++ (stepsFrom inSteps (ownRows rows)).map fun step => String.ofList step.1
  stepLines : t'.stepLines = t.stepLines ++ (stepsFrom inSteps (ownRows rows)).map (·.2)
  verify : t'.verify = (rows.findSome? (behind? "Verify")).elim t.verify
    fun rest => String.ofList (commandValue rest)

theorem freeRows_cons_of_fenced {l : Line} (fenced : l.isFenced = true) (ls : List Line) :
    freeRows (l :: ls) = freeRows ls := by
  simp [freeRows, fenced]

theorem freeRows_cons_of_free {l : Line} (free : ¬ l.isFenced = true) (ls : List Line) :
    freeRows (l :: ls) = (l.text, l.number) :: freeRows ls := by
  simp [freeRows, free]

theorem ownRows_cons_of_none {row : List Char × Nat} (none : behind? "Verify" row = none)
    (rows : List (List Char × Nat)) : ownRows (row :: rows) = row :: ownRows rows := by
  rw [ownRows, List.takeWhile_cons_of_pos (by simp [none])]
  rfl

section Steps

variable {inSteps : Bool} {t t' : Task} {row : List Char × Nat} {rows : List (List Char × Nat)}
  {rest : List Char}

theorem stepsFrom_cons_of_none (label : behind? "Steps" row = none)
    (step : inSteps = true → stepOn? row = none) (rows : List (List Char × Nat)) :
    stepsFrom inSteps (row :: rows) = stepsFrom inSteps rows := by
  cases inSteps with
  | true => simp [stepsFrom, step rfl]
  | false => simp [stepsFrom, stepsBelow, label]

/-- The label itself is no step, so the steps are the same whether or not it was seen before. -/
theorem stepsFrom_cons_of_label (label : behind? "Steps" row = some rest) (step : stepOn? row = none)
    (rows : List (List Char × Nat)) : stepsFrom inSteps (row :: rows) = stepsFrom true rows := by
  cases inSteps with
  | true => simp [stepsFrom, step]
  | false => simp [stepsFrom, stepsBelow, label, step]

theorem Completes.context_row (told : rowOf (trim row.1) = .context rest)
    (completes : Completes inSteps { t with context := String.ofList (contextValue rest) } rows t') :
    Completes inSteps t (row :: rows) t' := by
  obtain ⟨hcontext, hlabel, hverify, hstep⟩ := behind?_of_context told
  have hsteps : stepsFrom inSteps (row :: ownRows rows) = stepsFrom inSteps (ownRows rows) :=
    stepsFrom_cons_of_none hlabel (fun _ => hstep) _
  refine ⟨?_, ?_, ?_, ?_⟩
  · -- the last context counts, and this is the last one when no other follows
    rw [ownRows_cons_of_none hverify, List.filterMap_cons_some hcontext, List.getLast?_cons,
      completes.context]
    cases ((ownRows rows).filterMap (behind? "Context")).getLast? <;> rfl
  · rw [ownRows_cons_of_none hverify, hsteps, completes.steps]
  · rw [ownRows_cons_of_none hverify, hsteps, completes.stepLines]
  · rw [List.findSome?_cons_of_isNone (by simp [hverify]), completes.verify]

theorem Completes.label_row (told : rowOf (trim row.1) = .steps) (completes : Completes true t rows t') :
    Completes inSteps t (row :: rows) t' := by
  obtain ⟨hcontext, ⟨rest, hlabel⟩, hverify, hstep⟩ := behind?_of_steps told
  have hsteps : stepsFrom inSteps (row :: ownRows rows) = stepsFrom true (ownRows rows) :=
    stepsFrom_cons_of_label hlabel hstep _
  refine ⟨?_, ?_, ?_, ?_⟩
  · rw [ownRows_cons_of_none hverify, List.filterMap_cons_none hcontext, completes.context]
  · rw [ownRows_cons_of_none hverify, hsteps, completes.steps]
  · rw [ownRows_cons_of_none hverify, hsteps, completes.stepLines]
  · rw [List.findSome?_cons_of_isNone (by simp [hverify]), completes.verify]

theorem Completes.verify_row (told : rowOf (trim row.1) = .verify rest) :
    Completes inSteps t (row :: rows) { t with verify := String.ofList (commandValue rest) } := by
  have hverify := behind?_of_verify told
  have hown : ownRows (row :: rows) = [] := by
    rw [ownRows, List.takeWhile_cons_of_neg (by simp [hverify])]
  refine ⟨?_, ?_, ?_, ?_⟩ <;>
    simp [hown, stepsFrom, stepsBelow, hverify]

theorem Completes.step_row {step : List Char} (told : rowOf (trim row.1) = .other)
    (read : stepText? (trim row.1) = some step)
    (completes : Completes true (t.addStep (String.ofList step) row.2) rows t') :
    Completes true t (row :: rows) t' := by
  have hverify : behind? "Verify" row = .none := behind?_of_other told (by decide)
  have hsteps : stepsFrom true (row :: ownRows rows) = (step, row.2) :: stepsFrom true (ownRows rows) := by
    simp [stepsFrom, stepOn?, read]
  refine ⟨?_, ?_, ?_, ?_⟩
  · rw [ownRows_cons_of_none hverify, List.filterMap_cons_none (behind?_of_other told (by decide)),
      completes.context]
    rfl
  · rw [ownRows_cons_of_none hverify, hsteps, completes.steps, Task.addStep,
      List.append_assoc]
    rfl
  · rw [ownRows_cons_of_none hverify, hsteps, completes.stepLines, Task.addStep,
      List.append_assoc]
    rfl
  · rw [List.findSome?_cons_of_isNone (by simp [hverify]), completes.verify]
    rfl

theorem Completes.other_row (told : rowOf (trim row.1) = .other)
    (none : inSteps = true → stepText? (trim row.1) = none) (completes : Completes inSteps t rows t') :
    Completes inSteps t (row :: rows) t' := by
  have hverify : behind? "Verify" row = .none := behind?_of_other told (by decide)
  have hstep : inSteps = true → stepOn? row = .none := fun h => by rw [stepOn?, none h]; rfl
  have hsteps := stepsFrom_cons_of_none (behind?_of_other told (by decide)) hstep (ownRows rows)
  refine ⟨?_, ?_, ?_, ?_⟩
  · rw [ownRows_cons_of_none hverify, List.filterMap_cons_none (behind?_of_other told (by decide)),
      completes.context]
  · rw [ownRows_cons_of_none hverify, hsteps, completes.steps]
  · rw [ownRows_cons_of_none hverify, hsteps, completes.stepLines]
  · rw [List.findSome?_cons_of_isNone (by simp [hverify]), completes.verify]

end Steps

/-- Row by row the reader does what the rows say. -/
theorem completes_readRows (inSteps : Bool) (t : Task) (ls : List Line) :
    Completes inSteps t (freeRows ls) (readRows inSteps t ls) := by
  fun_induction readRows inSteps t ls with
  | case1 inSteps t => constructor <;> cases inSteps <;> simp [freeRows, ownRows, stepsFrom, stepsBelow]
  | case2 inSteps t l ls fenced ih =>
    rw [freeRows_cons_of_fenced fenced]
    exact ih
  | case3 inSteps t l ls free row rest told ih =>
    rw [freeRows_cons_of_free free]
    exact ih.context_row told
  | case4 inSteps t l ls free row told ih =>
    rw [freeRows_cons_of_free free]
    exact ih.label_row told
  | case5 inSteps t l ls free row rest told =>
    rw [freeRows_cons_of_free free]
    exact .verify_row told
  | case6 inSteps t l ls free row told step read ih =>
    rw [freeRows_cons_of_free free]
    cases inSteps with
    | false => simp at read
    | true => exact ih.step_row told (by simpa using read)
  | case7 inSteps t l ls free row told none ih =>
    rw [freeRows_cons_of_free free]
    exact ih.other_row told fun seen => by simpa [seen] using none

/-- A task that is read from rows holds what the rows say. -/
theorem describe_readRows (number : Nat) (name : String) (ls : List Line) :
    Describe (freeRows ls) (readRows false (Task.new number name) ls) := by
  have hall := completes_readRows false (Task.new number name) ls
  refine ⟨hall.context.trans ?_, hall.steps, hall.stepLines, hall.verify.trans ?_⟩
  · cases ((ownRows (freeRows ls)).filterMap (behind? "Context")).getLast? <;> rfl
  · cases (freeRows ls).findSome? (behind? "Verify") <;> rfl

/-! ## Rows of the text -/

/-- A heading stands on a line of a text. -/
def HeadingOn (ls : List (List Char)) (row : List Char × Nat) : Prop :=
  Outside ls row.2 row.1 ∧ (parseHeading? row.1).isSome = true

instance (ls : List (List Char)) (row : List Char × Nat) : Decidable (HeadingOn ls row) :=
  inferInstanceAs (Decidable (_ ∧ _))

/-- The rows of the task whose heading this is: the lines below it, down to the next heading of whatever
level. Fences and what they enclose are passed over, a heading among them too. -/
def rowsUnder (ls : List (List Char)) (h : Heading) : List (List Char × Nat) :=
  ((ls.zipIdx.drop (h.line + 1)).takeWhile fun row => ¬ HeadingOn ls row).filter fun row =>
    Outside ls row.2 row.1

theorem isNone_heading?_lineAt (ls : List (List Char)) (row : List Char × Nat) :
    (lineAt ls row.2 row.1).heading?.isNone = decide (¬ HeadingOn ls row) := by
  rw [heading?_lineAt, Bool.eq_iff_iff, decide_eq_true_iff, HeadingOn]
  split
  · rename_i houtside
    simp [houtside]
  · rename_i hinside
    simp [hinside]

theorem not_isFenced_lineAt (ls : List (List Char)) (row : List Char × Nat) :
    (!(lineAt ls row.2 row.1).isFenced) = decide (Outside ls row.2 row.1) := by
  rw [Bool.eq_iff_iff, decide_eq_true_iff, Bool.not_eq_true', ← Bool.not_eq_true, isFenced_lineAt,
    Outside]
  simp

/-- The rows under a heading can be told from the text or from its outline. -/
theorem rowsUnder_eq (text : List Char) (h : Heading) :
    rowsUnder (lines text) h =
      freeRows (((Outline.ofText text).lines.drop (h.line + 1)).takeWhile (·.heading?.isNone)) := by
  rw [lines_ofText, ← List.map_drop, List.takeWhile_map, freeRows, List.filter_map, List.map_map,
    rowsUnder]
  have hrow : (fun l : Line => (l.text, l.number)) ∘
      (fun row : List Char × Nat => lineAt (lines text) row.2 row.1) = id := rfl
  have hheading : (fun l : Line => l.heading?.isNone) ∘
      (fun row : List Char × Nat => lineAt (lines text) row.2 row.1) =
        fun row => decide (¬ HeadingOn (lines text) row) :=
    funext (isNone_heading?_lineAt (lines text))
  have hfree : (fun l : Line => !l.isFenced) ∘
      (fun row : List Char × Nat => lineAt (lines text) row.2 row.1) =
        fun row => decide (Outside (lines text) row.2 row.1) :=
    funext (not_isFenced_lineAt (lines text))
  rw [hrow, hheading, hfree, List.map_id]

/-- A block is made of a line with its heading and the rows down to the next one. -/
theorem split_of_mem_blocks {ls : List Line} {b : Block} (mem : b ∈ blocks ls) :
    ∃ above l below, ls = above ++ l :: below ∧ l.heading? = some b.heading ∧
      b.rows = below.takeWhile (·.heading?.isNone) := by
  induction ls with
  | nil => cases mem
  | cons l ls ih =>
    have hlater : b ∈ blocks ls → ∃ above l' below, l :: ls = above ++ l' :: below ∧
        l'.heading? = some b.heading ∧ b.rows = below.takeWhile (·.heading?.isNone) := fun mem => by
      obtain ⟨above, l', below, rfl, hl', hrows⟩ := ih mem
      exact ⟨l :: above, l', below, rfl, hl', hrows⟩
    rw [blocks] at mem
    split at mem
    · rename_i h hheading
      rcases List.mem_cons.mp mem with rfl | mem
      · exact ⟨[], l, ls, rfl, hheading, rfl⟩
      · exact hlater mem
    · exact hlater mem

/-- The rows of a block of a section are those that stand under its heading in the text, because a section
ends at a heading or with the text. -/
theorem rowsUnder_of_mem_blocks {text title : List Char} {ends : SectionEnd} {s : Section} {b : Block}
    (found : (Outline.ofText text).sectionTitled? title ends = some s) (mem : b ∈ blocks s.body) :
    rowsUnder (lines text) b.heading = freeRows b.rows := by
  obtain ⟨above, top, behind, split⟩ := exists_splitAt found
  obtain ⟨front, l, rows, hbody, hheading, hrows⟩ := split_of_mem_blocks mem
  have hwhole : (Outline.ofText text).lines = (above ++ top :: front) ++ l :: (rows ++ behind) := by
    rw [split.lines, hbody]
    simp
  have hdrop : (Outline.ofText text).lines.drop (b.heading.line + 1) = rows ++ behind := by
    rw [line_of_heading? hheading, drop_of_split hwhole]
  rw [rowsUnder_eq, hdrop, hrows]
  cases behind with
  | nil => rw [List.append_nil]
  | cons next behind =>
    have hends := split.behind next rfl
    have hstop : next.heading?.isNone = false := by
      cases hnone : next.heading? with
      | none => simp [SectionEnd.endsAt, hnone] at hends
      | some _ => rfl
    rw [takeWhile_append_mark (p := fun l : Line => l.heading?.isNone) hstop]

end Runbook.Plan
