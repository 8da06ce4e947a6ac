import Runbook.Plan.Parser
import Runbook.Proofs.Boxes
import Runbook.Proofs.Occurrences

/-!
# Titles and rows

What the reader of a plan finds out about one line, said without the order of its cuts: which titles are
those of tasks (`taskTitle?_eq_some_iff`), and what a row tells of its task (`rowOf_eq_iff`). No label is
the beginning of another one (`label_unique`), so it does not matter in which order the labels are tried.
-/

set_option autoImplicit false

namespace Runbook.Plan

open Text Markdown

/-! ## Titles -/

/-- The title of a task: the word, blanks, digits, a colon, and more behind it. The digits are those of
any script; whether they are a number that can be stored is another question, and one that refuses a
text where this one only says that the heading is of a group. -/
structure IsTitle (title digits behind : List Char) : Prop where
  eq : ∃ gap, Blank gap ∧ gap ≠ [] ∧ title = "Task".toList ++ gap ++ digits ++ ':' :: behind
  some : digits ≠ []
  digits : ∀ d ∈ digits, isDigit d = true
  more : behind ≠ []

/-- What the cuts find is a title. The name is trimmed, so what stands behind the colon is not
determined by it. -/
theorem isTitle_of_taskTitle? {title digits name : List Char}
    (h : taskTitle? title = some (digits, name)) :
    ∃ behind, IsTitle title digits behind ∧ name = trim behind := by
  unfold taskTitle? at h
  split at h
  · rename_i c behind hprefix
    simp only at h
    split at h
    · rename_i name' hname
      split at h
      · rename_i hsound
        obtain ⟨hblank, hsome, hmore⟩ := hsound
        cases h
        have hword : (trimStart (c :: behind)).takeWhile isDigit ++ ':' :: name' =
            trimStart (c :: behind) := by
          rw [← hname, List.takeWhile_append_dropWhile]
        have hgap : (c :: behind).takeWhile isBlank ≠ [] := by
          rw [List.takeWhile_cons_of_pos hblank]
          exact List.cons_ne_nil _ _
        have htitle : title = "Task".toList ++ (c :: behind).takeWhile isBlank ++
            (trimStart (c :: behind)).takeWhile isDigit ++ ':' :: name' := by
          rw [List.append_assoc, hword, List.append_assoc, takeWhile_append_trimStart]
          exact isPrefixOf?_eq_some_iff.mp hprefix
        exact ⟨name', ⟨⟨_, blank_takeWhile _, hgap, htitle⟩, hsome,
          fun d hd => List.mem_takeWhile_imp hd, hmore⟩, rfl⟩
      · cases h
    · cases h
  · cases h

/-- However a title is composed, the cuts find its parts: the gap takes all the blanks and the digits
end at the colon, so there is only one way to cut. -/
theorem taskTitle?_of_isTitle {title digits behind : List Char} (h : IsTitle title digits behind) :
    taskTitle? title = some (digits, trim behind) := by
  obtain ⟨gap, hgap, hsome, htitle⟩ := h.eq
  obtain ⟨c, gap, rfl⟩ := List.exists_cons_of_ne_nil hsome
  have hprefix : "Task".toList.isPrefixOf? title =
      some (c :: (gap ++ digits ++ ':' :: behind)) := by
    rw [isPrefixOf?_eq_some_iff, htitle]
    simp
  have hword : trimStart (c :: (gap ++ digits ++ ':' :: behind)) = digits ++ ':' :: behind := by
    have hfront := trimStart_append_of_blank hgap (digits ++ ':' :: behind)
    rw [List.cons_append, ← List.append_assoc] at hfront
    rw [hfront, trimStart_eq_self_iff]
    exact head_digits_append h.some h.digits _
  have hcolon : ∀ d, (':' :: behind).head? = some d → isDigit d = false := by
    intro d hd
    rw [← Option.some.inj hd]
    decide
  rw [taskTitle?, hprefix]
  simp only [hword, takeWhile_append_stop h.digits hcolon, dropWhile_append_stop h.digits hcolon]
  exact if_pos ⟨hgap c List.mem_cons_self, h.some, h.more⟩

theorem taskTitle?_eq_some_iff {title digits name : List Char} :
    taskTitle? title = some (digits, name) ↔
      ∃ behind, IsTitle title digits behind ∧ name = trim behind := by
  refine ⟨isTitle_of_taskTitle?, ?_⟩
  rintro ⟨behind, htitle, rfl⟩
  exact taskTitle?_of_isTitle htitle

/-! ## Rows -/

/-- The labels that rows are told by. The order is that in which the reader tries them. -/
def rowLabels : List String := ["Context", "Steps", "Verify"]

/-- Of two labels that a row begins with, one would be the beginning of the other, and no label is. So
the reader may try them in any order. -/
theorem label_unique {label other : String} (mem : label ∈ rowLabels) (mem' : other ∈ rowLabels)
    {row : List Char} (h : fieldMarker label <+: row) (h' : fieldMarker other <+: row) :
    label = other := by
  have hall : ∀ label ∈ rowLabels, ∀ other ∈ rowLabels,
      (fieldMarker label).isPrefixOf (fieldMarker other) = true → label = other := by decide
  rcases List.prefix_or_prefix_of_prefix h h' with h | h
  · exact hall label mem other mem' (List.isPrefixOf_iff_prefix.mpr h)
  · exact (hall other mem' label mem (List.isPrefixOf_iff_prefix.mpr h)).symm

/-- What a row tells of a task: what stands behind the label that it begins with, if it begins with one.
A row without a label tells nothing by itself; whether it is a step depends on the rows above it, and so
is left to the reader of the rows. -/
inductive Tells (row : List Char) : Row → Prop
  | context {rest : List Char} (eq : row = fieldMarker "Context" ++ rest) : Tells row (.context rest)
  | steps (front : fieldMarker "Steps" <+: row) : Tells row .steps
  | verify {rest : List Char} (eq : row = fieldMarker "Verify" ++ rest) : Tells row (.verify rest)
  | other (none : ∀ label ∈ rowLabels, ¬ fieldMarker label <+: row) : Tells row .other

/-- The reader tries the labels in turn, and what it settles on is what the row tells. -/
theorem tells_rowOf (row : List Char) : Tells row (rowOf row) := by
  rw [rowOf]
  cases hcontext : (fieldMarker "Context").isPrefixOf? row with
  | some rest => exact .context (isPrefixOf?_eq_some_iff.mp hcontext)
  | none =>
    by_cases hsteps : (fieldMarker "Steps").isPrefixOf row = true
    · rw [if_pos hsteps]
      exact .steps (List.isPrefixOf_iff_prefix.mp hsteps)
    · rw [if_neg hsteps]
      cases hverify : (fieldMarker "Verify").isPrefixOf? row with
      | some rest => exact .verify (isPrefixOf?_eq_some_iff.mp hverify)
      | none =>
        rw [isPrefixOf?_eq_none_iff] at hcontext hverify
        rw [List.isPrefixOf_iff_prefix] at hsteps
        refine .other fun label hlabel => ?_
        simp only [rowLabels, List.mem_cons, List.not_mem_nil, or_false] at hlabel
        rcases hlabel with rfl | rfl | rfl <;> assumption

/-- A row tells one thing only. Each case needs that the other labels are not found first, and
`label_unique` has that. -/
theorem Tells.rowOf_eq {row : List Char} {r : Row} (h : Tells row r) : rowOf row = r := by
  have hother : ∀ label ∈ rowLabels, fieldMarker label <+: row → ∀ other ∈ rowLabels, label ≠ other →
      ¬ fieldMarker other <+: row :=
    fun label mem hlabel other mem' different h => different (label_unique mem mem' hlabel h)
  rw [rowOf]
  cases h with
  | context eq => rw [eq, isPrefixOf?_append]
  | steps front =>
    rw [isPrefixOf?_eq_none_iff.mpr (hother "Steps" (by decide) front "Context" (by decide) (by decide))]
    exact if_pos (List.isPrefixOf_iff_prefix.mpr front)
  | verify eq =>
    have hnone := hother "Verify" (by decide) ⟨_, eq.symm⟩
    rw [isPrefixOf?_eq_none_iff.mpr (hnone "Context" (by decide) (by decide)), eq,
      isPrefixOf?_append]
    exact if_neg (eq ▸ mt List.isPrefixOf_iff_prefix.mp (hnone "Steps" (by decide) (by decide)))
  | other none =>
    rw [isPrefixOf?_eq_none_iff.mpr (none "Context" (by decide)),
      isPrefixOf?_eq_none_iff.mpr (none "Verify" (by decide))]
    exact if_neg (mt List.isPrefixOf_iff_prefix.mp (none "Steps" (by decide)))

theorem rowOf_eq_iff {row : List Char} {r : Row} : rowOf row = r ↔ Tells row r :=
  ⟨fun h => h ▸ tells_rowOf row, Tells.rowOf_eq⟩

theorem rowOf_context (rest : List Char) :
    rowOf (fieldMarker "Context" ++ rest) = .context rest :=
  rowOf_eq_iff.mpr (.context rfl)

theorem rowOf_steps : rowOf (fieldMarker "Steps") = .steps :=
  rowOf_eq_iff.mpr (.steps (List.prefix_refl _))

theorem rowOf_verify (rest : List Char) :
    rowOf (fieldMarker "Verify" ++ rest) = .verify rest :=
  rowOf_eq_iff.mpr (.verify rfl)

/-- A row that does not begin with a star has no label. This is how the rows of a step are known without
a look at what the step says. -/
theorem rowOf_of_head {c : Char} (h : c ≠ '*') (cs : List Char) : rowOf (c :: cs) = .other :=
  rowOf_eq_iff.mpr (.other fun _ _ hprefix => h (List.cons_prefix_cons.mp hprefix).1.symm)

theorem rowOf_eq_context {row rest : List Char} (h : rowOf row = .context rest) :
    row = fieldMarker "Context" ++ rest := by
  cases rowOf_eq_iff.mp h with
  | context eq => exact eq

theorem rowOf_eq_steps {row : List Char} (h : rowOf row = .steps) : fieldMarker "Steps" <+: row := by
  cases rowOf_eq_iff.mp h with
  | steps front => exact front

theorem rowOf_eq_verify {row rest : List Char} (h : rowOf row = .verify rest) :
    row = fieldMarker "Verify" ++ rest := by
  cases rowOf_eq_iff.mp h with
  | verify eq => exact eq

theorem rowOf_eq_other {row : List Char} (h : rowOf row = .other) :
    ∀ label ∈ rowLabels, ¬ fieldMarker label <+: row := by
  cases rowOf_eq_iff.mp h with
  | other none => exact none

end Runbook.Plan
