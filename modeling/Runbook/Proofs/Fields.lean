import Mathlib.Data.List.Infix
import Runbook.Proofs.GroupReading
import Runbook.Proofs.Occurrences
import Runbook.Proofs.TrimmedText

/-!
# Fields on lines

A line has a field when the field's marker stands in it (`fieldValue?_eq_none_iff`). A marker begins
and ends with a star, so it is not brought in by text without stars on either side of a line
(`infix_append_right`, `infix_append_left`), and a field of a line that has no star before its marker
is read from there (`fieldValue?_front`). The first of some lines that has the field decides
(`readField?_openLines_cons`).
-/

set_option autoImplicit false

namespace Runbook

namespace Text

/-! ## Where a needle can stand -/

/-- A needle that ends with a character is not completed by a text without that character. A marker ends
with a star, so it cannot reach into such a text. -/
theorem infix_append_right {a : Char} {as front back : List Char} (h : a ∉ back) :
    as ++ [a] <:+: front ++ back ↔ as ++ [a] <:+: front := by
  refine ⟨?_, fun hin => hin.trans (List.prefix_append _ _).isInfix⟩
  rintro ⟨s, t, hst⟩
  rcases List.append_eq_append_iff.mp hst with ⟨cs, hfront, -⟩ | ⟨cs, hcs, hback⟩
  · exact ⟨s, cs, hfront.symm⟩
  · cases cs using List.reverseRecOn with
    | nil =>
      rw [List.append_nil] at hcs
      exact ⟨s, [], by rw [List.append_nil, hcs]⟩
    | append_singleton cs c =>
      rw [← List.append_assoc, ← List.append_assoc] at hcs
      obtain ⟨-, hc⟩ := List.append_inj' hcs rfl
      rw [List.singleton_inj] at hc
      exact absurd (by rw [hback, hc]; simp) h

/-- A needle that begins with a character is not begun in a text without that character. -/
theorem infix_append_left {a : Char} {as front back : List Char} (h : a ∉ front) :
    a :: as <:+: front ++ back ↔ a :: as <:+: back := by
  rw [← not_iff_not, ← cutAt?_eq_none_iff, ← cutAt?_eq_none_iff, cutAt?_append_of_not_mem h,
    Option.map_eq_none_iff]

end Text

namespace Markdown

open Text

theorem fieldMarker_eq_concat (label : String) :
    fieldMarker label = ('*' :: '*' :: label.toList ++ [':', '*']) ++ ['*'] := by
  simp [fieldMarker]

theorem marker_append_right {label : String} {front back : List Char} (h : '*' ∉ back) :
    fieldMarker label <:+: front ++ back ↔ fieldMarker label <:+: front := by
  rw [fieldMarker_eq_concat]
  exact infix_append_right h

theorem marker_append_left {label : String} {front back : List Char} (h : '*' ∉ front) :
    fieldMarker label <:+: front ++ back ↔ fieldMarker label <:+: back :=
  infix_append_left h

/-- A line has a field just when the marker stands somewhere in it, at the front or not. -/
theorem fieldValue?_eq_none_iff {label : String} {line : List Char} :
    fieldValue? label line = none ↔ ¬ fieldMarker label <:+: line := by
  rw [fieldValue?, Option.map_eq_none_iff, cutAt?_eq_none_iff]

theorem occursIn_iff {needle hay : List Char} : occursIn needle hay = true ↔ needle <:+: hay := by
  rw [← not_iff_not, ← cutAt?_eq_none_iff, occursIn, Bool.not_eq_true, Option.isSome_eq_false_iff,
    Option.isNone_iff_eq_none]

theorem no_marker_of_no_star {label : String} {line : List Char} (h : '*' ∉ line) :
    ¬ fieldMarker label <:+: line :=
  fun hin => h (hin.subset List.mem_cons_self)

/-- The field of a line that has no star before the marker: it ends at the next star. Without a star in
front no other place can be taken for the marker. -/
theorem fieldValue?_marker {label : String} {front : List Char} (hfront : '*' ∉ front)
    (behind : List Char) : fieldValue? label (front ++ fieldMarker label ++ behind) =
      some (trim (behind.takeWhile (· ≠ '*'))) := by
  have hcut : cutAt? (fieldMarker label) (fieldMarker label ++ behind) = some ([], behind) :=
    cutAt?_here (by simp [fieldMarker]) behind
  rw [fieldValue?, List.append_assoc, fieldMarker, List.cons_append,
    cutAt?_append_of_not_mem hfront, ← List.cons_append, ← fieldMarker, hcut]
  rfl

theorem takeWhile_no_star {cs : List Char} (h : '*' ∉ cs) : cs.takeWhile (· ≠ '*') = cs := by
  rw [List.takeWhile_eq_self_iff]
  intro c hc
  rw [decide_eq_true_eq]
  rintro rfl
  exact h hc

/-- The field of a line that has no star before the marker, nor behind it, is all that stands behind it.
All fields are written like this. -/
theorem fieldValue?_front {label : String} {front behind : List Char} (hfront : '*' ∉ front)
    (hbehind : '*' ∉ behind) :
    fieldValue? label (front ++ fieldMarker label ++ behind) = some (trim behind) := by
  rw [fieldValue?_marker hfront, takeWhile_no_star hbehind]

end Markdown

namespace Plan

open Text Markdown

variable {label : String} {ls ls' : List Line}

theorem readField?_eq_none (h : ∀ l ∈ ls, l.isFenced = true ∨ ¬ fieldMarker label <:+: l.text) :
    readField? label ls = none := by
  rw [readField?, List.findSome?_eq_none_iff]
  intro l hl
  rcases h l hl with hfenced | hnone
  · rw [if_pos hfenced]
  · rw [fieldValue?_eq_none_iff.mpr hnone]
    split <;> rfl

theorem readField?_openLines_cons (n : Nat) (l : List Char) (texts : List (List Char)) :
    readField? label (openLines n (l :: texts) ++ ls) =
      match fieldValue? label l with
      | some value => some (n, value)
      | none => readField? label (openLines (n + 1) texts ++ ls) := by
  rw [openLines_cons, List.cons_append, readField?, List.findSome?_cons, isFenced_openLine,
    if_neg (by simp)]
  unfold openLine
  cases fieldValue? label l <;> rfl

/-- Lines without the marker of a field may stand before the one that has it. So of a document only the
first line with the label has to be looked at. -/
theorem readField?_openLines_skip {n : Nat} {l : List Char} (h : ¬ fieldMarker label <:+: l)
    (texts : List (List Char)) :
    readField? label (openLines n (l :: texts) ++ ls) =
      readField? label (openLines (n + 1) texts ++ ls) := by
  rw [readField?_openLines_cons, fieldValue?_eq_none_iff.mpr h]

end Plan

end Runbook
