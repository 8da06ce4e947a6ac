import Mathlib.Data.List.TakeWhile
import Runbook.Plan.Parser
import Runbook.Proofs.ParsedGroups
import Runbook.Proofs.StepTicks
import Runbook.Proofs.WritableGroups

/-!
# What the front of a line decides

Fences, headings, boxes and the labels of rows are told by how a line begins. None of them has a star
but the labels of rows, and these are shorter than two markers. So what stands behind the first marker
on a line has no part in what the line is: whether it is a fence, a heading and of which level, a task
with which number, an item, a step, or which kind of row. It only has a part in what the line says, that
is in a title, a name, the text of an item, and the value of a row.

Every statement here is about all texts behind a star at once.
-/

set_option autoImplicit false

namespace Runbook

open Text Markdown

namespace Text

theorem isBlank_star : isBlank '*' = false := by decide

theorem trimStart_star (front behind : List Char) :
    trimStart (front ++ '*' :: behind) = trimStart front ++ '*' :: behind :=
  dropWhile_append_mark isBlank_star front behind

/-- A star is no blank, so trimming a line cannot reach over it: the front is trimmed as if the star
were the end, and what stands behind as if it were the beginning. -/
theorem trim_star (front behind : List Char) :
    trim (front ++ '*' :: behind) = trimStart front ++ '*' :: trimEnd behind := by
  rw [trim, trimStart_star, trimEnd_append_cons isBlank_star]

theorem trim_star_ne_nil (front behind : List Char) : trim (front ++ '*' :: behind) ≠ [] := by
  rw [trim_star]
  simp

/-- A text that begins with another one, and goes on differently than a needle, holds the needle in
front or not at all. -/
theorem prefix_append_iff {needle front : List Char} (longer : ¬ front <+: needle)
    (behind : List Char) : needle <+: front ++ behind ↔ needle <+: front := by
  refine ⟨fun h => ?_, fun h => h.trans (List.prefix_append _ _)⟩
  rcases List.prefix_or_prefix_of_prefix h (List.prefix_append front behind) with h | h
  · exact h
  · exact absurd h longer

end Text

namespace Markdown

/-! ## The outline -/

/-- Whether a line with a star is a fence is settled before the star. -/
theorem isFence_star (front behind behind' : List Char) :
    isFence (front ++ '*' :: behind) = isFence (front ++ '*' :: behind') := by
  have hfront : ∀ behind, isFence (front ++ '*' :: behind) = true ↔
      fenceMarker <+: trimStart front := by
    intro behind
    rw [isFence, trimStart_star, List.isPrefixOf_iff_prefix]
    exact ⟨prefix_of_not_mem (by decide), fun h => h.trans (List.prefix_append _ _)⟩
  exact Bool.eq_iff_iff.mpr ((hfront behind).trans (hfront behind').symm)

/-- Either no line that begins like this is a heading, or all are, with one level and with titles that
begin alike. What stands behind the star only ends the title. -/
theorem parseHeading?_star (front : List Char) :
    (∀ behind, parseHeading? (front ++ '*' :: behind) = none) ∨
      ∃ level title, ∀ behind,
        parseHeading? (front ++ '*' :: behind) = some (level, title ++ '*' :: trimEnd behind) := by
  have htake : ∀ behind, (front ++ '*' :: behind).takeWhile (· == '#') =
      front.takeWhile (· == '#') := takeWhile_append_mark (by decide) front
  have hdrop : ∀ behind, (front ++ '*' :: behind).dropWhile (· == '#') =
      front.dropWhile (· == '#') ++ '*' :: behind := dropWhile_append_mark (by decide) front
  have hhead : ∀ behind : List Char, (front.dropWhile (· == '#') ++ '*' :: behind).head? =
      some ((front.dropWhile (· == '#')).head?.getD '*') := by
    intro behind
    cases front.dropWhile (· == '#') <;> rfl
  have hparse : ∀ behind, parseHeading? (front ++ '*' :: behind) =
      if 1 ≤ (front.takeWhile (· == '#')).length ∧ (front.takeWhile (· == '#')).length ≤ 6 ∧
        isBlank ((front.dropWhile (· == '#')).head?.getD '*') = true
      then some ((front.takeWhile (· == '#')).length,
        trimStart (front.dropWhile (· == '#')) ++ '*' :: trimEnd behind)
      else none := by
    intro behind
    have hsome := trim_star_ne_nil (front.dropWhile (· == '#')) behind
    rw [trim_star] at hsome
    simp only [parseHeading?, htake, hdrop, hhead, Option.all_some, trim_star]
    simp only [ne_eq, hsome, not_false_eq_true, and_true]
  by_cases h : 1 ≤ (front.takeWhile (· == '#')).length ∧
      (front.takeWhile (· == '#')).length ≤ 6 ∧
      isBlank ((front.dropWhile (· == '#')).head?.getD '*') = true
  · exact .inr ⟨_, _, fun behind => by rw [hparse, if_pos h]⟩
  · exact .inl fun behind => by rw [hparse, if_neg h]

/-- A heading with a star in its title is of none of the sections that are read. So a rewritten heading
neither opens nor hides one. -/
theorem not_titled_star {name : String} (mem : name ∈ Plan.sectionNames) (front behind : List Char)
    (level line : Nat) : ¬ Heading.Titled name.toList ⟨level, front ++ '*' :: behind, line⟩ := by
  intro htitled
  have hsame : (front ++ '*' :: behind).map Char.toLower = name.toList.map Char.toLower :=
    eq_of_beq htitled
  have hmem : '*' ∈ name.toList.map Char.toLower := by
    rw [← hsame]
    exact List.mem_map.mpr ⟨'*', by simp, by decide⟩
  simp only [Plan.sectionNames, List.mem_cons, List.not_mem_nil, or_false] at mem
  rcases mem with rfl | rfl | rfl
  · exact absurd hmem (by decide)
  · exact absurd hmem (by decide)
  · exact absurd hmem (by decide)

/-! ## Boxes -/

theorem Inside.noStar {ticked : Bool} {inside : List Char} (h : Inside ticked inside) :
    '*' ∉ inside := by
  cases h with
  | empty blank => exact fun hc => absurd (blank _ hc) (by decide)
  | @ticked before after cross blank mark blank' =>
    intro hc
    rcases List.mem_append.mp hc with hc | hc
    · exact absurd (blank _ hc) (by decide)
    · rcases List.mem_cons.mp hc with rfl | hc
      · rcases mark with h | h <;> cases h
      · exact absurd (blank' _ hc) (by decide)

theorem isSome_labelOf? {behind : List Char} (some : behind ≠ []) :
    (labelOf? behind).isSome = true := by
  rw [labelOf?, if_neg some]
  rfl

/-- Behind a box there is a star at least, so the label is not empty, whatever follows. -/
theorem boxLabel?_star (front : List Char) :
    (∀ behind, boxLabel? (front ++ '*' :: behind) = none) ∨
      ∀ behind, (boxLabel? (front ++ '*' :: behind)).isSome = true := by
  by_cases h : ∃ ticked inside, Inside ticked inside ∧ '[' :: (inside ++ [']']) <+: front
  · obtain ⟨ticked, inside, hinside, rest, rfl⟩ := h
    refine .inr fun behind => ?_
    have hsplit : '[' :: (inside ++ [']']) ++ rest ++ '*' :: behind =
        '[' :: (inside ++ ']' :: (rest ++ '*' :: behind)) := by simp
    rw [hsplit, boxLabel?_boxed hinside]
    exact isSome_labelOf? (by simp)
  · refine .inl fun behind => ?_
    cases hlabel : boxLabel? (front ++ '*' :: behind) with
    | none => rfl
    | some text =>
      obtain ⟨ticked, inside, rest, hinside, hcs⟩ := exists_of_boxLabel? hlabel
      refine absurd ⟨ticked, inside, hinside, ?_⟩ h
      refine prefix_of_not_mem (c := '*') (b := behind) ?_ ⟨rest, by rw [hcs]; simp⟩
      simpa using hinside.noStar

/-- Whether a row is a step is settled before the star as well. -/
theorem stepText?_star (front : List Char) :
    (∀ behind, stepText? (front ++ '*' :: behind) = none) ∨
      ∀ behind, (stepText? (front ++ '*' :: behind)).isSome = true := by
  by_cases h : ∃ label indent digits gap ticked inside, IsLabel label indent digits gap ∧
      Inside ticked inside ∧ label ++ '[' :: (inside ++ [']']) <+: front
  · obtain ⟨label, indent, digits, gap, ticked, inside, hlabel, hinside, rest, rfl⟩ := h
    refine .inr fun behind => ?_
    have hsplit : label ++ '[' :: (inside ++ [']']) ++ rest ++ '*' :: behind =
        label ++ '[' :: (inside ++ ']' :: (rest ++ '*' :: behind)) := by simp
    rw [hsplit, stepText?_boxed hlabel hinside]
    exact isSome_labelOf? (by simp)
  · refine .inl fun behind => ?_
    cases hstep : stepText? (front ++ '*' :: behind) with
    | none => rfl
    | some text =>
      obtain ⟨label, indent, digits, gap, ticked, inside, rest, hlabel, hinside, hcs⟩ :=
        exists_of_stepText? hstep
      refine absurd ⟨label, indent, digits, gap, ticked, inside, hlabel, hinside, ?_⟩ h
      refine prefix_of_not_mem (c := '*') (b := behind) ?_ ⟨rest, by rw [hcs]; simp⟩
      have hnot := hlabel.not_mem isBlank_star (by decide) (by decide)
      simpa using ⟨hnot, hinside.noStar⟩

/-- An item may begin with a star, but not with two. Since a marker begins with two of them, the marker
itself is never taken for the sign of an item. -/
theorem itemText?_star (front : List Char) :
    (∀ behind, itemText? (front ++ '*' :: '*' :: behind) = none) ∨
      ∀ behind, (itemText? (front ++ '*' :: '*' :: behind)).isSome = true := by
  cases htrim : trimStart front with
  | nil =>
    left
    intro behind
    rw [itemText?, trimStart_star, htrim, List.nil_append]
    show boxLabel? (trimStart ('*' :: behind)) = none
    rw [trimStart_of_head isBlank_star]
    rfl
  | cons c rest =>
    -- whether it is an item is decided by the bullet and the box in front of the star
    by_cases hbullet : c = '-' ∨ c = '*'
    · have hlabel : ∀ behind, itemText? (front ++ '*' :: '*' :: behind) =
          boxLabel? (trimStart rest ++ '*' :: '*' :: behind) := by
        intro behind
        rw [itemText?, trimStart_star, htrim, List.cons_append, ← trimStart_star]
        rcases hbullet with rfl | rfl <;> rfl
      rcases boxLabel?_star (trimStart rest) with hnone | hsome
      · exact .inl fun behind => (hlabel behind).trans (hnone _)
      · exact .inr fun behind => by rw [hlabel, hsome]
    · left
      intro behind
      rw [itemText?, trimStart_star, htrim, List.cons_append]
      split
      · rename_i heq
        exact absurd (.inl (List.cons.inj heq).1) hbullet
      · rename_i heq
        exact absurd (.inr (List.cons.inj heq).1) hbullet
      · rfl

end Markdown

namespace Plan

/-! ## Titles and rows -/

/-- The number of a task stands before its name, and so before any star in the title: only the name
depends on what stands behind. -/
theorem taskTitle?_star (front : List Char) :
    (∀ behind, taskTitle? (front ++ '*' :: behind) = none) ∨
      ∃ digits name, ∀ behind,
        taskTitle? (front ++ '*' :: behind) = some (digits, trim (name ++ '*' :: behind)) := by
  by_cases h : ∃ gap digits, Blank gap ∧ gap ≠ [] ∧ digits ≠ [] ∧ (∀ d ∈ digits, isDigit d = true) ∧
      "Task".toList ++ gap ++ digits ++ [':'] <+: front
  · obtain ⟨gap, digits, hgap, hapart, hsome, hdigits, name, rfl⟩ := h
    exact .inr ⟨digits, name, fun behind => taskTitle?_of_isTitle
      { eq := ⟨gap, hgap, hapart, by simp⟩
        some := hsome
        digits := hdigits
        more := by simp }⟩
  · refine .inl fun behind => Option.eq_none_iff_forall_not_mem.mpr ?_
    rintro ⟨digits, name⟩ htitle
    obtain ⟨more, hmore, -⟩ := taskTitle?_eq_some_iff.mp htitle
    obtain ⟨gap, hgap, hapart, heq⟩ := hmore.eq
    refine h ⟨gap, digits, hgap, hapart, hmore.some, hmore.digits, ?_⟩
    -- no part of the title down to the colon is a star
    refine prefix_of_not_mem (c := '*') (b := behind) ?_ ⟨more, by rw [heq]; simp⟩
    have hblank : '*' ∉ gap := fun hmem => absurd (hgap _ hmem) (by decide)
    have hdigit : '*' ∉ digits := fun hmem => absurd (hmore.digits _ hmem) (by decide)
    simp [hblank, hdigit]

/-- The kind of a row is told before the first marker of another field ends. Of a context or a command
the value may go on behind the marker, and this is all that can change. -/
theorem rowOf_marker {marker : List Char}
    (foreign : ∀ label ∈ rowLabels, ¬ marker <:+: fieldMarker label) (front : List Char) :
    (∃ rest, ∀ behind, rowOf (front ++ marker ++ behind) = .context (rest ++ behind)) ∨
      (∀ behind, rowOf (front ++ marker ++ behind) = .steps) ∨
      (∃ rest, ∀ behind, rowOf (front ++ marker ++ behind) = .verify (rest ++ behind)) ∨
      ∀ behind, rowOf (front ++ marker ++ behind) = .other := by
  simp only [rowOf_eq_iff]
  cases hrow : rowOf (front ++ marker) with
  | context rest =>
    refine .inl ⟨rest, fun behind => .context ?_⟩
    rw [rowOf_eq_context hrow, List.append_assoc]
  | steps =>
    exact .inr (.inl fun behind => .steps ((rowOf_eq_steps hrow).trans (List.prefix_append _ _)))
  | verify rest =>
    refine .inr (.inr (.inl ⟨rest, fun behind => .verify ?_⟩))
    rw [rowOf_eq_verify hrow, List.append_assoc]
  | other =>
    refine .inr (.inr (.inr fun behind => .other fun label hlabel h =>
      rowOf_eq_other hrow label hlabel ?_))
    have hlonger : ¬ front ++ marker <+: fieldMarker label := fun h =>
      foreign label hlabel ((List.suffix_append front marker).isInfix.trans h.isInfix)
    exact (prefix_append_iff hlonger behind).mp h

end Plan

end Runbook
