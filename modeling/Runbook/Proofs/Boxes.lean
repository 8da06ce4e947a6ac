import Mathlib.Data.List.TakeWhile
import Runbook.Markdown.Checkbox
import Runbook.Proofs.Numerals
import Runbook.Proofs.TrimmedText

/-!
# Items with a box

What the two cuts of an item find (`cutNumber?_eq_some_iff`, `cutBox?_eq_some_iff`), and so what is
read of an item that is written (`stepText?_written`, `itemText?_written`).

An item with a box is a label, a box and a text (`exists_of_boxLabel?`), and only the text is read:
what is in the box, and the blanks around it, have no part in it (`stepText?_boxed`).
-/

set_option autoImplicit false

namespace Runbook.Markdown

open Text

/-! ## Cutting -/

/-- A stretch of one kind is taken whole and no more when what follows is of another kind. The cuts of
items and titles are all of this form. -/
theorem takeWhile_append_stop {α : Type} {p : α → Bool} {as bs : List α}
    (all : ∀ a ∈ as, p a = true) (stop : ∀ b, bs.head? = some b → p b = false) :
    (as ++ bs).takeWhile p = as := by
  rw [List.takeWhile_append_of_pos all]
  cases bs with
  | nil => simp
  | cons b bs => rw [List.takeWhile_cons_of_neg (by simp [stop b rfl]), List.append_nil]

theorem dropWhile_append_stop {α : Type} {p : α → Bool} {as bs : List α}
    (all : ∀ a ∈ as, p a = true) (stop : ∀ b, bs.head? = some b → p b = false) :
    (as ++ bs).dropWhile p = bs := by
  rw [List.dropWhile_append_of_pos all, dropWhile_eq_self_iff]
  exact stop

/-- What stands behind a character that stops has no part in what is taken. -/
theorem takeWhile_append_mark {α : Type} {p : α → Bool} {a : α} (stop : p a = false)
    (front behind : List α) : (front ++ a :: behind).takeWhile p = front.takeWhile p := by
  induction front with
  | nil => exact List.takeWhile_cons_of_neg (by simp [stop])
  | cons b front ih => rw [List.cons_append, List.takeWhile_cons, List.takeWhile_cons, ih]

theorem dropWhile_append_mark {α : Type} {p : α → Bool} {a : α} (stop : p a = false)
    (front behind : List α) :
    (front ++ a :: behind).dropWhile p = front.dropWhile p ++ a :: behind := by
  induction front with
  | nil => exact List.dropWhile_cons_of_neg (by simp [stop])
  | cons b front ih =>
    rw [List.cons_append, List.dropWhile_cons, List.dropWhile_cons, ih]
    split <;> rfl

/-- A number with its dot: blanks, digits, a dot and blanks. The value of the number is nowhere asked
for; steps are told apart by their lines. -/
structure IsLabel (label : List Char) (indent digits gap : List Char) : Prop where
  eq : label = indent ++ digits ++ '.' :: gap
  indent : Blank indent
  some : digits ≠ []
  digits : ∀ d ∈ digits, isDigit d = true
  gap : Blank gap

theorem head_digits_append {digits : List Char} (some : digits ≠ [])
    (all : ∀ d ∈ digits, isDigit d = true) (rest : List Char) :
    ∀ c, (digits ++ rest).head? = .some c → isBlank c = false := by
  intro c hc
  cases digits with
  | nil => exact absurd rfl some
  | cons d ds =>
    rw [List.cons_append, List.head?_cons, Option.some.injEq] at hc
    exact isBlank_of_isDigit (hc ▸ all d List.mem_cons_self)

/-- The cut takes all blanks behind the dot, so the rest begins with something else, and that makes the
cut the only one there is. -/
theorem cutNumber?_eq_some_iff {cs label rest : List Char} :
    cutNumber? cs = some (label, rest) ↔ cs = label ++ rest ∧
      (∀ c, rest.head? = some c → isBlank c = false) ∧
      ∃ indent digits gap, IsLabel label indent digits gap := by
  constructor
  · intro h
    refine ⟨(cutNumber?_append h).symm, ?_, ?_⟩
    · simp only [cutNumber?] at h
      split at h
      · split at h
        · cases h
        · cases h
          exact fun c => head?_dropWhile_false
      · cases h
    · simp only [cutNumber?] at h
      split at h
      · split at h
        · cases h
        · rename_i hsome
          cases h
          exact ⟨_, _, _, rfl, blank_takeWhile cs, hsome, fun d hd => List.mem_takeWhile_imp hd,
            blank_takeWhile _⟩
      · cases h
  · rintro ⟨rfl, hrest, indent, digits, gap, rfl, hindent, hsome, hdigits, hgap⟩
    have hhead := head_digits_append hsome hdigits ('.' :: (gap ++ rest))
    have hdot : ∀ c, ('.' :: (gap ++ rest)).head? = some c → isDigit c = false := by
      intro c hc
      rw [List.head?_cons, Option.some.injEq] at hc
      rw [← hc]
      decide
    have hcs : indent ++ digits ++ '.' :: gap ++ rest =
        indent ++ (digits ++ '.' :: (gap ++ rest)) := by
      simp
    rw [hcs, cutNumber?]
    simp only [takeWhile_append_stop hindent hhead, dropWhile_append_stop hindent hhead,
      takeWhile_append_stop hdigits hdot, dropWhile_append_stop hdigits hdot,
      takeWhile_append_stop hgap hrest, dropWhile_append_stop hgap hrest, if_neg hsome]

/-- What stands in a box: blanks, and a cross among them if it is ticked. An empty box may hold no blank
at all. -/
inductive Inside : Bool → List Char → Prop
  | empty {room : List Char} (blank : Blank room) : Inside false room
  | ticked {before after : List Char} {cross : Char} (blank : Blank before)
    (mark : cross = 'x' ∨ cross = 'X') (blank' : Blank after) :
    Inside true (before ++ cross :: after)

/-- A box is found just where there is one at the front, and it says whether it is ticked. -/
theorem cutBox?_eq_some_iff {cs rest : List Char} {ticked : Bool} :
    cutBox? cs = some (ticked, rest) ↔
      ∃ inside, Inside ticked inside ∧ cs = '[' :: (inside ++ ']' :: rest) := by
  constructor
  · intro h
    unfold cutBox? at h
    split at h
    · rename_i inside
      have hinside := takeWhile_append_trimStart inside
      -- a cross of either case, once what closes the box has been found behind it
      have hticked : ∀ cross more behind, cross = 'x' ∨ cross = 'X' →
          trimStart inside = cross :: more → trimStart more = ']' :: behind →
          ∃ room, Inside true room ∧ '[' :: inside = '[' :: (room ++ ']' :: behind) := by
        intro cross more behind mark htrim hclosed
        have hmore := takeWhile_append_trimStart more
        rw [htrim] at hinside
        rw [hclosed] at hmore
        refine ⟨_, .ticked (blank_takeWhile inside) mark (blank_takeWhile more), ?_⟩
        rw [List.append_assoc, List.cons_append, hmore, hinside]
      split at h
      · rename_i behind htrim
        cases h
        rw [htrim] at hinside
        exact ⟨_, .empty (blank_takeWhile inside), by rw [hinside]⟩
      · rename_i more htrim
        split at h
        · rename_i hclosed
          cases h
          exact hticked 'x' more _ (.inl rfl) htrim hclosed
        · cases h
      · rename_i more htrim
        split at h
        · rename_i hclosed
          cases h
          exact hticked 'X' more _ (.inr rfl) htrim hclosed
        · cases h
      · cases h
    · cases h
  · rintro ⟨inside, hinside, rfl⟩
    have hclose : isBlank ']' = false := by decide
    cases hinside with
    | empty blank =>
      simp only [cutBox?, trimStart_append_of_blank blank, trimStart_of_head hclose]
    | ticked blank mark blank' =>
      have hcross : ∀ cross, cross = 'x' ∨ cross = 'X' → isBlank cross = false := by
        rintro cross (rfl | rfl) <;> decide
      rw [cutBox?, List.append_assoc, List.cons_append, trimStart_append_of_blank blank,
        trimStart_of_head (hcross _ mark)]
      rcases mark with rfl | rfl <;>
        simp only [trimStart_append_of_blank blank', trimStart_of_head hclose]

/-! ## What is read of an item -/

/-- What a box labels, given what stands behind it. Something must stand there, if only blanks; then the
label is empty. -/
def labelOf? (behind : List Char) : Option (List Char) :=
  if behind = [] then none else some (trim behind)

theorem boxLabel?_boxed {inside : List Char} {ticked : Bool} (hinside : Inside ticked inside)
    (behind : List Char) : boxLabel? ('[' :: (inside ++ ']' :: behind)) = labelOf? behind := by
  have hcut : cutBox? ('[' :: (inside ++ ']' :: behind)) = some (ticked, behind) :=
    cutBox?_eq_some_iff.mpr ⟨inside, hinside, rfl⟩
  rw [boxLabel?, hcut]
  cases behind <;> rfl

theorem exists_of_boxLabel? {cs text : List Char} (h : boxLabel? cs = some text) :
    ∃ ticked inside behind, Inside ticked inside ∧ cs = '[' :: (inside ++ ']' :: behind) := by
  unfold boxLabel? at h
  split at h
  · rename_i ticked c rest hcut
    obtain ⟨inside, hinside, hcs⟩ := cutBox?_eq_some_iff.mp hcut
    exact ⟨ticked, inside, c :: rest, hinside, hcs⟩
  · cases h

/-- The text of a step does not depend on its number nor on its box. So ticking it off changes nothing
of what is read. -/
theorem stepText?_boxed {label indent digits gap inside : List Char} {ticked : Bool}
    (hlabel : IsLabel label indent digits gap) (hinside : Inside ticked inside)
    (behind : List Char) :
    stepText? (label ++ '[' :: (inside ++ ']' :: behind)) = labelOf? behind := by
  have hcut : cutNumber? (label ++ '[' :: (inside ++ ']' :: behind)) =
      some (label, '[' :: (inside ++ ']' :: behind)) := by
    refine cutNumber?_eq_some_iff.mpr ⟨rfl, ?_, indent, digits, gap, hlabel⟩
    intro c hc
    rw [List.head?_cons, Option.some.injEq] at hc
    rw [← hc]
    decide
  rw [stepText?, hcut]
  exact boxLabel?_boxed hinside behind

/-- What is read as a step has a number and a box. With `stepText?_boxed` this takes every step apart in
the same way. -/
theorem exists_of_stepText? {cs text : List Char} (h : stepText? cs = some text) :
    ∃ label indent digits gap ticked inside behind, IsLabel label indent digits gap ∧
      Inside ticked inside ∧ cs = label ++ '[' :: (inside ++ ']' :: behind) := by
  rw [stepText?, Option.bind_eq_some_iff] at h
  obtain ⟨⟨label, rest⟩, hcut, hbox⟩ := h
  obtain ⟨rfl, -, indent, digits, gap, hlabel⟩ := cutNumber?_eq_some_iff.mp hcut
  obtain ⟨ticked, inside, behind, hinside, rfl⟩ := exists_of_boxLabel? hbox
  exact ⟨label, indent, digits, gap, ticked, inside, behind, hlabel, hinside, rfl⟩

/-- A numbered item with an empty box is read as its text. -/
theorem stepText?_written (n : Nat) {text : List Char} (tidy : trim text = text) :
    stepText? ((toString n).toList ++ ". [ ] ".toList ++ text) = some text := by
  have hlabel : IsLabel ((toString n).toList ++ ['.', ' ']) [] (toString n).toList [' '] :=
    ⟨rfl, .nil, toString_ne_nil n, digits_toString n, by decide⟩
  have hread := stepText?_boxed hlabel (Inside.empty (by decide : Blank [' '])) (' ' :: text)
  rw [labelOf?, if_neg (List.cons_ne_nil _ _), trim_space, tidy] at hread
  rw [← hread]
  simp

/-- An item of a checklist with an empty box is read as its text. -/
theorem itemText?_written {text : List Char} (tidy : trim text = text) :
    itemText? ("- [ ] ".toList ++ text) = some text := by
  have hread := boxLabel?_boxed (Inside.empty (by decide : Blank [' '])) (' ' :: text)
  rw [labelOf?, if_neg (List.cons_ne_nil _ _), trim_space, tidy] at hread
  exact hread

end Runbook.Markdown
