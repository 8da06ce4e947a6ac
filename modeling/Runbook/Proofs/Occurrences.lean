import Mathlib.Data.List.Infix
import Runbook.Markdown.Field

/-!
# Finding a text in another

`cutAt?` cuts at the first occurrence (`cutAt?_here`, `cutAt?_later`). What stands behind that occurrence has
no part in where it is (`cutAt?_of_same_front`), and what cannot hold the beginning of the needle may
stand before it (`cutAt?_append_of_not_mem`). A needle that is nowhere is not found
(`cutAt?_eq_none_iff`).
-/

set_option autoImplicit false

namespace Runbook.Text

/-- The reader cuts a label off a row by its letters; as an equation it can be put into what is known of
the row. -/
theorem isPrefixOf?_eq_some_iff {needle hay rest : List Char} :
    needle.isPrefixOf? hay = some rest ↔ hay = needle ++ rest := by
  rw [List.isPrefixOf?_eq_some_iff_append_eq, eq_comm]

theorem isPrefixOf?_append (needle rest : List Char) :
    needle.isPrefixOf? (needle ++ rest) = some rest :=
  isPrefixOf?_eq_some_iff.mpr rfl

theorem isPrefixOf?_eq_none_iff {needle hay : List Char} :
    needle.isPrefixOf? hay = none ↔ ¬ needle <+: hay := by
  rw [Option.eq_none_iff_forall_not_mem]
  constructor
  · rintro h ⟨rest, rfl⟩
    exact h rest (isPrefixOf?_append needle rest)
  · intro h rest hrest
    exact h ⟨rest, (isPrefixOf?_eq_some_iff.mp hrest).symm⟩

variable {needle : List Char}

/-- A needle that stands at the front is found there. The empty one is found too, but with it there
would be no front to speak of. -/
theorem cutAt?_here (some : needle ≠ []) (rest : List Char) :
    cutAt? needle (needle ++ rest) = .some ([], rest) := by
  cases hcs : needle ++ rest with
  | nil => exact absurd (List.append_eq_nil_iff.mp hcs).1 some
  | cons c cs => rw [cutAt?, ← hcs, isPrefixOf?_append]

/-- Where the needle does not begin, the search goes on behind one character. -/
theorem cutAt?_later {c : Char} {cs : List Char} (h : ¬ needle <+: c :: cs) :
    cutAt? needle (c :: cs) =
      (cutAt? needle cs).map fun (before, after) => (c :: before, after) := by
  rw [cutAt?, isPrefixOf?_eq_none_iff.mpr h]

/-- What is cut apart can be put together again. -/
theorem append_of_cutAt? {cs before after : List Char} (h : cutAt? needle cs = some (before, after)) :
    cs = before ++ needle ++ after := by
  induction cs generalizing before with
  | nil =>
    rw [cutAt?] at h
    split at h
    · rename_i hempty
      cases h
      rw [List.isEmpty_iff.mp hempty]
      rfl
    · cases h
  | cons c cs ih =>
    rw [cutAt?] at h
    split at h
    · rename_i rest hrest
      cases h
      exact isPrefixOf?_eq_some_iff.mp hrest
    · rw [Option.map_eq_some_iff] at h
      obtain ⟨⟨before', after'⟩, hcut, hpair⟩ := h
      cases hpair
      rw [ih hcut]
      rfl

/-- What stands behind the first occurrence may be another text. So a value can be rewritten behind its
label and the label is found where it was. -/
theorem cutAt?_of_same_front {cs before after : List Char}
    (h : cutAt? needle cs = some (before, after)) (after' : List Char) :
    cutAt? needle (before ++ needle ++ after') = some (before, after') := by
  induction cs generalizing before with
  | nil =>
    rw [cutAt?] at h
    split at h
    · rename_i hempty
      cases h
      rw [List.isEmpty_iff] at hempty
      subst hempty
      cases after' <;> rfl
    · cases h
  | cons c cs ih =>
    rw [cutAt?] at h
    split at h
    · rename_i rest hrest
      cases h
      cases hneedle : needle with
      | nil => cases after' <;> rfl
      | cons a as =>
        rw [List.nil_append]
        exact cutAt?_here (List.cons_ne_nil a as) after'
    · rename_i hnone
      rw [Option.map_eq_some_iff] at h
      obtain ⟨⟨before', after''⟩, hcut, hpair⟩ := h
      cases hpair
      have hcs := append_of_cutAt? hcut
      rw [List.cons_append, List.cons_append, cutAt?_later, ih hcut]
      · rfl
      · -- the needle would end within the part that both texts share
        rw [isPrefixOf?_eq_none_iff, hcs] at hnone
        intro hprefix
        have hshort : needle <+: c :: (before' ++ needle) := by
          refine List.prefix_of_prefix_length_le hprefix ?_ (by simp; omega)
          exact ⟨after', by simp⟩
        exact hnone (hshort.trans ⟨after, by simp⟩)

/-- What cannot hold the beginning of a needle may stand before it. One character is enough for that:
labels begin with a star, and texts without stars cannot hide one. -/
theorem cutAt?_append_of_not_mem {a : Char} {as : List Char} {front : List Char} (h : a ∉ front)
    (cs : List Char) :
    cutAt? (a :: as) (front ++ cs) =
      (cutAt? (a :: as) cs).map fun (before, after) => (front ++ before, after) := by
  induction front with
  | nil => simp
  | cons c front ih =>
    rw [List.mem_cons, not_or] at h
    rw [List.cons_append, cutAt?_later, ih h.2, Option.map_map]
    · rfl
    · intro hprefix
      exact h.1 (List.cons_prefix_cons.mp hprefix).1

/-- The search is complete: it gives up only where the needle does not occur at all. -/
theorem cutAt?_eq_none_iff {cs : List Char} : cutAt? needle cs = none ↔ ¬ needle <:+: cs := by
  induction cs with
  | nil => cases needle <;> simp [cutAt?]
  | cons c cs ih =>
    rw [List.infix_cons_iff, not_or, ← ih]
    by_cases h : needle <+: c :: cs
    · obtain ⟨rest, hrest⟩ := h
      have hsome : needle.isPrefixOf? (c :: cs) = some rest := isPrefixOf?_eq_some_iff.mpr hrest.symm
      rw [cutAt?, hsome]
      exact ⟨nofun, fun hnone => absurd ⟨rest, hrest⟩ hnone.1⟩
    · rw [cutAt?_later h, Option.map_eq_none_iff]
      exact ⟨fun hnone => ⟨h, hnone⟩, And.right⟩

end Runbook.Text
