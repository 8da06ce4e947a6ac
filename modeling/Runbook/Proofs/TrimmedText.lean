import Mathlib.Data.List.TakeWhile
import Runbook.Text.Blank

/-!
# What trimming leaves

A text is some blanks, what trimming leaves of it, and some more blanks (`exists_trim`). What is left
has no blank at either end (`trim_eq_self_iff`), so that trimming once is enough (`trim_trim`) and
blanks around a text are of no account (`trim_between_blanks`).
-/

set_option autoImplicit false

namespace Runbook.Text

/-- Nothing but blanks. The empty text is blank as well, which spares a case wherever a line or a value
may be missing. -/
def Blank (cs : List Char) : Prop := ∀ c ∈ cs, isBlank c = true

instance (cs : List Char) : Decidable (Blank cs) :=
  decidable_of_iff (cs.all isBlank = true) List.all_eq_true

theorem Blank.nil : Blank [] := by simp [Blank]

theorem Blank.append {a b : List Char} (ha : Blank a) (hb : Blank b) : Blank (a ++ b) :=
  fun c hc => (List.mem_append.mp hc).elim (ha c) (hb c)

theorem blank_takeWhile (cs : List Char) : Blank (cs.takeWhile isBlank) :=
  fun _ hc => List.mem_takeWhile_imp hc

/-! ## Trimming one end -/

theorem trimStart_eq_nil_iff {cs : List Char} : trimStart cs = [] ↔ Blank cs :=
  List.dropWhile_eq_nil_iff

theorem trimEnd_eq_nil_iff {cs : List Char} : trimEnd cs = [] ↔ Blank cs := by
  rw [trimEnd, List.reverse_eq_nil_iff, List.dropWhile_eq_nil_iff]
  simp [Blank]

/-- Blanks that are put before a text are trimmed with its own. -/
theorem trimStart_append_of_blank {a : List Char} (ha : Blank a) (cs : List Char) :
    trimStart (a ++ cs) = trimStart cs :=
  List.dropWhile_append_of_pos ha

/-- As soon as there is something to stop at, trimming the front does not see what stands behind. -/
theorem trimStart_append_of_not_blank {cs : List Char} (h : ¬ Blank cs) (b : List Char) :
    trimStart (cs ++ b) = trimStart cs ++ b := by
  rw [← trimStart_eq_nil_iff] at h
  rw [trimStart, List.dropWhile_append, if_neg]
  · rfl
  · simpa [trimStart] using h

theorem trimEnd_append_of_blank {b : List Char} (hb : Blank b) (cs : List Char) :
    trimEnd (cs ++ b) = trimEnd cs := by
  rw [trimEnd, List.reverse_append, List.dropWhile_append_of_pos]
  · rfl
  · exact fun c hc => hb c (List.mem_reverse.mp hc)

/-- The blanks in front and what trimming them leaves are the whole text. -/
theorem takeWhile_append_trimStart (cs : List Char) :
    cs.takeWhile isBlank ++ trimStart cs = cs :=
  List.takeWhile_append_dropWhile

theorem trimEnd_append_takeWhile (cs : List Char) :
    trimEnd cs ++ (cs.reverse.takeWhile isBlank).reverse = cs := by
  rw [trimEnd, ← List.reverse_append, List.takeWhile_append_dropWhile, List.reverse_reverse]

theorem blank_reverse {cs : List Char} : Blank cs.reverse ↔ Blank cs := by
  simp [Blank]

theorem blank_trimStart_iff {cs : List Char} : Blank (trimStart cs) ↔ Blank cs := by
  rw [← trimStart_eq_nil_iff, trimStart_trimStart, trimStart_eq_nil_iff]

/-! ## Trimming both -/

theorem trim_eq_nil_iff {cs : List Char} : trim cs = [] ↔ Blank cs := by
  rw [trim, trimEnd_eq_nil_iff, blank_trimStart_iff]

theorem trim_of_blank {cs : List Char} (h : Blank cs) : trim cs = [] := trim_eq_nil_iff.mpr h

theorem trim_append_of_blank {b : List Char} (hb : Blank b) (cs : List Char) :
    trim (cs ++ b) = trim cs := by
  by_cases h : Blank cs
  · rw [trim_of_blank h, trim_of_blank (h.append hb)]
  · rw [trim, trimStart_append_of_not_blank h, trimEnd_append_of_blank hb]
    rfl

/-- Blanks around a text are of no account. This is why the indentation of a line and a carriage return
at its end change nothing for a reader that trims. -/
theorem trim_between_blanks {a b : List Char} (ha : Blank a) (hb : Blank b) (cs : List Char) :
    trim (a ++ cs ++ b) = trim cs := by
  rw [trim_append_of_blank hb, trim, trimStart_append_of_blank ha]
  rfl

theorem trim_space (cs : List Char) : trim (' ' :: cs) = trim cs := by
  rw [trim, trimStart, List.dropWhile_cons_of_pos (by decide)]
  rfl

/-- A text is blanks, what trimming leaves, and blanks. Most of what is said about trimmed texts comes
of cutting a text into these three. -/
theorem exists_trim (cs : List Char) :
    ∃ a b, Blank a ∧ Blank b ∧ cs = a ++ trim cs ++ b := by
  refine ⟨cs.takeWhile isBlank, ((trimStart cs).reverse.takeWhile isBlank).reverse,
    blank_takeWhile cs, blank_reverse.mpr (blank_takeWhile _), ?_⟩
  rw [trim, List.append_assoc, trimEnd_append_takeWhile, takeWhile_append_trimStart]

/-- Trimming once is enough. Texts are trimmed when they are read and again when they are written, and
the second time does nothing. -/
@[simp] theorem trim_trim (cs : List Char) : trim (trim cs) = trim cs := by
  obtain ⟨a, b, ha, hb, hcs⟩ := exists_trim cs
  have h := trim_between_blanks ha hb (trim cs)
  rw [← hcs] at h
  exact h.symm

/-- What is trimmed already has no blank at either end. In this form it is checked by a look at two
characters. -/
theorem trim_eq_self_iff {cs : List Char} :
    trim cs = cs ↔ (∀ c, cs.head? = some c → isBlank c = false) ∧
      ∀ c, cs.getLast? = some c → isBlank c = false := by
  constructor
  · intro h
    have hstart : trimStart cs = cs := by
      have hlen : (trimEnd (trimStart cs)).length ≤ (trimStart cs).length := by
        rw [trimEnd, List.length_reverse]
        exact Nat.le_trans (List.dropWhile_suffix _).length_le (by simp)
      have hsuffix : trimStart cs <:+ cs := List.dropWhile_suffix _
      rw [trim] at h
      rw [h] at hlen
      exact hsuffix.eq_of_length (Nat.le_antisymm hsuffix.length_le hlen)
    have hend : trimEnd cs = cs := by
      rw [trim, hstart] at h
      exact h
    exact ⟨trimStart_eq_self_iff.mp hstart, trimEnd_eq_self_iff.mp hend⟩
  · rintro ⟨hstart, hend⟩
    rw [trim, trimStart_eq_self_iff.mpr hstart, trimEnd_eq_self_iff.mpr hend]

theorem trim_trimEnd (cs : List Char) : trim (trimEnd cs) = trim cs := by
  have hblank : Blank (cs.reverse.takeWhile isBlank).reverse := blank_reverse.mpr (blank_takeWhile _)
  have htrim := trim_append_of_blank hblank (trimEnd cs)
  rw [trimEnd_append_takeWhile] at htrim
  exact htrim.symm

theorem trim_within (cs : List Char) : trim cs <:+: cs := by
  obtain ⟨a, b, -, -, hcs⟩ := exists_trim cs
  exact ⟨a, b, hcs.symm⟩

theorem blank_trim_iff {cs : List Char} : Blank (trim cs) ↔ Blank cs := by
  rw [← trim_eq_nil_iff, trim_trim, trim_eq_nil_iff]

theorem mem_of_mem_trim {cs : List Char} {c : Char} (h : c ∈ trim cs) : c ∈ cs := by
  obtain ⟨a, b, -, -, hcs⟩ := exists_trim cs
  rw [hcs]
  simp [h]

theorem trimStart_of_head {cs : List Char} {c : Char} (h : isBlank c = false) :
    trimStart (c :: cs) = c :: cs :=
  List.dropWhile_cons_of_neg (by simp [h])

theorem not_blank_of_mem {cs : List Char} {c : Char} (mem : c ∈ cs) (h : isBlank c = false) :
    ¬ Blank cs := by
  intro hblank
  rw [hblank c mem] at h
  cases h

/-- What stands before a character that is no blank is not trimmed from behind. -/
theorem trimEnd_append_cons {c : Char} (h : isBlank c = false) (a b : List Char) :
    trimEnd (a ++ c :: b) = a ++ c :: trimEnd b := by
  have hkept : trimEnd (c :: b) = c :: trimEnd b := by
    rw [trimEnd, List.reverse_cons, List.dropWhile_append]
    split
    · rename_i hempty
      rw [List.isEmpty_iff] at hempty
      rw [trimEnd, hempty, List.dropWhile_cons_of_neg (by simp [h])]
      rfl
    · rw [List.reverse_append]
      rfl
  rw [trimEnd, List.reverse_append, List.dropWhile_append, if_neg]
  · rw [List.reverse_append, List.reverse_reverse]
    exact congrArg (a ++ ·) hkept
  · have hne : ¬ Blank (c :: b) := not_blank_of_mem List.mem_cons_self h
    rw [← trimEnd_eq_nil_iff, trimEnd, List.reverse_eq_nil_iff] at hne
    simpa using hne

/-- A text is trimmed up to the first and from the last character that is no blank; what lies between
them is of no account. -/
theorem trim_between {a b : List Char} {c d : Char} (ha : Blank a) (hc : isBlank c = false)
    (hd : isBlank d = false) (cs : List Char) :
    trim (a ++ c :: (cs ++ d :: b)) = c :: (cs ++ d :: trimEnd b) := by
  rw [trim, trimStart_append_of_blank ha, trimStart_of_head hc, ← List.cons_append,
    trimEnd_append_cons hd]
  rfl

/-- A text that begins and ends with what is no blank is trimmed. -/
theorem trim_cons_concat {c d : Char} (hc : isBlank c = false) (hd : isBlank d = false)
    (cs : List Char) : trim (c :: (cs ++ [d])) = c :: (cs ++ [d]) := by
  rw [trim_eq_self_iff]
  constructor
  · intro c' hc'
    rw [List.head?_cons, Option.some.injEq] at hc'
    exact hc' ▸ hc
  · intro d' hd'
    rw [← List.cons_append, List.getLast?_append, List.getLast?_singleton] at hd'
    exact Option.some.inj hd' ▸ hd

end Runbook.Text
