import Runbook.Text.CodeRanges

/-!
# Blank characters, and trimming them

A blank is a character with the Unicode property `White_Space`: the ASCII blanks, the line ends
U+0085, U+2028 and U+2029, and the spaces of other widths. The zero width space U+200B is none of
them. Plans are written by hand, so every reader of this library trims by this one property.

Main statements: what trimming leaves neither starts nor ends with a blank
(`trimStart_eq_self_iff`, `trim_trim`), and a text without blanks at its ends is left alone.
-/

set_option autoImplicit false

namespace Runbook.Text

/-- The property `White_Space`. -/
def blankRanges : CodeRanges := ⟨
  [(0x09, 0x0D), (0x20, 0x20), (0x85, 0x85), (0xA0, 0xA0), (0x1680, 0x1680), (0x2000, 0x200A),
   (0x2028, 0x2029), (0x202F, 0x202F), (0x205F, 0x205F), (0x3000, 0x3000)]⟩

/-- A space, a tab, a line end or any other character that only makes room. -/
def isBlank (c : Char) : Bool := blankRanges.has c

def trimStart (cs : List Char) : List Char := cs.dropWhile isBlank

def trimEnd (cs : List Char) : List Char := (cs.reverse.dropWhile isBlank).reverse

/-- The text without the blanks at its ends. Those inside stay as they are. -/
def trim (cs : List Char) : List Char := trimEnd (trimStart cs)

def trimmed (s : String) : String := String.ofList (trim s.toList)

/-- Nothing but blanks, or nothing at all. -/
def isBlankText (s : String) : Bool := s.toList.all isBlank

/-! ## Dropping from the front -/

/-- Nothing is dropped from the front when the first element is to be kept. -/
theorem dropWhile_eq_self_iff {α : Type} {p : α → Bool} {l : List α} :
    l.dropWhile p = l ↔ ∀ c, l.head? = some c → p c = false := by
  cases l with
  | nil => simp
  | cons a l =>
    constructor
    · intro h c hc
      cases hp : p a with
      | false => simp at hc; exact hc ▸ hp
      | true =>
        rw [List.dropWhile_cons_of_pos hp] at h
        have hlen : (l.dropWhile p).length ≤ l.length :=
          (List.dropWhile_suffix p).length_le
        rw [h, List.length_cons] at hlen
        omega
    · intro h
      exact List.dropWhile_cons_of_neg (by simp [h a rfl])

theorem head?_dropWhile_false {α : Type} {p : α → Bool} {l : List α} {c : α}
    (h : (l.dropWhile p).head? = some c) : p c = false := by
  induction l with
  | nil => simp at h
  | cons a l ih =>
    cases hp : p a with
    | true => exact ih (by rwa [List.dropWhile_cons_of_pos hp] at h)
    | false =>
      rw [List.dropWhile_cons_of_neg (by simp [hp])] at h
      simp at h
      exact h ▸ hp

theorem dropWhile_dropWhile_self {α : Type} (p : α → Bool) (l : List α) :
    (l.dropWhile p).dropWhile p = l.dropWhile p :=
  dropWhile_eq_self_iff.mpr fun _ h => head?_dropWhile_false h

/-! ## Trimming -/

theorem trimStart_eq_self_iff {cs : List Char} :
    trimStart cs = cs ↔ ∀ c, cs.head? = some c → isBlank c = false :=
  dropWhile_eq_self_iff

theorem trimEnd_eq_self_iff {cs : List Char} :
    trimEnd cs = cs ↔ ∀ c, cs.getLast? = some c → isBlank c = false := by
  unfold trimEnd
  rw [← List.head?_reverse, ← dropWhile_eq_self_iff]
  constructor
  · intro h
    have := congrArg List.reverse h
    rwa [List.reverse_reverse] at this
  · intro h
    rw [h, List.reverse_reverse]

@[simp] theorem trimStart_trimStart (cs : List Char) : trimStart (trimStart cs) = trimStart cs :=
  dropWhile_dropWhile_self _ _

@[simp] theorem trim_nil : trim [] = [] := rfl

end Runbook.Text
