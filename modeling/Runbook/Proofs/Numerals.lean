import Runbook.Task
import Runbook.Text.Blank
import Runbook.Text.Digit

/-!
# Numbers are read as they are written

A number is written in ASCII digits, which are digits for every reader (`isDigit_of_ascii`) and have
the value of the number (`natOfDigits?_toString`). Two numbers are never written alike, nor are the
names of two tasks with different numbers (`Task.idOf_inj`).
-/

set_option autoImplicit false

namespace Runbook

namespace Text

/-! ## Tables without a common character -/

/-- No interval of one table meets one of the other. It is decided on the intervals, of which there are
few, where going through the characters would be hopeless. -/
def CodeRanges.Apart (a b : CodeRanges) : Prop :=
  ∀ i ∈ a.intervals, ∀ j ∈ b.intervals, i.2 < j.1 ∨ j.2 < i.1

instance (a b : CodeRanges) : Decidable (a.Apart b) :=
  inferInstanceAs (Decidable (∀ i ∈ a.intervals, ∀ j ∈ b.intervals, i.2 < j.1 ∨ j.2 < i.1))

theorem CodeRanges.Apart.not_has {a b : CodeRanges} (apart : a.Apart b) {c : Char}
    (h : a.has c = true) : b.has c = false := by
  refine Bool.eq_false_iff.mpr fun hb => ?_
  obtain ⟨i, hi, hlow, hhigh⟩ := (a.has_iff c).mp h
  obtain ⟨j, hj, hlow', hhigh'⟩ := (b.has_iff c).mp hb
  have := apart i hi j hj
  omega

/-- A digit of whatever script is no blank. So the blanks around a number can be cut off without
touching it, and where the number begins and ends is never in doubt. -/
theorem isBlank_of_isDigit {c : Char} (h : isDigit c = true) : isBlank c = false :=
  CodeRanges.Apart.not_has (by decide : digitRanges.Apart blankRanges) h

/-! ## Digits -/

/-- ASCII digits are digits. The converse fails: a reader takes an Arabic digit for one as well, and
refuses the number only when its value is asked for. -/
theorem isDigit_of_ascii {c : Char} (h : c.isDigit = true) : isDigit c = true := by
  rw [Char.isDigit_iff_toNat] at h
  exact (digitRanges.has_iff c).mpr ⟨(0x30, 0x39), by decide, h⟩

theorem toList_toString (n : Nat) : (toString n).toList = Nat.toDigits 10 n := by
  rw [Nat.toString_eq_ofList_toDigits, String.toList_ofList]

theorem toString_ne_nil (n : Nat) : (toString n).toList ≠ [] := by
  rw [toList_toString]
  exact Nat.toDigits_ne_nil

theorem isDigit_of_mem_toString {n : Nat} {c : Char} (h : c ∈ (toString n).toList) :
    c.isDigit = true := by
  rw [toList_toString] at h
  exact Nat.isDigit_of_mem_toDigits (by decide) (by decide) h

/-- A number is written in characters that every reader takes for digits, so a numeral that has been
written is cut off whole. -/
theorem digits_toString (n : Nat) : ∀ c ∈ (toString n).toList, isDigit c = true :=
  fun _ h => isDigit_of_ascii (isDigit_of_mem_toString h)

/-! ## Values -/

/-- What the fold over ASCII digits computes is the value in base ten, continued from the one that it
starts with. -/
theorem foldl_digits {cs : List Char} (ascii : ∀ c ∈ cs, c.isDigit = true) (first : Nat) :
    cs.foldl (fun acc c => acc.bind fun n =>
      if c.isDigit then some (n * 10 + (c.toNat - 48)) else none) (some first) =
      some (Nat.ofDigitChars 10 cs first) := by
  induction cs generalizing first with
  | nil => rfl
  | cons c cs ih =>
    obtain ⟨hc, hcs⟩ := List.forall_mem_cons.mp ascii
    rw [List.foldl_cons, Option.bind_some, if_pos hc, ih hcs, Nat.ofDigitChars_cons,
      Nat.mul_comm 10 first]
    rfl

/-- Once a character was no ASCII digit, nothing that follows brings a value back. -/
theorem foldl_digits_none (cs : List Char) :
    cs.foldl (fun acc c => acc.bind fun n =>
      if c.isDigit then some (n * 10 + (c.toNat - 48)) else none) none = none := by
  induction cs with
  | nil => rfl
  | cons c cs ih => rw [List.foldl_cons, Option.bind_none, ih]

theorem foldl_not_digits {cs : List Char} {c : Char} (mem : c ∈ cs) (other : c.isDigit = false)
    (acc : Option Nat) :
    cs.foldl (fun acc c => acc.bind fun n =>
      if c.isDigit then some (n * 10 + (c.toNat - 48)) else none) acc = none := by
  induction cs generalizing acc with
  | nil => cases mem
  | cons d cs ih =>
    rw [List.foldl_cons]
    rcases List.mem_cons.mp mem with rfl | hmem
    · have hnone : (acc.bind fun n =>
          if c.isDigit then some (n * 10 + (c.toNat - 48)) else none) = none := by
        cases acc <;> simp [other]
      rw [hnone, foldl_digits_none]
    · exact ih hmem _

/-- Which digits have a value, and which value it is. The empty text has none; here it is kept out by a
hypothesis because no title of a task has an empty number. -/
theorem natOfDigits?_eq_some_iff {cs : List Char} {n : Nat} (some : cs ≠ []) :
    natOfDigits? cs = .some n ↔ (∀ c ∈ cs, c.isDigit = true) ∧ Nat.ofDigitChars 10 cs 0 = n := by
  rw [natOfDigits?, if_neg (by simpa using some)]
  by_cases ascii : ∀ c ∈ cs, c.isDigit = true
  · rw [foldl_digits ascii, Option.some.injEq]
    exact ⟨fun h => ⟨ascii, h⟩, fun h => h.2⟩
  · obtain ⟨c, hmem, hc⟩ : ∃ c ∈ cs, c.isDigit = false := by simpa using ascii
    rw [foldl_not_digits hmem hc]
    exact ⟨nofun, fun h => absurd h.1 ascii⟩

/-- A number that can be stored is one of ASCII digits with a value below the bound. -/
theorem natBelow?_eq_some_iff {bound n : Nat} {cs : List Char} (some : cs ≠ []) :
    natBelow? bound cs = .some n ↔
      (∀ c ∈ cs, c.isDigit = true) ∧ Nat.ofDigitChars 10 cs 0 = n ∧ n < bound := by
  rw [natBelow?, Option.filter_eq_some_iff, natOfDigits?_eq_some_iff some, and_assoc]
  simp

/-- Reading undoes writing. This is the half of a round trip that a task's number needs. -/
theorem natOfDigits?_toString (n : Nat) : natOfDigits? (toString n).toList = some n := by
  rw [natOfDigits?_eq_some_iff (toString_ne_nil n)]
  refine ⟨fun _ h => isDigit_of_mem_toString h, ?_⟩
  rw [toList_toString, Nat.ofDigitChars_toDigits (by decide) (by decide)]

theorem natBelow?_toString {bound n : Nat} (h : n < bound) :
    natBelow? bound (toString n).toList = some n := by
  rw [natBelow?, natOfDigits?_toString]
  simpa using h

theorem lt_of_natBelow? {bound n : Nat} {cs : List Char} (h : natBelow? bound cs = some n) :
    n < bound := by
  rw [natBelow?, Option.filter_eq_some_iff] at h
  simpa using h.2

/-- Two numbers are never written alike, because each is read back from what was written. -/
theorem toString_inj {m n : Nat} (h : toString m = toString n) : m = n := by
  have hm := natOfDigits?_toString m
  rw [h, natOfDigits?_toString] at hm
  exact (Option.some.inj hm).symm

end Text

/-- Tasks are told apart by their names, which are made of their numbers. So a name that is used twice
is a number that is used twice, and a refusal of the name may speak of the number. -/
theorem Task.idOf_inj {m n : Nat} (h : Task.idOf m = Task.idOf n) : m = n := by
  have hlist := congrArg String.toList h
  rw [idOf, idOf, String.toList_append, String.toList_append, List.append_cancel_left_eq] at hlist
  exact Text.toString_inj (String.toList_inj.mp hlist)

end Runbook
