import Runbook.Proofs.Boxes
import Runbook.Proofs.Calendar
import Runbook.Time.Rfc3339

/-!
# Timestamps are read back

What is written for an instant is read as the same instant (`Instant.parse?_render`), as long as its
year is one that is written at all.

Every part of a timestamp is a number followed by a character that is no digit, or a number of as many
digits as are read at most; so each reader stops where the writer did (`number?_append`), and the parts
are read one by one whatever stands behind them.
-/

set_option autoImplicit false

namespace Runbook.Time

open Text

/-! ## Numbers with zeros in front -/

/-- A number is read up to its end when it has as many digits as may be read, or something else follows.
Without one or the other the reader would go on into what is behind. -/
theorem number?_append {most n : Nat} {digits rest : List Char} (some : digits ≠ [])
    (value : natOfDigits? digits = .some n) (fits : digits.length ≤ most)
    (stop : digits.length = most ∨ ∀ c, rest.head? = .some c → c.isDigit = false) :
    number? most (digits ++ rest) = .some (n, rest) := by
  have hall := ((natOfDigits?_eq_some_iff some).mp value).1
  have htaken : ((digits ++ rest).take most).takeWhile Char.isDigit = digits := by
    rw [List.take_append, List.take_of_length_le fits]
    apply Markdown.takeWhile_append_stop hall
    intro c hc
    rcases stop with hlength | hstop
    · rw [hlength, Nat.sub_self, List.take_zero] at hc
      cases hc
    · cases rest with
      | nil => simp at hc
      | cons d rest =>
        rw [List.head?_take] at hc
        split at hc
        · cases hc
        · exact hstop c hc
  rw [number?, htaken, value, Option.map_some, List.drop_left]

theorem toList_padded (width n : Nat) :
    (padded width n).toList =
      List.replicate (width - (Nat.toDigits 10 n).length) '0' ++ Nat.toDigits 10 n := by
  rw [padded, String.toList_append, String.toList_ofList, ← String.length_toList, toList_toString]

theorem padded_ne_nil (width n : Nat) : (padded width n).toList ≠ [] := by
  rw [toList_padded]
  exact List.append_ne_nil_of_right_ne_nil _ Nat.toDigits_ne_nil

/-- Zeros in front do not change what a number says. -/
theorem natOfDigits?_padded (width n : Nat) :
    natOfDigits? (padded width n).toList = some n := by
  rw [natOfDigits?_eq_some_iff (padded_ne_nil width n), toList_padded]
  constructor
  · intro c hc
    rcases List.mem_append.mp hc with hzero | hdigit
    · rw [List.eq_of_mem_replicate hzero]
      decide
    · exact Nat.isDigit_of_mem_toDigits (by decide) (by decide) hdigit
  · rw [Nat.ofDigitChars_append, Nat.ofDigitChars_replicate_zero, Nat.mul_zero,
      Nat.ofDigitChars_ten_toDigits]

theorem isDigit_of_mem_padded {width n : Nat} {c : Char} (h : c ∈ (padded width n).toList) :
    c.isDigit = true :=
  ((natOfDigits?_eq_some_iff (padded_ne_nil width n)).mp (natOfDigits?_padded width n)).1 c h

/-- A number that fits has exactly the digits that it is given. One that does not has more, and is not
cut. -/
theorem length_padded {width n : Nat} (pos : 0 < width) (fits : n < 10 ^ width) :
    (padded width n).toList.length = width := by
  have hle := (Nat.length_toDigits_le_iff (by decide) pos).mpr fits
  rw [toList_padded, List.length_append, List.length_replicate]
  omega

/-- A number with zeros in front is read back from where it was written. -/
theorem number?_padded {width most n : Nat} (pos : 0 < width) (fits : n < 10 ^ width)
    (le : width ≤ most) {rest : List Char}
    (stop : width = most ∨ ∀ c, rest.head? = some c → c.isDigit = false) :
    number? most ((padded width n).toList ++ rest) = some (n, rest) := by
  have hlength := length_padded pos fits
  exact number?_append (padded_ne_nil width n) (natOfDigits?_padded width n) (hlength.le.trans le)
    (stop.imp_left hlength.trans)

/-- There is nothing to be trimmed before a number, which begins with a digit. -/
theorem exists_padded (width n : Nat) :
    ∃ c cs, (padded width n).toList = c :: cs ∧ c.isDigit = true ∧ isBlank c = false := by
  obtain ⟨c, cs, heq⟩ := List.exists_cons_of_ne_nil (padded_ne_nil width n)
  have hdigit := isDigit_of_mem_padded (heq ▸ List.mem_cons_self : c ∈ (padded width n).toList)
  exact ⟨c, cs, heq, hdigit, isBlank_of_isDigit (isDigit_of_ascii hdigit)⟩

theorem trimStart_padded (width n : Nat) (rest : List Char) :
    trimStart ((padded width n).toList ++ rest) = (padded width n).toList ++ rest := by
  obtain ⟨c, cs, heq, -, hblank⟩ := exists_padded width n
  rw [heq, List.cons_append, trimStart_of_head hblank]

/-! ## Parts of a timestamp -/

theorem twoDigits?_padded {n : Nat} (fits : n < 100) (rest : List Char) :
    twoDigits? ((padded 2 n).toList ++ rest) = some (n, rest) := by
  rw [twoDigits?, trimStart_padded]
  exact number?_padded (by decide) fits le_rfl (.inl rfl)

theorem after?_of_head {c : Char} (h : isBlank c = false) (rest : List Char) :
    after? c (c :: rest) = some rest := by
  rw [after?, trimStart_of_head h]
  exact if_pos rfl

theorem year?_minus {n : Nat} {cs rest : List Char} (h : number? cs.length cs = some (n, rest)) :
    year? ('-' :: cs) = some (-(n : Int), rest) := by
  rw [year?, trimStart_of_head (by decide)]
  show Option.map _ (number? cs.length cs) = _
  rw [h]
  rfl

theorem year?_plus {n : Nat} {cs rest : List Char} (h : number? cs.length cs = some (n, rest)) :
    year? ('+' :: cs) = some ((n : Int), rest) := by
  rw [year?, trimStart_of_head (by decide)]
  show Option.map _ (number? cs.length cs) = _
  rw [h]
  rfl

theorem year?_padded {n : Nat} (fits : n < 10 ^ 4) (rest : List Char) :
    year? ((padded 4 n).toList ++ rest) = some ((n : Int), rest) := by
  have hnumber : number? 4 ((padded 4 n).toList ++ rest) = some (n, rest) :=
    number?_padded (by decide) fits le_rfl (.inl rfl)
  obtain ⟨c, cs, heq, hdigit, -⟩ := exists_padded 4 n
  rw [year?, trimStart_padded]
  rw [heq] at hnumber ⊢
  split
  · -- a digit is no sign
    rename_i hhead
    cases hhead
    cases hdigit
  · rename_i hhead
    cases hhead
    cases hdigit
  · rw [hnumber]
    rfl

section Stop

variable {rest : List Char} (stop : ∀ c, rest.head? = some c → c.isDigit = false)
include stop

/-- With a sign a year is read as far as there are digits, without one only four of them. Years of more
digits, and those before zero, are shown with a sign for that reason. -/
theorem year?_shown (y : Int) :
    year? ((shownYear y).toList ++ rest) = some (y, rest) := by
  have hsigned : ∀ n : Nat, number? ((padded 4 n).toList ++ rest).length ((padded 4 n).toList ++ rest) =
      some (n, rest) := by
    intro n
    apply number?_append (padded_ne_nil 4 n) (natOfDigits?_padded 4 n) _ (.inr stop)
    rw [List.length_append]
    exact Nat.le_add_right _ _
  rw [shownYear]
  split
  · rename_i hy
    have hread := year?_padded (show y.toNat < 10 ^ 4 by omega) rest
    rwa [Int.toNat_of_nonneg hy.1] at hread
  · rw [String.toList_append, List.append_assoc]
    split
    · rename_i hneg
      have hsign : "-".toList = ['-'] := rfl
      rw [hsign, List.singleton_append, year?_minus (hsigned y.natAbs)]
      have hsize : -(y.natAbs : Int) = y := by omega
      rw [hsize]
    · rename_i hpos
      have hsign : "+".toList = ['+'] := rfl
      rw [hsign, List.singleton_append, year?_plus (hsigned y.natAbs)]
      have hsize : (y.natAbs : Int) = y := by omega
      rw [hsize]

/-- The places behind the point are read as nanoseconds, whether three, six or nine of them are shown.
-/
theorem fraction?_places {places unit n : Nat} (pos : 0 < places) (le : places ≤ 9)
    (hunit : 10 ^ (9 - places) = unit) (fits : n < 10 ^ 9) (whole : n % unit = 0) :
    fraction? (("." ++ padded places (n / unit)).toList ++ rest) = some (n, rest) := by
  have hfits : n / unit < 10 ^ places := by
    apply Nat.div_lt_of_lt_mul
    rwa [← hunit, ← Nat.pow_add, Nat.sub_add_cancel le]
  have hlength : ((padded places (n / unit)).toList ++ rest).length - rest.length = places := by
    rw [List.length_append, length_padded pos hfits, Nat.add_sub_cancel]
  have hvalue : n / unit * Nat.pow 10 (9 - places) = n := by
    show n / unit * 10 ^ (9 - places) = n
    rw [hunit]
    exact Nat.div_mul_cancel (Nat.dvd_of_mod_eq_zero whole)
  have hrest : rest.dropWhile Char.isDigit = rest := dropWhile_eq_self_iff.mpr stop
  have hpoint : fraction? ('.' :: ((padded places (n / unit)).toList ++ rest)) = some (n, rest) := by
    rw [fraction?, number?_padded pos hfits le (.inr stop), Option.map_some]
    dsimp only
    rw [hlength, hvalue, hrest]
  have hmark : ".".toList = ['.'] := rfl
  rw [String.toList_append, List.append_assoc, hmark, List.singleton_append]
  exact hpoint

/-- Of the places that are shown none is lost, for those left out are zeros. Without a fraction no point
is shown, and none may follow. -/
theorem fraction?_shown {n : Nat} (fits : n < 10 ^ 9) (noPoint : rest.head? ≠ some '.') :
    fraction? ((shownFraction n).toList ++ rest) = some (n, rest) := by
  rw [shownFraction]
  split
  · rename_i hzero
    rw [hzero]
    show fraction? rest = _
    rw [fraction?]
    rintro cs rfl
    exact noPoint rfl
  · split
    · rename_i hwhole
      exact fraction?_places stop (by decide) (by decide) rfl fits hwhole
    · split
      · rename_i hwhole
        exact fraction?_places stop (by decide) (by decide) rfl fits hwhole
      · have hplaces := @fraction?_places rest stop 9 1 n (by decide) le_rfl rfl fits (Nat.mod_one n)
        rwa [Nat.div_one] at hplaces

end Stop

/-- Months and days of a date that exists have two digits. -/
theorem Date.lt_hundred {d : Date} (h : d.exists? = true) : d.month < 100 ∧ d.day < 100 := by
  have hmost : daysInMonth d.year d.month ≤ 31 := by
    unfold daysInMonth
    split
    · split <;> omega
    · split <;> omega
  simp only [exists?, Bool.and_eq_true, decide_eq_true_eq] at h
  omega

theorem offset?_universal : offset? ['Z'] = some (0, []) := by decide

/-! ## Instants -/

namespace Instant

theorem secondOfDay_lt (i : Instant) : i.secondOfDay < 86400 := by
  rw [secondOfDay]
  omega

theorem fraction_lt (i : Instant) : i.fraction < 10 ^ 9 := by
  rw [fraction, second]
  omega

/-- An instant is the one of its date, its time of day and its fraction of a second: they are what is
left of it when it is divided by days and by seconds. -/
theorem ofDate_parts (i : Instant) : ofDate i.date i.secondOfDay i.fraction = i := by
  rw [ofDate, date, Date.dayNumber_ofDayNumber, secondOfDay, fraction, seconds, second]
  cases i with
  | mk nanos =>
    rw [mk.injEq]
    dsimp only
    omega

/-- The characters of a timestamp, part by part with what stands between them. -/
theorem toList_render (i : Instant) :
    i.render.toList = (shownYear i.date.year).toList ++ '-' :: ((padded 2 i.date.month).toList ++
      '-' :: ((padded 2 i.date.day).toList ++ 'T' :: ((padded 2 (i.secondOfDay / 3600)).toList ++
      ':' :: ((padded 2 (i.secondOfDay / 60 % 60)).toList ++ ':' ::
      ((padded 2 (i.secondOfDay % 60)).toList ++ ((shownFraction i.fraction).toList ++ ['Z'])))))) := by
  simp [render, Date.render]

/-- An instant whose year can be written is read back from its timestamp, to the nanosecond. -/
theorem parse?_render {i : Instant} (h : i.inRange = true) : parse? i.render = some i := by
  have hexists : i.date.exists? = true := Date.exists_ofDayNumber _
  have hseconds := i.secondOfDay_lt
  obtain ⟨hmonth, hday⟩ := Date.lt_hundred hexists
  have hparts : ofDate i.date ((i.secondOfDay / 3600 : Nat) * 3600 + (i.secondOfDay / 60 % 60 : Nat) * 60 +
      (i.secondOfDay % 60 : Nat) - 0) i.fraction = i := by
    have hsum : ((i.secondOfDay / 3600 : Nat) * 3600 + (i.secondOfDay / 60 % 60 : Nat) * 60 +
        (i.secondOfDay % 60 : Nat) - 0 : Int) = i.secondOfDay := by omega
    rw [hsum, ofDate_parts]
  obtain ⟨hfirst, hlast⟩ : firstYear ≤ i.date.year ∧ i.date.year ≤ lastYear := by
    simpa [inRange] using h
  have hminus : isBlank '-' = false := by decide
  have hcolon : isBlank ':' = false := by decide
  have hzone : trimStart ['Z'] = ['Z'] := by decide
  rw [parse?, toList_render]
  -- each part is read and leaves the next one
  refine Option.bind_eq_some_iff.mpr ⟨_, year?_shown (by simp) _, ?_⟩
  refine Option.bind_eq_some_iff.mpr ⟨_, after?_of_head hminus _, ?_⟩
  refine Option.bind_eq_some_iff.mpr ⟨_, twoDigits?_padded hmonth _, ?_⟩
  refine Option.bind_eq_some_iff.mpr ⟨_, after?_of_head hminus _, ?_⟩
  refine Option.bind_eq_some_iff.mpr ⟨_, twoDigits?_padded hday _, ?_⟩
  refine Option.bind_eq_some_iff.mpr ⟨_, rfl, ?_⟩
  refine Option.bind_eq_some_iff.mpr ⟨_, twoDigits?_padded (by omega) _, ?_⟩
  refine Option.bind_eq_some_iff.mpr ⟨_, after?_of_head hcolon _, ?_⟩
  refine Option.bind_eq_some_iff.mpr ⟨_, twoDigits?_padded (by omega) _, ?_⟩
  refine Option.bind_eq_some_iff.mpr ⟨_, after?_of_head hcolon _, ?_⟩
  refine Option.bind_eq_some_iff.mpr ⟨_, twoDigits?_padded (by omega) _, ?_⟩
  refine Option.bind_eq_some_iff.mpr ⟨_, fraction?_shown (by simp) i.fraction_lt (by simp), ?_⟩
  refine Option.bind_eq_some_iff.mpr ⟨_, hzone ▸ offset?_universal, ?_⟩
  dsimp only
  rw [hparts, if_pos]
  exact ⟨by decide, hexists, by omega, by omega, by omega, by decide, hfirst, hlast, h⟩

end Instant

end Runbook.Time
