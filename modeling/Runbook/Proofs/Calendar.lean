import Mathlib.Tactic.Ring
import Runbook.Time.Calendar

/-!
# Days and dates

The date of a day is a date that there is (`exists_ofDayNumber`), and the day has the number of that
date (`dayNumber_ofDayNumber`).

Four hundred years, an era, have 146097 days. The centuries of an era are of one length but for the last,
which has a day more; the same holds of the years within four years. So a day of an era is found by
century, by four years and by year (`InEra`), and the last century and the last year take in a day that
a division would give to the next one.
-/

set_option autoImplicit false

namespace Runbook.Time

/-! ## Years of an era -/

/-- A day of an era is a day of a year of the era, both counted from zero. Years begin in March, and
only a year before the March of a leap year has a last day, the 29th of February. Counting from March
puts the leap day at the end, where it moves no other day. -/
structure InEra (dayOfEra year dayOfYear : Int) : Prop where
  year_nonneg : 0 ≤ year
  year_le : year ≤ 399
  day_nonneg : 0 ≤ dayOfYear
  day_le : dayOfYear ≤ 364 ∨
    dayOfYear = 365 ∧ (year + 1) % 4 = 0 ∧ ((year + 1) % 100 ≠ 0 ∨ year = 399)
  sum : year * 365 + year / 4 - year / 100 + dayOfYear = dayOfEra

/-- The centuries of an era have 36524 days, but for the last one, whose additional day must not be
given to a fifth century. -/
theorem exists_century {day : Int} (nonneg : 0 ≤ day) (le : day ≤ 146096) :
    ∃ century behind : Int, day = century * 36524 + behind ∧
      day / 36524 - day / 146096 = century ∧ (0 ≤ century ∧ century ≤ 3) ∧ 0 ≤ behind ∧
      (behind ≤ 36523 ∨ century = 3 ∧ behind = 36524) := by
  by_cases hlast : day = 146096
  · exact ⟨3, 36524, by omega, by omega, by omega, by omega, by omega⟩
  · exact ⟨day / 36524, day % 36524, by omega, by omega, by omega, by omega, by omega⟩

theorem exists_fourYears {day : Int} (nonneg : 0 ≤ day) (le : day ≤ 36524) :
    ∃ leap behind : Int, day = leap * 1461 + behind ∧ (0 ≤ leap ∧ leap ≤ 24) ∧ 0 ≤ behind ∧
      behind ≤ 1460 :=
  ⟨day / 1461, day % 1461, by omega, by omega, by omega, by omega⟩

/-- The years within four years have 365 days, but for the last one, in the same way. -/
theorem exists_year {day : Int} (nonneg : 0 ≤ day) (le : day ≤ 1460) :
    ∃ year rest : Int, day = year * 365 + rest ∧ (0 ≤ year ∧ year ≤ 3) ∧ 0 ≤ rest ∧
      (rest ≤ 364 ∨ year = 3 ∧ rest = 365) := by
  by_cases hlast : day = 1460
  · exact ⟨3, 365, by omega, by omega, by omega, by omega⟩
  · exact ⟨day / 365, day % 365, by omega, by omega, by omega, by omega⟩

/-- The years before a day of an era, counted from the day without the leap days before it. The one
division that the code makes thus comes to what the three divisions by century, four years and year
would find. -/
theorem year_eq {century leap year rest : Int} (hcentury : 0 ≤ century ∧ century ≤ 3)
    (hleap : 0 ≤ leap ∧ leap ≤ 24) (hyear : 0 ≤ year ∧ year ≤ 3) (nonneg : 0 ≤ rest)
    (hrest : rest ≤ 364 ∨ year = 3 ∧ rest = 365) :
    let day := century * 36524 + (leap * 1461 + (year * 365 + rest))
    (day - day / 1460 + century) / 365 = century * 100 + leap * 4 + year := by
  intro day
  obtain ⟨surplus, hsurplus⟩ : ∃ s, s = (century * 24 + leap + (year * 365 + rest)) / 1460 := ⟨_, rfl⟩
  have hquot : day / 1460 = century * 25 + leap + surplus := by
    show (century * 36524 + (leap * 1461 + (year * 365 + rest))) / 1460 = _
    omega
  rw [hquot]
  show (century * 36524 + (leap * 1461 + (year * 365 + rest)) - _ + century) / 365 = _
  -- the division counts a leap day too many only in the last of four years
  have hcases : surplus = 0 ∨ surplus = 1 ∧ year = 3 := by omega
  rcases hcases with rfl | ⟨rfl, rfl⟩
  · omega
  · omega

theorem inEra {day year : Int} (nonneg : 0 ≤ day) (le : day ≤ 146096)
    (hyear : year = (day - day / 1460 + day / 36524 - day / 146096) / 365) :
    InEra day year (day - (365 * year + year / 4 - year / 100)) := by
  obtain ⟨century, behind, hday, hquot, hcentury, hbehind, hlast⟩ := exists_century nonneg le
  obtain ⟨leap, behind', hbehind', hleap, hnonneg, hle⟩ := exists_fourYears hbehind (by omega)
  obtain ⟨last, rest, hrest', hlast', hrest, hend⟩ := exists_year hnonneg hle
  have hparts : year = century * 100 + leap * 4 + last := by
    rw [← year_eq hcentury hleap hlast' hrest hend, ← hrest', ← hbehind', ← hday, hyear]
    congr 1
    omega
  -- the years before this one are whole centuries and whole fours, so no division leaves a rest
  have hfour : year / 4 = century * 25 + leap := by
    clear hyear hquot
    omega
  have hhundred : year / 100 = century := by
    clear hyear hquot
    omega
  have hday' : day - (365 * year + year / 4 - year / 100) = rest := by
    rw [hfour, hhundred, hparts, hday, hbehind', hrest']
    ring
  rw [hday']
  clear hyear hquot
  exact ⟨by omega, by omega, hrest, by omega, by omega⟩

/-! ## Months of a year -/

namespace Date

/-- The date of a day of a year that begins in March. January and February belong to the next calendar
year. -/
def inYear (year dayOfYear : Int) : Date :=
  let month := (5 * dayOfYear + 2) / 153
  let calendarMonth := (if month < 10 then month + 3 else month - 9).toNat
  ⟨if calendarMonth ≤ 2 then year + 1 else year, calendarMonth,
    (dayOfYear - (153 * month + 2) / 5 + 1).toNat⟩

/-- The months from March on have 31, 30, 31, 30 and 31 days in turn, and the last one has what is left.
The pattern comes back every five months, so one formula gives the first day of each. -/
theorem exists_month (year : Int) {dayOfYear : Int} (nonneg : 0 ≤ dayOfYear) (le : dayOfYear ≤ 365) :
    ∃ month day : Nat, month ≤ 11 ∧ dayOfYear = ((153 * month + 2) / 5 + day : Nat) ∧
      inYear year dayOfYear = ⟨if month < 10 then year else year + 1,
        if month < 10 then month + 3 else month - 9, day + 1⟩ ∧
      day ≤ 30 ∧ (month % 5 = 1 ∨ month % 5 = 3 → day ≤ 29) ∧ (month = 11 → day ≤ 28) := by
  obtain ⟨month, hmonth⟩ := Int.eq_ofNat_of_zero_le
    (show 0 ≤ (5 * dayOfYear + 2) / 153 by omega)
  obtain ⟨day, hday⟩ := Int.eq_ofNat_of_zero_le
    (show 0 ≤ dayOfYear - (153 * ((5 * dayOfYear + 2) / 153) + 2) / 5 by omega)
  rw [hmonth] at hday
  refine ⟨month, day, by omega, by omega, ?_, by omega, by omega, by omega⟩
  rw [inYear, hmonth, hday, mk.injEq]
  refine ⟨?_, ?_, ?_⟩
  · split <;> split <;> split at * <;> omega
  · split <;> split <;> omega
  · omega

theorem ofDayNumber_eq (n : Int) : ∃ era year dayOfYear,
    InEra (n + 719468 - era * 146097) year dayOfYear ∧
      ofDayNumber n = inYear (year + era * 400) dayOfYear :=
  ⟨(n + 719468) / 146097, _, _, inEra (by omega) (by omega) rfl, rfl⟩

theorem isLeapYear_iff (y : Int) :
    isLeapYear y = true ↔ y % 4 = 0 ∧ (y % 100 ≠ 0 ∨ y % 400 = 0) := by
  simp [isLeapYear]

/-- The date of a day is a date that there is. No day becomes the 30th of February, nor the 29th in a
year without it. -/
theorem exists_ofDayNumber (n : Int) : (ofDayNumber n).exists? = true := by
  obtain ⟨era, year, dayOfYear, hera, hdate⟩ := ofDayNumber_eq n
  have hle := hera.day_le
  -- years begin in March here, so the day that a year may lack is its last one
  obtain ⟨month, day, hmonth, hday, heq, hmost, hthirty, hlast⟩ :=
    exists_month (year + era * 400) hera.day_nonneg (by omega)
  rw [hdate, heq]
  simp only [exists?, Bool.and_eq_true, decide_eq_true_eq]
  refine ⟨⟨⟨?_, ?_⟩, Nat.le_add_left 1 day⟩, ?_⟩
  · split <;> omega
  · split <;> omega
  · -- only the length of February depends on the year
    by_cases hfebruary : month = 11
    · have hday28 := hlast hfebruary
      subst hfebruary
      show day + 1 ≤ if isLeapYear (year + era * 400 + 1) then 29 else 28
      by_cases hleap : isLeapYear (year + era * 400 + 1) = true
      · rw [if_pos hleap]
        omega
      · rw [if_neg hleap]
        rw [isLeapYear_iff] at hleap
        omega
    · have hother : (if month < 10 then month + 3 else month - 9) ≠ 2 := by split <;> omega
      rw [daysInMonth, if_neg hother]
      by_cases hturn : month % 5 = 1 ∨ month % 5 = 3
      · rw [if_pos (by split <;> omega)]
        exact Nat.succ_le_succ (hthirty hturn)
      · rw [if_neg (by split <;> omega)]
        exact Nat.succ_le_succ hmost

theorem dayNumber_ofDayNumber (n : Int) : (ofDayNumber n).dayNumber = n := by
  obtain ⟨era, year, dayOfYear, hera, hdate⟩ := ofDayNumber_eq n
  have hle := hera.day_le
  obtain ⟨month, day, hmonth, hday, heq, -⟩ :=
    exists_month (year + era * 400) hera.day_nonneg (by omega)
  have hsum := hera.sum
  have hyear := hera.year_nonneg
  have hyear' := hera.year_le
  rw [hdate, heq, dayNumber]
  -- the year that begins in March, and its month, are found again
  have hmarch : (if (if month < 10 then month + 3 else month - 9) ≤ 2 then
      (if month < 10 then year + era * 400 else year + era * 400 + 1) - 1
      else if month < 10 then year + era * 400 else year + era * 400 + 1) = year + era * 400 := by
    by_cases h : month < 10
    · rw [if_pos h, if_pos h, if_neg (by omega)]
    · rw [if_neg h, if_neg h, if_pos (by omega)]
      ring
  have hmonth' : ((if month < 10 then month + 3 else month - 9) + 9) % 12 = month := by
    split <;> omega
  have hera' : (year + era * 400) / 400 = era := by omega
  simp only [hmarch, hmonth', hera']
  push_cast at hday ⊢
  omega

end Date

end Runbook.Time
