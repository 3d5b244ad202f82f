import Depot.Time.Stamp
import Mathlib

/-!
# Days that the calendar has

Every day number is that of a day of the calendar, the leap day of a leap year included; and the days on
which instants fall lie in the years for which there are instants.

## Main statements

* `Date.isValid_ofDayNumber` — the date of a day is one that the calendar has.
* `Instant.year_bounds` — the years in which instants fall.
-/

namespace Depot.Time

namespace Date

/-- Only a year that ends with a leap day, as years are counted from March, has a day more than others. -/
theorem isLeapYear_of_long {day : Int} (h₀ : 0 ≤ day) (h₁ : day < 146097)
    (long : day - daysBeforeYear (yearOfEra day) = 365) (era : Int) :
    isLeapYear (era * 400 + yearOfEra day + 1) = true := by
  simp only [yearOfEra, daysBeforeYear] at long ⊢
  generalize hcentury : min (day / 36524) 3 = century at *
  generalize hfours : (day - century * 36524) / 1461 = fours at *
  generalize hyear : min ((day - century * 36524 - fours * 1461) / 365) 3 = year at *
  have hc : 0 ≤ century ∧ century ≤ 3 := by omega
  have hf : 0 ≤ fours ∧ fours ≤ 24 := by omega
  have hy : 0 ≤ year ∧ year ≤ 3 := by omega
  have hquarter : (century * 100 + fours * 4 + year) / 4 = century * 25 + fours := by omega
  have hhundred : (century * 100 + fours * 4 + year) / 100 = century := by omega
  rw [hquarter, hhundred] at long
  have hlast : year = 3 := by omega
  -- The last four years of a century have a leap day only at the end of an era.
  have hcentenary : fours = 24 → century = 3 := by omega
  simp only [isLeapYear, Bool.and_eq_true, decide_eq_true_eq, Bool.or_eq_true]
  omega

/-- A day of a year, as years are counted from March, is a day of its month. -/
theorem le_monthLength {year dayOfYear : Int} (h₀ : 0 ≤ dayOfYear) (h₁ : dayOfYear ≤ 365)
    (leap : dayOfYear = 365 → isLeapYear year = true) :
    dayOfYear - daysBeforeMonth (monthOfYear dayOfYear) + 1 ≤
      monthLength year (if monthOfYear dayOfYear < 10 then (monthOfYear dayOfYear + 3).toNat
        else (monthOfYear dayOfYear - 9).toNat) := by
  have hbounds := monthOfYear_bounds h₀ h₁
  have hmonth : 153 * monthOfYear dayOfYear ≤ 5 * dayOfYear + 2 ∧
      5 * dayOfYear + 2 < 153 * (monthOfYear dayOfYear + 1) := by
    unfold monthOfYear
    omega
  generalize monthOfYear dayOfYear = month at *
  obtain ⟨hlow, hhigh, -⟩ := hbounds
  unfold daysBeforeMonth
  interval_cases month <;> simp only [Int.reduceLT, if_true, if_false, Int.reduceAdd, Int.reduceSub,
    Int.reduceToNat, monthLength]
  case «11» =>
    split
    · omega
    · next hcommon =>
      have hshort : dayOfYear ≠ 365 := fun h => hcommon (leap h)
      omega
  all_goals omega

/-- **The date of a day is one that the calendar has.** -/
theorem isValid_ofDayNumber (n : Int) : (ofDayNumber n).isValid = true := by
  have hera : 0 ≤ (n + 719468) % 146097 ∧ (n + 719468) % 146097 < 146097 := by omega
  obtain ⟨-, -, h₀, h₁⟩ := yearOfEra_bounds hera.1 hera.2
  have hlong := isLeapYear_of_long hera.1 hera.2
  simp only [ofDayNumber]
  generalize (n + 719468) / 146097 = era at *
  generalize (n + 719468) % 146097 = dayOfEra at *
  generalize yearOfEra dayOfEra = year at *
  generalize dayOfEra - daysBeforeYear year = dayOfYear at *
  have hmonth := monthOfYear_bounds h₀ h₁
  split
  · next hearly =>
    have hshort : dayOfYear ≠ 365 := by
      unfold monthOfYear at hearly
      omega
    have hday := @le_monthLength (era * 400 + year) dayOfYear h₀ h₁ fun h => absurd h hshort
    rw [if_pos hearly] at hday
    simp only [isValid, Bool.and_eq_true, decide_eq_true_eq]
    omega
  · next hlate =>
    have hday := le_monthLength h₀ h₁ fun h => hlong h era
    rw [if_neg hlate] at hday
    simp only [isValid, Bool.and_eq_true, decide_eq_true_eq]
    omega

/-- A date that the calendar has can be written with two digits for its month and two for its day. -/
theorem le_of_isValid {d : Date} (h : d.isValid = true) : d.month ≤ 12 ∧ d.day ≤ 31 := by
  simp only [isValid, Bool.and_eq_true, decide_eq_true_eq] at h
  obtain ⟨hpos, hlength⟩ := h
  unfold monthLength at hlength
  split at hlength
  all_goals try split at hlength
  all_goals omega

/-- The years in which days fall, from the first day of one year to the last day of another. -/
theorem year_bounds {n : Int} (h₀ : -96465292 ≤ n) (h₁ : n ≤ 95026236) :
    -262143 ≤ (ofDayNumber n).year ∧ (ofDayNumber n).year ≤ 262142 := by
  have hera : 0 ≤ (n + 719468) % 146097 ∧ (n + 719468) % 146097 < 146097 := by omega
  have hn : (n + 719468) / 146097 * 146097 + (n + 719468) % 146097 = n + 719468 := by omega
  have hyear := yearOfEra_bounds hera.1 hera.2
  simp only [ofDayNumber]
  generalize (n + 719468) / 146097 = era at *
  generalize (n + 719468) % 146097 = dayOfEra at *
  generalize yearOfEra dayOfEra = year at *
  -- Only in the first era and in the last it matters when in the era the day is.
  have heras : era = -656 ∨ era = 655 ∨ -656 < era ∧ era < 655 := by omega
  unfold monthOfYear
  unfold daysBeforeYear at *
  rcases heras with rfl | rfl | heras <;> split <;> dsimp only <;> omega

end Date

/-- Instants fall in the years for which there are instants. -/
theorem Instant.year_bounds (i : Instant) : -262143 ≤ i.date.year ∧ i.date.year ≤ 262142 := by
  have hrange := i.inRange
  unfold earliestSecond latestSecond at hrange
  exact Date.year_bounds (by omega) (by omega)

end Depot.Time
