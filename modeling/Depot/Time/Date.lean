/-!
# Days of the calendar

The Gregorian calendar, extended without end in both directions. A `Date` and the number of its day
since 1 January 1970 are computed from each other through *eras* of 400 years, each of 146097 days:
years are counted from March, so that the leap day ends its year, and the months since March have
`(153 * m + 2) / 5` days before them.

## Main statements

* `Date.dayNumber_ofDayNumber` — the date of a day has the number of that day.
-/

namespace Depot.Time

/-- A day, by year, month and day of the month. -/
structure Date where
  year : Int
  month : Nat
  day : Nat
  deriving DecidableEq, Repr

namespace Date

/-- Whether a year has a leap day. -/
def isLeapYear (year : Int) : Bool :=
  year % 4 = 0 && (year % 100 ≠ 0 || year % 400 = 0)

/-- The number of days of a month; none of a month that does not exist. -/
def monthLength (year : Int) : Nat → Nat
  | 1 | 3 | 5 | 7 | 8 | 10 | 12 => 31
  | 4 | 6 | 9 | 11 => 30
  | 2 => if isLeapYear year then 29 else 28
  | _ => 0

/-- Whether the calendar has the day. -/
def isValid (d : Date) : Bool :=
  1 ≤ d.day && d.day ≤ monthLength d.year d.month

/-- Days before a year of an era, years counted from March. -/
def daysBeforeYear (year : Int) : Int :=
  year * 365 + year / 4 - year / 100

/-- Days before a month of a year, months counted from March. -/
def daysBeforeMonth (month : Int) : Int :=
  (153 * month + 2) / 5

/-- The number of days from 1 January 1970 to a date. -/
def dayNumber (d : Date) : Int :=
  let year := if d.month ≤ 2 then d.year - 1 else d.year
  let month : Int := if d.month ≤ 2 then d.month + 9 else (d.month : Int) - 3
  year / 400 * 146097 + daysBeforeYear (year % 400) + daysBeforeMonth month + (d.day - 1) - 719468

/-- The year of an era, counted from March, in which a day of the era falls: the last century of an
era and the last year of four are a day longer than the others. -/
def yearOfEra (day : Int) : Int :=
  let century := min (day / 36524) 3
  let dayOfCentury := day - century * 36524
  let fours := dayOfCentury / 1461
  let dayOfFours := dayOfCentury - fours * 1461
  century * 100 + fours * 4 + min (dayOfFours / 365) 3

/-- The month, counted from March, in which a day of a year falls. -/
def monthOfYear (day : Int) : Int :=
  (5 * day + 2) / 153

/-- The date of the day with a number. -/
def ofDayNumber (n : Int) : Date :=
  let era := (n + 719468) / 146097
  let dayOfEra := (n + 719468) % 146097
  let year := yearOfEra dayOfEra
  let dayOfYear := dayOfEra - daysBeforeYear year
  let month := monthOfYear dayOfYear
  let day := dayOfYear - daysBeforeMonth month + 1
  if month < 10 then ⟨era * 400 + year, (month + 3).toNat, day.toNat⟩
  else ⟨era * 400 + year + 1, (month - 9).toNat, day.toNat⟩

/-! ### Days and dates -/

theorem yearOfEra_bounds {day : Int} (h₀ : 0 ≤ day) (h₁ : day < 146097) :
    0 ≤ yearOfEra day ∧ yearOfEra day < 400 ∧ 0 ≤ day - daysBeforeYear (yearOfEra day) ∧
      day - daysBeforeYear (yearOfEra day) ≤ 365 := by
  simp only [yearOfEra, daysBeforeYear]
  generalize hcentury : min (day / 36524) 3 = century
  generalize hfours : (day - century * 36524) / 1461 = fours
  generalize hyear : min ((day - century * 36524 - fours * 1461) / 365) 3 = year
  have hc : 0 ≤ century ∧ century ≤ 3 := by omega
  have hf : 0 ≤ fours ∧ fours ≤ 24 := by omega
  have hy : 0 ≤ year ∧ year ≤ 3 := by omega
  have hquarter : (century * 100 + fours * 4 + year) / 4 = century * 25 + fours := by omega
  have hhundred : (century * 100 + fours * 4 + year) / 100 = century := by omega
  rw [hquarter, hhundred]
  omega

theorem monthOfYear_bounds {day : Int} (h₀ : 0 ≤ day) (h₁ : day ≤ 365) :
    0 ≤ monthOfYear day ∧ monthOfYear day < 12 ∧ 0 ≤ day - daysBeforeMonth (monthOfYear day) := by
  unfold monthOfYear daysBeforeMonth
  omega

/-- The date of a day has the number of that day. -/
theorem dayNumber_ofDayNumber (n : Int) : (ofDayNumber n).dayNumber = n := by
  have hera : 0 ≤ (n + 719468) % 146097 ∧ (n + 719468) % 146097 < 146097 := by omega
  have hyear := yearOfEra_bounds hera.1 hera.2
  have hmonth := monthOfYear_bounds hyear.2.2.1 hyear.2.2.2
  have hn : (n + 719468) / 146097 * 146097 + (n + 719468) % 146097 = n + 719468 := by omega
  simp only [ofDayNumber]
  generalize (n + 719468) / 146097 = era at *
  generalize (n + 719468) % 146097 = dayOfEra at *
  generalize yearOfEra dayOfEra = year at *
  generalize hdayOfYear : dayOfEra - daysBeforeYear year = dayOfYear at *
  generalize monthOfYear dayOfYear = month at *
  obtain ⟨hyear₀, hyear₁, -, -⟩ := hyear
  split
  · have hm : ¬(month + 3).toNat ≤ 2 := by omega
    have hmonth' : (((month + 3).toNat : Nat) : Int) - 3 = month := by omega
    have hy : (era * 400 + year) / 400 = era ∧ (era * 400 + year) % 400 = year := by omega
    simp only [dayNumber, hm, if_false, hmonth', hy.1, hy.2]
    omega
  · have hm : (month - 9).toNat ≤ 2 := by omega
    have hmonth' : (((month - 9).toNat : Nat) : Int) + 9 = month := by omega
    have hy : (era * 400 + year + 1 - 1) / 400 = era ∧ (era * 400 + year + 1 - 1) % 400 = year := by
      omega
    simp only [dayNumber, hm, if_true, hmonth', hy.1, hy.2]
    omega

/-- The count of days starts in 1970. -/
example : dayNumber ⟨1970, 1, 1⟩ = 0 ∧ ofDayNumber 0 = ⟨1970, 1, 1⟩ := by decide

/-- The leap day of a century that has one. -/
example : ofDayNumber (dayNumber ⟨2000, 2, 29⟩) = ⟨2000, 2, 29⟩ := by decide

end Date

end Depot.Time
