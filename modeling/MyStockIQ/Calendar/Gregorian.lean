import Mathlib.Tactic.Common
import Mathlib.Tactic.Ring
/-!
# The Gregorian calendar

Days are counted from 1970-01-01. `Date.ofDays` and `Date.toDays` convert
between the count and the year, month and day, for any integer. Years are taken
to start in March, so that the leap day is the last of its year; the calendar
repeats every 400 years, which are 146097 days.
-/

namespace Gregorian

structure Date where
  year : Int
  month : Int
  day : Int
  deriving DecidableEq, Repr

/-- The months of a year counted from March, 0 to 11. -/
def monthsFromMarch (month : Int) : Int := if 2 < month then month - 3 else month + 9

def monthOfMarch (mp : Int) : Int := if mp < 10 then mp + 3 else mp - 9

/-- The year counted from March a month of `year` belongs to. -/
def yearFromMarch (year month : Int) : Int := if month ≤ 2 then year - 1 else year

def yearOfMarch (y month : Int) : Int := if month ≤ 2 then y + 1 else y

/-- The days of the cycle before its year `yoe`. -/
def daysBeforeYear (yoe : Int) : Int := 365 * yoe + yoe / 4 - yoe / 100

/-- The days from 1970-01-01 to a date. -/
def Date.toDays (d : Date) : Int :=
  let y := yearFromMarch d.year d.month
  let doy := (153 * monthsFromMarch d.month + 2) / 5 + d.day - 1
  y / 400 * 146097 + (daysBeforeYear (y % 400) + doy) - 719468

/-- The year of the cycle a day of the cycle falls in: up to three centuries of
36524 days, then spans of four years, then up to three years of 365 days. -/
def yearOfEra (doe : Int) : Int :=
  let century := min 3 (doe / 36524)
  let span := (doe - 36524 * century) / 1461
  let year := min 3 ((doe - 36524 * century - 1461 * span) / 365)
  100 * century + 4 * span + year

/-- The date `n` days after 1970-01-01. -/
def Date.ofDays (n : Int) : Date :=
  let era := (n + 719468) / 146097
  let doe := (n + 719468) % 146097
  let yoe := yearOfEra doe
  let doy := doe - daysBeforeYear yoe
  let mp := (5 * doy + 2) / 153
  let month := monthOfMarch mp
  { year := yearOfMarch (yoe + era * 400) month
    month := month
    day := doy - (153 * mp + 2) / 5 + 1 }

/-- 0 is Sunday, 6 is Saturday. -/
def weekday (n : Int) : Int := (n + 4) % 7

/-- The first Sunday of a month. -/
def firstSunday (year month : Int) : Int :=
  let first := Date.toDays ⟨year, month, 1⟩
  first + (7 - weekday first) % 7

theorem daysBeforeYear_parts {century span year : Int} (hs0 : 0 ≤ span) (hs1 : span < 25) (hy0 : 0 ≤ year)
    (hy1 : year < 4) :
    daysBeforeYear (100 * century + 4 * span + year) = 36524 * century + 1461 * span + 365 * year := by
  unfold daysBeforeYear
  have h4 : (100 * century + 4 * span + year) / 4 = 25 * century + span := by omega
  have h100 : (100 * century + 4 * span + year) / 100 = century := by omega
  rw [h4, h100]
  ring

/-- A day of the cycle falls in a year of the cycle, no later than the 366th day. -/
theorem yearOfEra_bounds {doe : Int} (h0 : 0 ≤ doe) (h1 : doe < 146097) :
    0 ≤ yearOfEra doe ∧ yearOfEra doe < 400 ∧
      0 ≤ doe - daysBeforeYear (yearOfEra doe) ∧ doe - daysBeforeYear (yearOfEra doe) < 366 := by
  unfold yearOfEra
  dsimp only
  generalize hc : min 3 (doe / 36524) = century
  have hc' : 0 ≤ doe - 36524 * century ∧ doe - 36524 * century < 36525 ∧ 0 ≤ century ∧ century < 4 := by omega
  generalize hs : (doe - 36524 * century) / 1461 = span
  have hs' : 0 ≤ span ∧ span < 25 := by omega
  generalize hy : min 3 ((doe - 36524 * century - 1461 * span) / 365) = year
  have hy' : 0 ≤ year ∧ year < 4 := by omega
  rw [daysBeforeYear_parts hs'.1 hs'.2 hy'.1 hy'.2]
  omega

theorem monthsFromMarch_monthOfMarch {mp : Int} (h0 : 0 ≤ mp) (h1 : mp < 12) :
    monthsFromMarch (monthOfMarch mp) = mp := by
  unfold monthsFromMarch monthOfMarch
  split <;> split <;> omega

theorem yearFromMarch_yearOfMarch (y month : Int) : yearFromMarch (yearOfMarch y month) month = y := by
  unfold yearFromMarch yearOfMarch
  split <;> omega

/-- Every day has a date, which counts back to it. -/
theorem toDays_ofDays (n : Int) : (Date.ofDays n).toDays = n := by
  have hz := Int.emod_add_mul_ediv (n + 719468) 146097
  have h0 := Int.emod_nonneg (n + 719468) (b := 146097) (by omega)
  have h1 := Int.emod_lt_of_pos (n + 719468) (b := 146097) (by omega)
  obtain ⟨hy0, hy1, hd0, hd1⟩ := yearOfEra_bounds h0 h1
  simp only [Date.ofDays, Date.toDays]
  rw [monthsFromMarch_monthOfMarch (by omega) (by omega), yearFromMarch_yearOfMarch]
  rw [Int.add_mul_emod_self_right, Int.emod_eq_of_lt hy0 hy1, Int.add_mul_ediv_right _ _ (by omega),
    Int.ediv_eq_zero_of_lt hy0 hy1]
  omega

/-- The year 100 begins on the day -683003. -/
theorem hundred_le_year {n : Int} (h : -683003 ≤ n) : 100 ≤ (Date.ofDays n).year := by
  have h0 := Int.emod_nonneg (n + 719468) (b := 146097) (by omega)
  have h1 := Int.emod_lt_of_pos (n + 719468) (b := 146097) (by omega)
  have hyoe := (yearOfEra_bounds h0 h1).1
  simp only [Date.ofDays]
  by_cases hera : (n + 719468) / 146097 = 0
  · by_cases hcentury : 36524 ≤ (n + 719468) % 146097
    · have : 100 ≤ yearOfEra ((n + 719468) % 146097) := by
        unfold yearOfEra
        dsimp only
        omega
      unfold yearOfMarch
      split <;> omega
    · -- What is left are the months of January and February of the year 100.
      have hyear : yearOfEra ((n + 719468) % 146097) = 99 := by
        unfold yearOfEra
        dsimp only
        omega
      unfold yearOfMarch monthOfMarch daysBeforeYear
      rw [hyear]
      split <;> omega
  · unfold yearOfMarch
    split <;> omega

theorem weekday_firstSunday (year month : Int) : weekday (firstSunday year month) = 0 := by
  unfold firstSunday weekday
  dsimp only
  omega

example : Date.toDays ⟨2015, 7, 3⟩ = 16619 ∧ Date.ofDays 16619 = ⟨2015, 7, 3⟩ ∧ weekday 16619 = 5 := by decide

end Gregorian
