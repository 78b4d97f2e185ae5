import MyStockIQ.Customdate
import Mathlib.Order.Bounds.Basic
/-!
# When the market is open, and what `closest_start_time` finds

`valid_iff` reads `valid_stock_time?` day by day in UTC: each trading day has
one session, from 14:30 to its closing time, an hour earlier under daylight
saving time. On every day but a Sunday the offset is the same all day, since
the clocks change on Sundays.

`closest_start_time` is meant to find the first open minute. Its search tries
13:30 plus the offset on each day, where the session opens at 14:30 minus the
offset: `morning_valid` shows that a day passes only under daylight saving
time, an hour after its opening.
-/

open Gregorian

namespace MyStockIQ

/-- The hour added at a second since the epoch, if any. -/
def shiftAt (unix : Int) : Int := if daylightSaving unix then 3600 else 0

/-- The hour added at midnight UTC, if any. -/
def shift (n : Int) : Int := shiftAt (n * 86400)

/-- A weekday that is no holiday. -/
def TradingDay (n : Int) : Prop := weekday n ≠ 0 ∧ weekday n ≠ 6 ∧ Date.ofDays n ∉ holidayArray

instance (n : Int) : Decidable (TradingDay n) := inferInstanceAs (Decidable (_ ∧ _ ∧ _))

/-- The closing time on the clock five hours ahead of New York. -/
def closingClock (n : Int) : Int := if Date.ofDays n ∈ halfDayArray then clock 18 0 0 else clock 21 0 0

/-- The session of day `n`, in seconds of that day. -/
def opening (n : Int) : Int := clock 14 30 0 - shift n

def closing (n : Int) : Int := closingClock n - shift n

/-! ## The offset of a day -/

theorem shiftAt_bounds (s : Int) : 0 ≤ shiftAt s ∧ shiftAt s ≤ 3600 := by
  unfold shiftAt; split <;> omega

theorem shift_bounds (n : Int) : 0 ≤ shift n ∧ shift n ≤ 3600 := shiftAt_bounds _

theorem closingClock_bounds (n : Int) : clock 18 0 0 ≤ closingClock n ∧ closingClock n ≤ clock 21 0 0 := by
  unfold closingClock clock; split <;> omega

theorem toI_utcTime (g : Int) : toI (utcTime g) = g / 1000 := by
  unfold toI utcTime; omega

theorem offsetNum_eq (t : Time) : offsetNum t = shiftAt (toI t) * 1000 := by
  unfold offsetNum utcOffset shiftAt
  split <;> rfl

/-- The clocks change on Sundays, so any other day has one offset. -/
theorem daylightSaving_day {n s : Int} (hw : weekday n ≠ 0) (hs : s / 86400 = n) :
    daylightSaving s = daylightSaving (n * 86400) := by
  have hn : n * 86400 / 86400 = n := by omega
  unfold daylightSaving
  rw [hs, hn]
  dsimp only
  have hm := weekday_firstSunday (Date.ofDays n).year 3
  have hv := weekday_firstSunday (Date.ofDays n).year 11
  generalize firstSunday (Date.ofDays n).year 3 = march at hm ⊢
  generalize firstSunday (Date.ofDays n).year 11 = november at hv ⊢
  have h1 : march + 7 ≠ n := by rintro rfl; unfold weekday at hm hw; omega
  have h2 : november ≠ n := by rintro rfl; exact hw hv
  unfold clock
  congr 1 <;> rw [decide_eq_decide] <;> omega

theorem TradingDay.shiftAt_eq {n s : Int} (h : TradingDay n) (hs : s / 86400 = n) : shiftAt s = shift n := by
  unfold shift shiftAt
  rw [daylightSaving_day h.1 hs]

/-! ## Sessions -/

/-- `valid_stock_time?` on the clock five hours ahead of New York. -/
theorem valid_adjusted (g : Int) :
    validStockTime g = true ↔ ∃ s, s = g / 1000 + shiftAt (g / 1000) ∧ TradingDay (s / 86400) ∧
      clock 14 30 0 ≤ s % 86400 ∧ s % 86400 ≤ closingClock (s / 86400) := by
  have hs : (g + shiftAt (g / 1000) * 1000) / 1000 = g / 1000 + shiftAt (g / 1000) := by omega
  unfold validStockTime TradingDay closingClock
  simp only [wday, utcTimeStr, utcTimeHour, dayOf, offsetNum_eq, toI_utcTime, hs, exists_eq_left]
  generalize g / 1000 + shiftAt (g / 1000) = s
  unfold clock
  by_cases hh : Date.ofDays (s / 86400) ∈ halfDayArray
  · simp only [hh, List.contains_eq_mem, decide_true, Bool.true_and, if_true]
    grind
  · simp only [hh, List.contains_eq_mem, decide_false, Bool.false_and, if_false, Bool.false_eq_true]
    grind

/-- `valid_stock_time?` by days: a graph time is valid if its day is a trading
day and its time of day is in the session. -/
theorem valid_iff (g : Int) :
    validStockTime g = true ↔ TradingDay (g / 1000 / 86400) ∧
      opening (g / 1000 / 86400) ≤ g / 1000 % 86400 ∧ g / 1000 % 86400 ≤ closing (g / 1000 / 86400) := by
  rw [valid_adjusted]
  generalize g / 1000 = s
  have hb := shiftAt_bounds s
  unfold opening closing
  constructor
  · rintro ⟨_, rfl, ht, h1, h2⟩
    -- The session starts well after 01:00, so the hour added never leaves the day.
    have hday : (s + shiftAt s) / 86400 = s / 86400 := by unfold clock at h1; omega
    rw [hday] at ht h2
    rw [ht.shiftAt_eq rfl] at h1 h2 hb
    have hc := closingClock_bounds (s / 86400)
    unfold clock at *
    exact ⟨ht, by omega, by omega⟩
  · rintro ⟨ht, h1, h2⟩
    rw [← ht.shiftAt_eq rfl] at h1 h2
    have hc := closingClock_bounds (s / 86400)
    unfold clock at *
    have hday : (s + shiftAt s) / 86400 = s / 86400 := by omega
    refine ⟨_, rfl, ?_⟩
    rw [hday]
    exact ⟨ht, by omega, by omega⟩

/-- The graph time of a second of day `n`. -/
def at_ (n second : Int) : Int := (n * 86400 + second) * 1000

theorem valid_at {n c : Int} (h0 : 0 ≤ c) (h1 : c < 86400) :
    validStockTime (at_ n c) = true ↔ TradingDay n ∧ opening n ≤ c ∧ c ≤ closing n := by
  have hd : at_ n c / 1000 / 86400 = n := by unfold at_; omega
  have hc : at_ n c / 1000 % 86400 = c := by unfold at_; omega
  rw [valid_iff, hd, hc]

/-! ## The search of `closest_start_time` -/

/-- A trading day under daylight saving time. -/
def SummerTradingDay (n : Int) : Prop := TradingDay n ∧ daylightSaving (n * 86400) = true

instance (n : Int) : Decidable (SummerTradingDay n) := inferInstanceAs (Decidable (_ ∧ _))

/-- The first UTC day the search looks at. -/
def firstDay (graph_time : Int) : Int := forwardGraphTime (roundedGraphTime graph_time) / 86400000

theorem summer_shift {n : Int} (h : daylightSaving (n * 86400) = true) : shift n = 3600 := by
  unfold shift shiftAt; simp [h]

/-- The time of day the search tries: 13:30 plus the offset. -/
theorem morning_valid (n : Int) : validStockTime (at_ n (clock 13 30 0 + shift n)) = true ↔ SummerTradingDay n := by
  have hb := shift_bounds n
  have hc := closingClock_bounds n
  rw [valid_at (by unfold clock; omega) (by unfold clock; omega)]
  unfold SummerTradingDay opening closing
  refine and_congr_right fun _ => ?_
  cases hd : daylightSaving (n * 86400) with
  | true => rw [summer_shift hd]; unfold clock at *; simp; omega
  | false => unfold shift shiftAt; rw [hd]; unfold clock; simp

theorem searchDays_succ (f i : Int) (k : Nat) :
    searchDays f (k + 1) i = if SummerTradingDay (f / 86400000 + i)
      then some (utcTime (at_ (f / 86400000 + i) (clock 14 30 0))) else searchDays f k (i + 1) := by
  have hday : dayOf (utcTime (f + i * 24 * 3600 * 1000)) = f / 86400000 + i := by
    unfold dayOf; rw [toI_utcTime]; omega
  have hm : graphTime (beginningOfDay (utcTime (f + i * 24 * 3600 * 1000))) + 48600000 +
      offsetNum (beginningOfDay (utcTime (f + i * 24 * 3600 * 1000))) =
      at_ (f / 86400000 + i) (clock 13 30 0 + shift (f / 86400000 + i)) := by
    rw [offsetNum_eq]
    unfold graphTime beginningOfDay
    rw [hday]
    have ht : toI ((f / 86400000 + i) * 86400 * 1000000000) = (f / 86400000 + i) * 86400 := by unfold toI; omega
    rw [ht]
    unfold at_ clock shift
    omega
  rw [searchDays, hm]
  by_cases h : SummerTradingDay (f / 86400000 + i)
  · rw [if_pos ((morning_valid _).2 h), if_pos h, summer_shift h.2]
    unfold clock; rfl
  · rw [if_neg (mt (morning_valid _).1 h), if_neg h]

/-- What the search returns: 14:30 UTC of a day it looks at, a trading day under
daylight saving time. -/
theorem searchDays_some {f i : Int} {k : Nat} {r : Time} (h : searchDays f k i = some r) :
    ∃ j, i ≤ j ∧ j < i + k ∧ SummerTradingDay (f / 86400000 + j) ∧
      r = utcTime (at_ (f / 86400000 + j) (clock 14 30 0)) := by
  induction k generalizing i with
  | zero => cases h
  | succ k ih =>
    rw [searchDays_succ] at h
    split at h
    · cases h; exact ⟨i, by omega, by omega, ‹_›, rfl⟩
    · obtain ⟨j, h1, h2, h3⟩ := ih h
      exact ⟨j, by omega, by omega, h3⟩

theorem searchDays_none {f i : Int} {k : Nat} (h : searchDays f k i = none) :
    ∀ j, i ≤ j → j < i + k → ¬ SummerTradingDay (f / 86400000 + j) := by
  induction k generalizing i with
  | zero => intro j h1 h2; omega
  | succ k ih =>
    rw [searchDays_succ] at h
    split at h
    · cases h
    · intro j h1 h2
      rcases Int.lt_or_eq_of_le h1 with h1 | rfl
      · exact ih h j (by omega) (by omega)
      · assumption

theorem closest_open {t : Int} (h : validStockTime (roundedGraphTime t) = true) :
    closestStartTime t = some (utcTime (roundedGraphTime t)) := by
  unfold closestStartTime; simp [h]

theorem closest_closed {t : Int} (h : validStockTime (roundedGraphTime t) ≠ true) :
    closestStartTime t = searchDays (forwardGraphTime (roundedGraphTime t)) 11 0 := by
  unfold closestStartTime; simp [h]

/-- What `closest_start_time` returns: the minute ahead if the market is open
then, otherwise what the search finds. -/
theorem closest_cases {t : Int} {r : Time} (h : closestStartTime t = some r) :
    (validStockTime (roundedGraphTime t) = true ∧ r = utcTime (roundedGraphTime t)) ∨
    (validStockTime (roundedGraphTime t) ≠ true ∧ ∃ j, 0 ≤ j ∧ j < 11 ∧ SummerTradingDay (firstDay t + j) ∧
      r = utcTime (at_ (firstDay t + j) (clock 14 30 0))) := by
  by_cases hv : validStockTime (roundedGraphTime t) = true
  · rw [closest_open hv] at h
    cases h
    exact .inl ⟨hv, rfl⟩
  · rw [closest_closed hv] at h
    obtain ⟨j, h0, h1, hs, hr⟩ := searchDays_some h
    exact .inr ⟨hv, j, h0, by omega, hs, hr⟩

theorem graphTime_utcTime (g : Int) : graphTime (utcTime g) = g / 1000 * 1000 := by
  unfold graphTime; rw [toI_utcTime]

theorem graphTime_at (n c : Int) : graphTime (utcTime (at_ n c)) = at_ n c := by
  rw [graphTime_utcTime]; unfold at_; omega

theorem roundedGraphTime_eq (t : Int) : roundedGraphTime t = (t + 60000) / 60000 * 60000 := by
  unfold roundedGraphTime wholeMinute
  rw [toI_utcTime]
  omega

theorem graphTime_rounded (t : Int) : graphTime (utcTime (roundedGraphTime t)) = roundedGraphTime t := by
  rw [graphTime_utcTime, roundedGraphTime_eq]
  omega

theorem valid_morning {n : Int} (h : SummerTradingDay n) : validStockTime (at_ n (clock 14 30 0)) = true := by
  have hm := (morning_valid n).2 h
  rw [summer_shift h.2] at hm
  exact hm

theorem closest_valid {t : Int} {r : Time} (h : closestStartTime t = some r) : validStockTime (graphTime r) = true := by
  rcases closest_cases h with ⟨hv, rfl⟩ | ⟨-, j, -, -, hs, rfl⟩
  · rwa [graphTime_rounded]
  · rw [graphTime_at]
    exact valid_morning hs

/-- `closest_start_time` returns a valid time exactly when the minute ahead is
open, or one of the eleven days it searches is a trading day under daylight
saving time. -/
theorem closestStartTime_valid_iff (t : Int) :
    (∃ r, closestStartTime t = some r ∧ validStockTime (graphTime r) = true) ↔
      validStockTime (roundedGraphTime t) = true ∨ ∃ j, 0 ≤ j ∧ j < 11 ∧ SummerTradingDay (firstDay t + j) := by
  constructor
  · rintro ⟨r, hr, -⟩
    rcases closest_cases hr with ⟨hv, -⟩ | ⟨-, j, h0, h1, hs, -⟩
    · exact .inl hv
    · exact .inr ⟨j, h0, h1, hs⟩
  · intro h
    by_cases hv : validStockTime (roundedGraphTime t) = true
    · exact ⟨_, closest_open hv, closest_valid (closest_open hv)⟩
    · obtain ⟨j, h0, h1, hs⟩ := h.resolve_left hv
      cases hr : closestStartTime t with
      | none =>
        rw [closest_closed hv] at hr
        exact absurd hs (searchDays_none hr j h0 (by omega))
      | some r => exact ⟨r, rfl, closest_valid hr⟩

/-- Thursday 2015-01-22, a minute past the close: no morning of the next eleven
days passes, so there is no start time. -/
theorem closestStartTime_winter_evening :
    ¬ ∀ t : Int, 1262304000000 ≤ t → ∃ r, closestStartTime t = some r ∧ validStockTime (graphTime r) = true := by
  intro h
  obtain ⟨r, hr, -⟩ := h 1421960460000 (by decide)
  have hn : closestStartTime 1421960460000 = none := by decide
  rw [hn] at hr
  cases hr

/-! ## The first open minute -/

/-- The open minutes from `m` on. -/
def openMinutes (m : Int) : Set Int := {g | g % 60000 = 0 ∧ m ≤ g ∧ validStockTime g = true}

/-- 13:30 UTC is the opening of a trading day under daylight saving time. -/
theorem valid_opening {n : Int} (h : SummerTradingDay n) : validStockTime (at_ n (clock 13 30 0)) = true := by
  have hc := closingClock_bounds n
  rw [valid_at (by decide) (by decide)]
  unfold opening closing
  rw [summer_shift h.2]
  unfold clock at *
  exact ⟨h.1, by omega, by omega⟩

/-- Between 13:30 and 14:30 UTC such a day is open. -/
theorem valid_of_first_hour {n m : Int} (h : SummerTradingDay n) (h0 : at_ n (clock 13 30 0) ≤ m)
    (h1 : m ≤ at_ n (clock 14 30 0)) : validStockTime m = true := by
  have hc := closingClock_bounds n
  unfold at_ clock at *
  have hd : m / 1000 / 86400 = n := by omega
  rw [valid_iff, hd]
  unfold opening closing
  rw [summer_shift h.2]
  unfold clock
  exact ⟨h.1, by omega, by omega⟩

/-- What `closest_start_time` returns is the first open minute only if the
minute ahead is itself open. A day found by the search is open from 13:30 UTC,
an hour before the time returned. -/
theorem closestStartTime_first_iff (t : Int) (r : Time) (h : closestStartTime t = some r) :
    IsLeast (openMinutes (roundedGraphTime t)) (graphTime r) ↔ validStockTime (roundedGraphTime t) = true := by
  constructor
  · intro hl
    rcases closest_cases h with ⟨hv, -⟩ | ⟨hv, j, -, -, hs, rfl⟩
    · exact hv
    · rw [graphTime_at] at hl
      obtain ⟨⟨-, hle, -⟩, hmin⟩ := hl
      by_contra
      by_cases hm : at_ (firstDay t + j) (clock 13 30 0) ≤ roundedGraphTime t
      · exact hv (valid_of_first_hour hs hm hle)
      · have hopen : at_ (firstDay t + j) (clock 13 30 0) ∈ openMinutes (roundedGraphTime t) :=
          ⟨by unfold at_ clock; omega, by omega, valid_opening hs⟩
        have := hmin hopen
        unfold at_ clock at this
        omega
  · intro hv
    obtain ⟨-, rfl⟩ | ⟨hv', -⟩ := closest_cases h
    · rw [graphTime_rounded]
      exact ⟨⟨by rw [roundedGraphTime_eq]; omega, le_refl _, hv⟩, fun g hg => hg.2.1⟩
    · exact absurd hv hv'

/-- 2015-01-21 20:10:20 is inside a session. -/
theorem closestStartTime_first_session :
    IsLeast (openMinutes (roundedGraphTime 1421871020000)) 1421871060000 :=
  (closestStartTime_first_iff 1421871020000 1421871060000000000 (by decide)).2 (by decide)

/-- Monday 2015-07-06, 21:00 UTC: the next session opens at 13:30, and 14:30 is
returned. -/
theorem closestStartTime_skips_an_hour :
    ¬ ∀ t : Int, 1262304000000 ≤ t → ∀ r, closestStartTime t = some r →
      IsLeast (openMinutes (roundedGraphTime t)) (graphTime r) := by
  intro h
  have hl := h 1436216400000 (by decide) 1436279400000000000 (by decide)
  have hopen : (1436275800000 : Int) ∈ openMinutes (roundedGraphTime 1436216400000) :=
    ⟨by decide, by decide, by decide⟩
  exact absurd (hl.2 hopen) (by decide)

/-! ## Half days -/

/-- The afternoon of a half day under daylight saving time: from the close at
17:00 UTC to 20:00. -/
def HalfDayAfternoon (g : Int) : Prop :=
  SummerTradingDay (g / 1000 / 86400) ∧ Date.ofDays (g / 1000 / 86400) ∈ halfDayArray ∧
    clock 17 0 0 < g / 1000 % 86400 ∧ g / 1000 % 86400 < clock 20 0 0

instance (g : Int) : Decidable (HalfDayAfternoon g) := inferInstanceAs (Decidable (_ ∧ _ ∧ _ ∧ _))

theorem firstDay_eq (t : Int) :
    firstDay t = (roundedGraphTime t / 1000 + 3 * 3600 + shiftAt (roundedGraphTime t / 1000)) / 86400 := by
  unfold firstDay forwardGraphTime
  rw [offsetNum_eq, toI_utcTime, roundedGraphTime_eq]
  omega

/-- A search that finds a time before the minute it started from started in the
afternoon of a half day. -/
theorem closest_ahead {t : Int} {r : Time} (h : closestStartTime t = some r)
    (hn : ¬ HalfDayAfternoon (roundedGraphTime t)) : roundedGraphTime t ≤ graphTime r := by
  rcases closest_cases h with ⟨-, rfl⟩ | ⟨hv, j, h0, -, hs, rfl⟩
  · rw [graphTime_rounded]
  · rw [graphTime_at]
    have hb := shiftAt_bounds (roundedGraphTime t / 1000)
    have hfd := firstDay_eq t
    have hr := roundedGraphTime_eq t
    by_contra hlt
    -- The time found is earlier the same day, so the search began on that day.
    have hday : firstDay t + j = roundedGraphTime t / 1000 / 86400 := by unfold at_ clock at hlt; omega
    rw [hday] at hs hlt
    have hsh : shiftAt (roundedGraphTime t / 1000) = 3600 := by
      rw [hs.1.shiftAt_eq rfl, summer_shift hs.2]
    have hafter : clock 14 30 0 < roundedGraphTime t / 1000 % 86400 ∧
        roundedGraphTime t / 1000 % 86400 < clock 20 0 0 := by
      unfold at_ clock at *; omega
    rw [Ne, valid_iff] at hv
    unfold HalfDayAfternoon at hn
    unfold opening closing closingClock at hv
    rw [summer_shift hs.2] at hv
    by_cases hh : Date.ofDays (roundedGraphTime t / 1000 / 86400) ∈ halfDayArray
    · rw [if_pos hh] at hv
      refine hv ⟨hs.1, ?_, ?_⟩
      · unfold clock at *; omega
      · by_contra hc
        exact hn ⟨hs, hh, by unfold clock at *; omega, hafter.2⟩
    · rw [if_neg hh] at hv
      refine hv ⟨hs.1, ?_, ?_⟩ <;> unfold clock at * <;> omega

/-- In the afternoon of a half day the search finds the same day's morning. -/
theorem closest_halfDay {t : Int} (h : HalfDayAfternoon (roundedGraphTime t)) :
    closestStartTime t = some (utcTime (at_ (roundedGraphTime t / 1000 / 86400) (clock 14 30 0))) := by
  obtain ⟨hs, hh, h1, h2⟩ := h
  have hsh : shiftAt (roundedGraphTime t / 1000) = 3600 := by
    rw [hs.1.shiftAt_eq rfl, summer_shift hs.2]
  have hv : validStockTime (roundedGraphTime t) ≠ true := by
    rw [Ne, valid_iff]
    rintro ⟨-, -, hc⟩
    unfold closing closingClock at hc
    rw [if_pos hh, summer_shift hs.2] at hc
    unfold clock at *
    omega
  have hday : firstDay t = roundedGraphTime t / 1000 / 86400 := by
    rw [firstDay_eq, hsh]; unfold clock at *; omega
  rw [closest_closed hv, searchDays_succ]
  unfold firstDay at hday
  rw [hday, Int.add_zero, if_pos hs]

end MyStockIQ
