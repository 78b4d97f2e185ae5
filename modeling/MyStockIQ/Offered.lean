import MyStockIQ.OpenSlots
import MyStockIQ.Pickers
import Mathlib.Tactic.Ring
/-!
# What the pickers offer

The first date of the calendar, the dates it lists, and the first and the last time of the
list for a date, each by the reading that `CalVars` takes of New York and the zone of the
browser. Everything here holds in any zone.
-/

open Gregorian

namespace MyStockIQ.Pickers

variable {z : Zone} {now d : Int}

/-! ## The clock for New York -/

/-- An instant of the years from 2010 to 2020. -/
def Current (now : Int) : Prop := 1262304000000 ≤ now ∧ now < 1609459200000

/-- The second that the packed zone shows in New York. -/
def reading (now : Int) : Int := now / 1000 + Browser.packedShift (now / 1000 * 1000) / 1000 - 18000

theorem reading_bounds (now : Int) : now / 1000 - 18000 ≤ reading now ∧ reading now ≤ now / 1000 - 14400 := by
  unfold reading Browser.packedShift
  split <;> omega

theorem reading_range (h : Current now) : 1262280000 ≤ reading now ∧ reading now < 1609459200 := by
  have hb := reading_bounds now
  unfold Current at h
  omega

theorem est_eq (now : Int) : (calVars now).est = some ((reading now * 1000 : Int) : ℚ) := by
  have hshift : reading now * 1000 =
      now / 1000 * 1000 - (5 * 3600 * 1000 - Browser.packedShift (now / 1000 * 1000)) := by
    unfold reading Browser.packedShift
    split <;> omega
  unfold calVars
  dsimp only
  rw [Browser.offsetTime_eq, hshift, Option.map_some]
  push_cast
  ring_nf

/-- The string of an instant in whole seconds keeps it. -/
theorem parse_whole {t : Int} (hwhole : t % 1000 = 0) (hread : Browser.Readable t) :
    Browser.parseDate (Browser.gmtString (some (t : ℚ))) = some t := by
  rw [Browser.parse_gmtString hread, Option.some.injEq]
  omega

theorem hourFormat_eq (h : Current now) : (calVars now).hourFormat = some (reading now % 86400) := by
  have hr := reading_range h
  have hformat : (calVars now).hourFormat = Browser.hourString (calVars now).est := rfl
  rw [hformat, est_eq]
  unfold Browser.hourString
  rw [Browser.newDate_int, if_pos (by unfold Browser.InDateRange; omega), Option.map_some]
  rw [Int.mul_ediv_cancel _ (by decide)]

/-! ## The first date -/

/-- The instant whose date comes first in the calendar: the reading, or a day later from 16:00 on. -/
def firstTime (now : Int) : Int :=
  if reading now % 86400 < clock 16 0 0 then reading now * 1000 else (reading now + 86400) * 1000

theorem setMinTime_eq (h : Current now) : setMinTime (calVars now) = some (firstTime now) := by
  have hr := reading_range h
  have hlimit : (calVars now).hourLimit = clock 16 0 0 := rfl
  have hnext : ((reading now * 1000 : Int) : ℚ) + 24 * 3600 * 1000 = ((reading now + 86400) * 1000 : Int) := by
    push_cast
    ring
  unfold setMinTime
  dsimp only
  rw [if_neg (by simp), hourFormat_eq h, hlimit, est_eq, Option.map_some, hnext]
  unfold Browser.earlier firstTime
  by_cases hearly : reading now % 86400 < clock 16 0 0
  · rw [if_pos (by simpa using hearly), if_pos hearly]
    exact parse_whole (by omega) (by unfold Browser.Readable; omega)
  · rw [if_neg (by simpa using hearly), if_neg hearly]
    exact parse_whole (by omega) (by unfold Browser.Readable; omega)

/-- The date of an instant is one of the zone. -/
theorem has_day (z : Zone) (t : Int) : z.Has (z.day t) := by
  have h := z.begins t
  unfold LocalClock.Has
  show z.localTime (z.midnight (z.day t)) / 86400000 = z.day t
  omega

/-- A date of the zone begins at its midnight, or within the hour. -/
theorem has_bounds (h : z.Has d) :
    d * 86400000 ≤ z.localTime (z.midnight d) ∧ z.localTime (z.midnight d) ≤ d * 86400000 + 3600000 := by
  have hbegins := z.begins (z.midnight d)
  unfold LocalClock.Has at h
  rwa [h] at hbegins

theorem minDate_eq (h : Current now) :
    minDate z now = some ⟨z.day (firstTime now), z.midnight (z.day (firstTime now))⟩ := by
  unfold minDate
  rw [setMinTime_eq h, Option.map_some]
  unfold createDate createArray
  rw [has_day z (firstTime now)]

/-- Dates of the zone are in the order of their midnights. -/
theorem midnight_lt_iff {d d' : Int} (h : z.Has d) (h' : z.Has d') : z.midnight d < z.midnight d' ↔ d < d' := by
  constructor
  · intro hlt
    by_contra hle
    exact absurd (z.ordered d' d (not_lt.1 hle)) (not_le.2 hlt)
  · intro hlt
    refine lt_of_le_of_ne (z.ordered d d' hlt.le) fun heq => ?_
    unfold LocalClock.Has at h h'
    rw [heq, h'] at h
    omega

/-- The calendar has this date, and does not disable it whatever the time is. -/
def Listed (z : Zone) (d : Int) : Prop :=
  z.Has d ∧ Browser.InDateRange (z.midnight d) ∧ isDisabledMatch z (createArray z d) = false

/-- The holiday whose array has the wrong month. -/
def presidentsDay : Int := Date.toDays ⟨2011, 2, 21⟩

theorem holiday_disabled : ∀ holiday ∈ holidayArray, holiday.toDays ≠ presidentsDay →
    holiday.toDays ∈ disabledDates.map dayOfArray := by
  decide +kernel

/-- The calendar lists trading days, but for one holiday. -/
theorem trading_iff (h : Listed z d) : TradingDay d ↔ d ≠ presidentsDay := by
  obtain ⟨hhas, -, hmatch⟩ := h
  obtain ⟨hweekdays, hdates⟩ := Bool.or_eq_false_iff.1 hmatch
  unfold LocalClock.Has at hhas
  constructor
  · rintro htrading rfl
    exact absurd htrading (by decide)
  · intro hne
    have hweekday : weekday d ≠ 0 ∧ weekday d ≠ 6 := by
      simpa [disabledWeekdays, createArray, hhas] using hweekdays
    refine ⟨hweekday.1, hweekday.2, fun hholiday => ?_⟩
    have hmem := holiday_disabled _ hholiday
    rw [toDays_ofDays] at hmem
    obtain ⟨array, harray, hday⟩ := List.mem_map.1 (hmem hne)
    refine absurd (List.any_eq_false.1 hdates array harray) ?_
    simp [createArray, hday]

theorem selectable_iff (h : Current now) :
    Selectable z now d ↔ z.day (firstTime now) ≤ d ∧ Listed z d := by
  unfold Selectable Listed disabled
  rw [minDate_eq h]
  constructor
  · rintro ⟨hhas, hrange, min, hmin, hdisabled⟩
    obtain rfl := Option.some.inj hmin
    obtain ⟨hmatch, hpick⟩ := Bool.or_eq_false_iff.1 hdisabled
    refine ⟨?_, hhas, hrange, hmatch⟩
    have hle := of_decide_eq_false hpick
    rw [← not_lt]
    exact fun hlt => hle ((midnight_lt_iff hhas (has_day z _)).2 hlt)
  · rintro ⟨hle, hhas, hrange, hmatch⟩
    refine ⟨hhas, hrange, _, rfl, Bool.or_eq_false_iff.2 ⟨hmatch, decide_eq_false ?_⟩⟩
    exact fun hlt => absurd ((midnight_lt_iff hhas (has_day z _)).1 hlt) (not_lt.2 hle)

/-! ## The times -/

/-- The date begins at the same time as the date of now in UTC, which makes it today. -/
def Today (z : Zone) (now d : Int) : Prop := z.localTime (z.midnight d) = now / 86400000 * 86400000

instance (z : Zone) (now d : Int) : Decidable (Today z now d) := inferInstanceAs (Decidable (_ = _))

/-- The second of the day on the local clock that is to show the reading. -/
def localSecond (z : Zone) (now : Int) : Int :=
  z.localTime (reading now * 1000 - z.offset (reading now * 1000) * 60000) / 1000 % 86400

/-- The first time of the list, in minutes. -/
def firstOffered (z : Zone) (now d : Int) : Int :=
  if Today z now d ∧ clock 9 30 0 ≤ reading now % 86400 then (localSecond z now / 1800 + 1) * 30 % 1440 else 570

/-- The instant that tells full days from half days: the nineteenth hour of the date, as if in UTC. -/
def probe (z : Zone) (d : Int) : Int := z.localTime (z.midnight d) + 19 * 3600 * 1000

/-- The last time of the list, in minutes. -/
def lastOffered (z : Zone) (d : Int) : Int := if Browser.validStockTime z.millis (probe z d) then 960 else 780

theorem firstOffered_bounds (z : Zone) (now d : Int) :
    0 ≤ firstOffered z now d ∧ firstOffered z now d < 1440 ∧ firstOffered z now d % 30 = 0 := by
  unfold firstOffered
  split <;> omega

theorem lastOffered_bounds (z : Zone) (d : Int) :
    780 ≤ lastOffered z d ∧ lastOffered z d < 1440 ∧ lastOffered z d % 30 = 0 := by
  unfold lastOffered
  split <;> omega

theorem dayStart_eq (h : Listed z d) (h0 : 0 ≤ d) : dayStart z (z.midnight d) = some (z.localTime (z.midnight d)) := by
  have hwhole := z.whole d
  have hread : Browser.Readable (z.midnight d) := by
    have hb := has_bounds h.1
    have hoffset := z.bounded (z.midnight d)
    have hrange := h.2.1
    unfold LocalClock.localTime at hb
    unfold Browser.InDateRange at hrange
    unfold Browser.Readable
    omega
  unfold dayStart LocalClock.getTimezoneOffset LocalClock.localTime
  rw [parse_whole (by omega) hread, Option.map_some, Option.some.injEq]
  ring

theorem nextHalfHour_eq (h : Current now) :
    (nextHalfHour z (calVars now).est).map (fun time => (time.1 * 60 + time.2).tmod 1440) =
      some ((localSecond z now / 1800 + 1) * 30 % 1440) := by
  have hr := reading_range h
  have hb := z.bounded (reading now * 1000)
  have hshifted : ((reading now * 1000 : Int) : ℚ) + ((-z.offset (reading now * 1000) : Int) : ℚ) * 60 * 1000 =
      ((reading now * 1000 - z.offset (reading now * 1000) * 60000 : Int) : ℚ) := by
    push_cast
    ring
  unfold nextHalfHour LocalClock.getTimezoneOffset LocalClock.getMinutes LocalClock.getHours localSecond
  rw [est_eq, parse_whole (by omega) (by unfold Browser.Readable; omega)]
  simp only [Option.bind_eq_bind, Option.bind_some, Option.map_some]
  rw [hshifted, parse_whole (by omega) (by unfold Browser.Readable; omega)]
  simp only [Option.bind_some, Option.map_some, Option.some.injEq]
  generalize z.localTime _ = shown
  split
  · rw [Int.tmod_eq_emod_of_nonneg (by omega)]
    omega
  · rw [Int.tmod_eq_emod_of_nonneg (by omega)]
    omega

namespace TimePicker

variable {p : TimePicker} {min value : Int}

/-- A maximum on the grid of the minimum is taken as it is. -/
theorem setMax_max (hmin : p.min = some min) (h0 : 0 ≤ value) (h1 : value < 1440) (hgrid : (value - min) % 30 = 0) :
    (p.setMax value).max = value := by
  have hnormal (n : Int) (hn : (n - min) % 30 = 0) : p.normalize n = n := by
    unfold normalize interval
    rw [hmin, Option.getD_some, Int.tmod_eq_zero_of_dvd (Int.dvd_of_emod_eq_zero hn)]
    omega
  unfold setMax
  dsimp only
  rw [hmin, Option.any_some]
  split
  · rw [hnormal _ (by omega), Int.tmod_eq_emod_of_nonneg (by omega)]
    omega
  · rw [hnormal _ hgrid, Int.tmod_eq_emod_of_nonneg h0]
    omega

theorem mem_times (hmin : p.min = some min) {m : Int} :
    m ∈ p.times ↔ (m - min) % 30 = 0 ∧ min ≤ m ∧ m ≤ p.max := by
  unfold times interval
  rw [hmin]
  simp only [List.mem_map, List.mem_range]
  constructor
  · rintro ⟨i, hi, rfl⟩
    omega
  · rintro ⟨hgrid, h0, h1⟩
    exact ⟨((m - min) / 30).toNat, by omega, by omega⟩

end TimePicker

/-- The maximum is set last, and the minimum does not depend on the limits there were. -/
theorem updateTimePicker_eq (h : Current now) (hd : Listed z d) (h0 : 0 ≤ d) (p : TimePicker) :
    ∃ q : TimePicker, q.min = some (firstOffered z now d) ∧
      updateTimePicker z now (z.midnight d) (calVars now) p = q.setMax (lastOffered z d) := by
  unfold updateTimePicker firstOffered lastOffered probe Today
  dsimp only
  rw [dayStart_eq hd h0, hourFormat_eq h, Option.any_some]
  refine ⟨_, ?_, (apply_ite _ _ _ _).symm⟩
  by_cases htoday : z.localTime (z.midnight d) = now / 86400000 * 86400000
  · rw [if_pos (by rw [htoday])]
    by_cases hearly : reading now % 86400 < clock 9 30 0
    · rw [if_pos (by simpa [Browser.earlier] using hearly), if_neg (by omega)]
      rfl
    · rw [if_neg (by simpa [Browser.earlier] using hearly), if_pos ⟨htoday, by omega⟩, ← nextHalfHour_eq h]
      rfl
  · rw [if_neg (fun heq => htoday (Option.some.inj heq).symm), if_neg (fun hboth => htoday hboth.1)]
    rfl

/-- The limits for a date, whatever the picker had before. -/
theorem updateTimePicker_limits (h : Current now) (hd : Listed z d) (h0 : 0 ≤ d) (p : TimePicker) :
    (updateTimePicker z now (z.midnight d) (calVars now) p).min = some (firstOffered z now d) ∧
      (updateTimePicker z now (z.midnight d) (calVars now) p).max = lastOffered z d := by
  obtain ⟨q, hmin, hq⟩ := updateTimePicker_eq h hd h0 p
  have hfirst := firstOffered_bounds z now d
  have hlast := lastOffered_bounds z d
  rw [hq]
  exact ⟨hmin, TimePicker.setMax_max hmin (by omega) hlast.2.1 (by omega)⟩

/-- The times that are offered for a date. -/
theorem mem_offered (h : Current now) (hd : Listed z d) (h0 : 0 ≤ d) (p : TimePicker) {m : Int} :
    m ∈ (updateTimePicker z now (z.midnight d) (calVars now) p).times ↔
      m % 30 = 0 ∧ firstOffered z now d ≤ m ∧ m ≤ lastOffered z d := by
  obtain ⟨hmin, hmax⟩ := updateTimePicker_limits h hd h0 p
  have hfirst := firstOffered_bounds z now d
  rw [TimePicker.mem_times hmin, hmax]
  constructor
  · rintro ⟨hgrid, h0, h1⟩
    exact ⟨by omega, h0, h1⟩
  · rintro ⟨hgrid, h0, h1⟩
    exact ⟨by omega, h0, h1⟩

/-! ## The last time -/

/-- The browser's date at that instant. -/
def probeDate (z : Zone) (d : Int) : Int := Browser.localDay z.millis (Browser.browserClock (probe z d))

theorem probe_clock (h : z.Has d) : Browser.browserClock (probe z d) / 86400 = d ∧
    68400 ≤ Browser.browserClock (probe z d) % 86400 ∧ Browser.browserClock (probe z d) % 86400 ≤ 75600 := by
  have hb := has_bounds h
  have hshift : 0 ≤ Browser.packedShift (probe z d) ∧ Browser.packedShift (probe z d) ≤ 3600000 := by
    unfold Browser.packedShift
    split <;> omega
  have hprobe : probe z d = z.localTime (z.midnight d) + 68400000 := rfl
  unfold Browser.browserClock
  omega

/-- The last dates that a `Date` can hold are those of a weekend. -/
theorem probe_range (h : Listed z d) (h0 : 0 ≤ d) (htrading : TradingDay d) :
    Browser.InDateRange (probe z d + Browser.packedShift (probe z d)) := by
  have hclock := probe_clock h.1
  have hb := has_bounds h.1
  have hoffset := z.bounded (z.midnight d)
  obtain ⟨hsunday, hsaturday, -⟩ := htrading
  obtain ⟨-, hrange, -⟩ := h
  unfold Browser.browserClock at hclock
  unfold Browser.InDateRange at hrange ⊢
  unfold LocalClock.localTime at hb
  unfold weekday at hsunday hsaturday
  omega

theorem probe_inHours (h : Listed z d) (h0 : 0 ≤ d) (htrading : TradingDay d) :
    Browser.BrowserInHours (probe z d) ↔ Date.ofDays d ∉ halfDayArray := by
  obtain ⟨hday, hopen, hclose⟩ := probe_clock h.1
  unfold Browser.BrowserInHours Browser.InHours
  rw [hday]
  unfold closingClock clock
  by_cases hhalf : Date.ofDays d ∈ halfDayArray
  · rw [if_pos hhalf]
    simp only [hhalf, not_true, iff_false]
    rintro ⟨-, -, -, hclosed⟩
    omega
  · rw [if_neg hhalf]
    simp only [hhalf, not_false_eq_true, iff_true]
    exact ⟨probe_range h h0 htrading, htrading.2.2, by omega, by omega⟩

/-- The last time is the last slot, unless the browser takes a full day for a weekend. -/
theorem lastOffered_eq_iff (h : Listed z d) (h0 : 0 ≤ d) (htrading : TradingDay d) :
    lastOffered z d = closingSlot d ↔ (Date.ofDays d ∉ halfDayArray → ¬Browser.Weekend (probeDate z d)) := by
  have hb := has_bounds h.1
  have hvalid := Browser.browser_valid z.millis (t := probe z d) (by unfold probe; omega)
  rw [probe_inHours h h0 htrading] at hvalid
  unfold lastOffered probeDate
  rw [closingSlot_eq]
  by_cases hhalf : Date.ofDays d ∈ halfDayArray
  · simp [hhalf, hvalid]
  · by_cases hweekend : Browser.Weekend (Browser.localDay z.millis (Browser.browserClock (probe z d)))
    · simp [hhalf, hvalid, hweekend]
    · simp [hhalf, hvalid, hweekend]

end MyStockIQ.Pickers
