import MyStockIQ.DailyRows
/-!
# The session in New York time

`valid_stock_time?` never asks for the time in New York. It adds an hour to UTC
under daylight saving time, and reads the date, the weekday and the hour off the
clock it then has, which is five hours ahead of New York. In the hours of the
session the two clocks show the same date, so it is the test of the session by
the wall clock (`validStockTime_iff`).
-/

open Gregorian

namespace MyStockIQ

open Scraper

/-- When the market closes on a day, in New York time. -/
def closeOfDay (day : Int) : Int := if Date.ofDays day ∈ halfDayArray then clock 13 0 0 else clock 16 0 0

/-- The market is open by the wall clock in New York: the day is a weekday that
is no holiday, and the time is in its hours. -/
structure OpenInNewYork (t : Time) : Prop where
  weekday : 1 ≤ weekday (nyDate t) ∧ weekday (nyDate t) ≤ 5
  opened : clock 9 30 0 ≤ nyClock t
  closes : nyClock t ≤ closeOfDay (nyDate t)
  no_holiday : Date.ofDays (nyDate t) ∉ holidayArray

/-- The seconds of the wall clock in New York: the clock of the code, five hours earlier. -/
theorem newYork_second (graph_time : Int) : toI (utcTime graph_time) + utcOffset (utcTime graph_time) =
    graph_time / 1000 + shiftAt (graph_time / 1000) - 18000 := by
  have hoffset := offsetNum_eq (utcTime graph_time)
  unfold offsetNum at hoffset
  rw [toI_utcTime] at hoffset ⊢
  omega

theorem closingClock_eq (day : Int) : closingClock day = closeOfDay day + 18000 := by
  unfold closingClock closeOfDay clock
  split <;> rfl

theorem closeOfDay_bounds (day : Int) : clock 13 0 0 ≤ closeOfDay day ∧ closeOfDay day ≤ clock 16 0 0 := by
  unfold closeOfDay clock
  split <;> omega

theorem nyDate_eq {graph_time s : Int} (h : s = graph_time / 1000 + shiftAt (graph_time / 1000)) :
    nyDate (utcTime graph_time) = (s - 18000) / 86400 := by
  unfold nyDate
  rw [newYork_second, h]

theorem nyClock_eq {graph_time s : Int} (h : s = graph_time / 1000 + shiftAt (graph_time / 1000)) :
    nyClock (utcTime graph_time) = (s - 18000) % 86400 := by
  unfold nyClock
  rw [newYork_second, h]

theorem open_of_valid {graph_time : Int} (h : validStockTime graph_time = true) : OpenInNewYork (utcTime graph_time) := by
  obtain ⟨s, hs, ⟨hsunday, hsaturday, hholiday⟩, hopen, hclosed⟩ := (valid_adjusted graph_time).1 h
  rw [closingClock_eq] at hclosed
  -- Half past two at the earliest, so five hours earlier it is the same day.
  have hsame : (s - 18000) / 86400 = s / 86400 := by unfold clock at hopen; omega
  refine ⟨?_, ?_, ?_, ?_⟩
  · rw [nyDate_eq hs, hsame]
    unfold Gregorian.weekday at *
    omega
  · rw [nyClock_eq hs]
    unfold clock at hopen ⊢
    omega
  · rw [nyClock_eq hs, nyDate_eq hs, hsame]
    unfold clock at hopen
    omega
  · rw [nyDate_eq hs, hsame]
    exact hholiday

theorem valid_of_open {graph_time : Int} (h : OpenInNewYork (utcTime graph_time)) : validStockTime graph_time = true := by
  obtain ⟨s, hs⟩ : ∃ s, s = graph_time / 1000 + shiftAt (graph_time / 1000) := ⟨_, rfl⟩
  obtain ⟨hweekday, hopen, hclosed, hholiday⟩ := h
  rw [nyDate_eq hs] at hweekday hclosed hholiday
  rw [nyClock_eq hs] at hopen hclosed
  have hb := closeOfDay_bounds ((s - 18000) / 86400)
  -- Four in the afternoon at the latest, so five hours later it is the same day.
  have hsame : s / 86400 = (s - 18000) / 86400 := by unfold clock at hopen hb; omega
  rw [valid_adjusted]
  refine ⟨s, hs, ?_⟩
  rw [closingClock_eq, hsame]
  unfold clock at hopen hb ⊢
  exact ⟨⟨by omega, by omega, hholiday⟩, by omega, by omega⟩

/-- `valid_stock_time?` is the test of the session by the wall clock in New York. -/
theorem validStockTime_iff (graph_time : Int) :
    validStockTime graph_time = true ↔ OpenInNewYork (utcTime graph_time) :=
  ⟨open_of_valid, valid_of_open⟩

end MyStockIQ
