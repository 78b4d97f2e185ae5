import MyStockIQ.Session
/-!
# The half hours of the session

A slot is a half hour by the clock in New York at which the market is open. Each trading
day has those from half past nine to its close (`openSlot_iff`).
-/

open Gregorian

namespace MyStockIQ

open Scraper

/-- The minute `m` of date `d` in New York is a half hour, a valid stock time, and after now. -/
def OpenSlot (now d m : Int) : Prop :=
  m % 30 = 0 ∧ ∃ t, t % 1000 = 0 ∧ now < t ∧ validStockTime t = true ∧ nyDate (utcTime t) = d ∧
    nyClock (utcTime t) = m * 60

/-- The instant of a minute in New York, on a day that has one offset. -/
def slotTime (d m : Int) : Int := at_ d (m * 60 + 18000 - shift d)

/-- The last slot of a day, at its close. -/
def closingSlot (d : Int) : Int := closeOfDay d / 60

/-- The session of the day is not over. -/
def SessionAhead (now d : Int) : Prop := TradingDay d ∧ now < slotTime d (closingSlot d)

theorem closingSlot_eq (d : Int) : closingSlot d = if Date.ofDays d ∈ halfDayArray then 780 else 960 := by
  unfold closingSlot closeOfDay clock
  split <;> rfl

theorem closingSlot_bounds (d : Int) : 780 ≤ closingSlot d ∧ closingSlot d ≤ 960 ∧ closingSlot d % 30 = 0 := by
  rw [closingSlot_eq]
  split <;> omega

theorem closeOfDay_eq (d : Int) : closeOfDay d = closingSlot d * 60 := by
  unfold closingSlot closeOfDay clock
  split <;> rfl

theorem slotTime_eq (d m : Int) : slotTime d m = (d * 86400 + m * 60 + 18000 - shift d) * 1000 := by
  unfold slotTime at_
  omega

/-- Slots of later days are later. -/
theorem slotTime_lt {d d' m m' : Int} (hday : d < d') (hm : m ≤ 960) (hm' : 570 ≤ m') : slotTime d m < slotTime d' m' := by
  have hb := shift_bounds d
  have hb' := shift_bounds d'
  rw [slotTime_eq, slotTime_eq]
  omega

/-- The minutes of the session read on the clock that is five hours ahead. -/
theorem newYork_slot {t d m : Int} (hd : TradingDay d) (h0 : 570 ≤ m) (h1 : m ≤ 960) (ht : t = slotTime d m) :
    t / 1000 + shiftAt (t / 1000) = d * 86400 + m * 60 + 18000 := by
  have hb := shift_bounds d
  rw [slotTime_eq] at ht
  rw [hd.shiftAt_eq (s := t / 1000) (by omega)]
  omega

theorem openSlot_of {now d m : Int} (hd : TradingDay d) (hm : m % 30 = 0) (h0 : 570 ≤ m) (h1 : m ≤ closingSlot d)
    (hnow : now < slotTime d m) : OpenSlot now d m := by
  have hlast := closingSlot_bounds d
  have hs := newYork_slot hd h0 (by omega) rfl
  have hday : (slotTime d m / 1000 + shiftAt (slotTime d m / 1000)) / 86400 = d := by omega
  refine ⟨hm, slotTime d m, ?_, hnow, ?_, ?_, ?_⟩
  · rw [slotTime_eq]
    omega
  · rw [valid_adjusted]
    refine ⟨_, rfl, ?_⟩
    rw [hday, closingClock_eq, closeOfDay_eq]
    unfold clock
    exact ⟨hd, by omega, by omega⟩
  · rw [nyDate_eq rfl]
    omega
  · rw [nyClock_eq rfl]
    omega

/-- The slots of a date. -/
theorem openSlot_iff {now d m : Int} :
    OpenSlot now d m ↔ TradingDay d ∧ m % 30 = 0 ∧ 570 ≤ m ∧ m ≤ closingSlot d ∧ now < slotTime d m := by
  constructor
  · rintro ⟨hm, t, hwhole, hnow, hvalid, hdate, hclock⟩
    obtain ⟨s, hs, hd, hopen, hclosed⟩ := (valid_adjusted t).1 hvalid
    rw [nyDate_eq hs] at hdate
    rw [nyClock_eq hs] at hclock
    have hlast := closingSlot_bounds (s / 86400)
    rw [closingClock_eq, closeOfDay_eq] at hclosed
    unfold clock at hopen
    -- From half past two on, five hours earlier it is the same day.
    have hday : s / 86400 = d := by omega
    rw [hday] at hd hclosed hlast
    have hb := shiftAt_bounds (t / 1000)
    have hshift : shiftAt (t / 1000) = shift d := hd.shiftAt_eq (by omega)
    refine ⟨hd, hm, by omega, by omega, ?_⟩
    rw [slotTime_eq]
    omega
  · rintro ⟨hd, hm, h0, h1, hnow⟩
    exact openSlot_of hd hm h0 h1 hnow

/-- A date has a slot ahead if its last one is. -/
theorem exists_openSlot {now d : Int} : (∃ m, OpenSlot now d m) ↔ SessionAhead now d := by
  have hlast := closingSlot_bounds d
  constructor
  · rintro ⟨m, h⟩
    obtain ⟨hd, -, -, hm, hnow⟩ := openSlot_iff.1 h
    refine ⟨hd, lt_of_lt_of_le hnow ?_⟩
    rw [slotTime_eq, slotTime_eq]
    omega
  · rintro ⟨hd, hnow⟩
    exact ⟨closingSlot d, openSlot_of hd (by omega) (by omega) le_rfl hnow⟩

/-! ## The slots that are left -/

/-- The seconds since the date began in New York, on a day that has one offset. -/
def sessionSecond (now d : Int) : Int := now / 1000 + shift d - 18000 - d * 86400

/-- The first slot after now. -/
def firstSlot (now d : Int) : Int :=
  if sessionSecond now d < clock 9 30 0 then 570 else (sessionSecond now d / 1800 + 1) * 30

theorem lt_slotTime_iff {now d m : Int} : now < slotTime d m ↔ sessionSecond now d < m * 60 := by
  unfold sessionSecond
  rw [slotTime_eq]
  omega

theorem firstSlot_bounds (now d : Int) : 570 ≤ firstSlot now d ∧ firstSlot now d % 30 = 0 := by
  unfold firstSlot clock
  split <;> omega

/-- On a trading day, the slots ahead are those from the first to the last. -/
theorem openSlot_between {now d m : Int} (hd : TradingDay d) :
    OpenSlot now d m ↔ m % 30 = 0 ∧ firstSlot now d ≤ m ∧ m ≤ closingSlot d := by
  rw [openSlot_iff, lt_slotTime_iff]
  unfold firstSlot clock
  split
  · constructor
    · rintro ⟨-, hm, h0, h1, -⟩
      exact ⟨hm, h0, h1⟩
    · rintro ⟨hm, h0, h1⟩
      exact ⟨hd, hm, h0, h1, by omega⟩
  · constructor
    · rintro ⟨-, hm, h0, h1, hnow⟩
      exact ⟨hm, by omega, h1⟩
    · rintro ⟨hm, h0, h1⟩
      exact ⟨hd, hm, by omega, h1, by omega⟩

theorem SessionAhead.first_le_last {now d : Int} (h : SessionAhead now d) : firstSlot now d ≤ closingSlot d := by
  obtain ⟨m, hm⟩ := exists_openSlot.2 h
  obtain ⟨-, h0, h1⟩ := (openSlot_between h.1).1 hm
  omega

/-- After a session that is not over, later ones have not begun. -/
theorem SessionAhead.not_begun {now d d' : Int} (h : SessionAhead now d) (hday : d < d') :
    sessionSecond now d' < clock 9 30 0 := by
  have hlt : slotTime d (closingSlot d) < slotTime d' 570 := slotTime_lt hday (closingSlot_bounds d).2.1 le_rfl
  exact lt_slotTime_iff.1 (h.2.trans hlt)

theorem SessionAhead.later {now d d' : Int} (h : SessionAhead now d) (hday : d ≤ d') (hd : TradingDay d') :
    SessionAhead now d' := by
  rcases eq_or_lt_of_le hday with rfl | hlt
  · exact h
  · have hlast := closingSlot_bounds d'
    exact ⟨hd, h.2.trans (slotTime_lt hlt (closingSlot_bounds d).2.1 (by omega))⟩

/-- A session that is not over is not before the date of now in UTC. -/
theorem SessionAhead.date_le {now d : Int} (h : SessionAhead now d) : now / 86400000 ≤ d := by
  have hb := shift_bounds d
  have hlast := closingSlot_bounds d
  have hnow := h.2
  rw [slotTime_eq] at hnow
  omega

/-- Stretches of half hours are the same just if their ends are. -/
theorem stretch_eq_iff {first last first' last' : Int} (h0 : first % 30 = 0) (h1 : last % 30 = 0) (h0' : first' % 30 = 0)
    (h1' : last' % 30 = 0) (hle : first' ≤ last') :
    (∀ m, m % 30 = 0 ∧ first ≤ m ∧ m ≤ last ↔ m % 30 = 0 ∧ first' ≤ m ∧ m ≤ last') ↔ first = first' ∧ last = last' := by
  constructor
  · intro h
    obtain ⟨-, hfirst', -⟩ := (h first').2 ⟨h0', le_rfl, hle⟩
    obtain ⟨-, -, hlast'⟩ := (h last').2 ⟨h1', hle, le_rfl⟩
    obtain ⟨-, hfirst, -⟩ := (h first).1 ⟨h0, le_rfl, by omega⟩
    obtain ⟨-, -, hlast⟩ := (h last).1 ⟨h1, by omega, le_rfl⟩
    exact ⟨by omega, by omega⟩
  · rintro ⟨rfl, rfl⟩ m
    exact Iff.rfl

end MyStockIQ
