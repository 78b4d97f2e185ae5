import MyStockIQ.BrowserClock
/-!
# The two market clocks

The server asks tzinfo for the offset of New York and takes the weekday in UTC; the
browser has a zone of four segments and takes the weekday where it is. By the hour of the
day in UTC, `clocks_agree_iff` says at which instants the two answer alike.
-/

open Gregorian

namespace MyStockIQ.Browser

/-! ## The session by the hour of the day in UTC -/

def utcDay (t : Int) : Int := t / 1000 / 86400

/-- The second of the day. -/
def utcSecond (t : Int) : Int := t / 1000 % 86400

/-- From 14:30 to 20:00, or to 17:00 on a half day: the hours of the session in
summer and in winter. -/
def CoreHours (t : Int) : Prop :=
  clock 14 30 0 ≤ utcSecond t ∧ utcSecond t ≤ closingClock (utcDay t) - 3600

/-- From 13:30 to 14:30, the first hour of a session in summer. -/
def EarlyHour (t : Int) : Prop := clock 13 30 0 ≤ utcSecond t ∧ utcSecond t < clock 14 30 0

/-- The hour after the core hours, the last one of a session in winter. -/
def LateHour (t : Int) : Prop :=
  closingClock (utcDay t) - 3600 < utcSecond t ∧ utcSecond t ≤ closingClock (utcDay t)

instance (t : Int) : Decidable (CoreHours t) := inferInstanceAs (Decidable (_ ∧ _))

instance (t : Int) : Decidable (EarlyHour t) := inferInstanceAs (Decidable (_ ∧ _))

instance (t : Int) : Decidable (LateHour t) := inferInstanceAs (Decidable (_ ∧ _))

/-- The early hour in New York's summer, and the late one in its winter. -/
def EdgeOpen (t : Int) : Prop :=
  EarlyHour t ∧ daylightSaving (t / 1000) = true ∨ LateHour t ∧ daylightSaving (t / 1000) = false

/-- The early hour in New York's winter, and the late one in its summer. -/
def EdgeShut (t : Int) : Prop :=
  EarlyHour t ∧ daylightSaving (t / 1000) = false ∨ LateHour t ∧ daylightSaving (t / 1000) = true

/-- The packed zone has summer in New York's winter, or winter in its summer. -/
def WrongHour (t : Int) : Prop := ¬ (daylightSaving (t / 1000) = true ↔ packedSummer t)

instance (t : Int) : Decidable (EdgeOpen t) := inferInstanceAs (Decidable (_ ∨ _))

instance (t : Int) : Decidable (EdgeShut t) := inferInstanceAs (Decidable (_ ∨ _))

instance (t : Int) : Decidable (WrongHour t) := inferInstanceAs (Decidable (¬ _))

/-- The day of an instant that is in a session with such a shift. -/
theorem inHours_add {s shift : Int} (h0 : 0 ≤ shift) (h1 : shift ≤ 3600) :
    InHours (s + shift) ↔ Date.ofDays (s / 86400) ∉ holidayArray ∧ clock 14 30 0 ≤ s % 86400 + shift ∧
      s % 86400 + shift ≤ closingClock (s / 86400) := by
  have hc := closingClock_bounds (s / 86400)
  unfold InHours
  by_cases hday : s % 86400 + shift < 86400
  · rw [show (s + shift) / 86400 = s / 86400 by omega, show (s + shift) % 86400 = s % 86400 + shift by omega]
  · -- The shift goes past midnight.
    unfold clock at *
    constructor
    · intro h
      omega
    · intro h
      omega

theorem day_eq {s shift : Int} (h : InHours (s + shift)) (h0 : 0 ≤ shift) (h1 : shift ≤ 3600) :
    (s + shift) / 86400 = s / 86400 := by
  obtain ⟨-, h2, h3⟩ := h
  unfold clock at *
  omega

theorem browserClock_eq (t : Int) : browserClock t = t / 1000 + packedShift t / 1000 := by
  unfold browserClock packedShift
  split <;> omega

theorem packedShift_bounds (t : Int) : 0 ≤ packedShift t / 1000 ∧ packedShift t / 1000 ≤ 3600 := by
  unfold packedShift
  split <;> omega

theorem server_day {t : Int} (h : InHours (serverClock t)) : serverClock t / 86400 = utcDay t := by
  have hb := shiftAt_bounds (t / 1000)
  exact day_eq h hb.1 hb.2

theorem browser_day {t : Int} (h : InHours (browserClock t)) : browserClock t / 86400 = utcDay t := by
  have hb := packedShift_bounds t
  rw [browserClock_eq] at h ⊢
  exact day_eq h hb.1 hb.2

/-- New York is open in the core hours, and in one hour beside them. -/
theorem server_hours (t : Int) :
    InHours (serverClock t) ↔ Date.ofDays (utcDay t) ∉ holidayArray ∧ (CoreHours t ∨ EdgeOpen t) := by
  have hb := shiftAt_bounds (t / 1000)
  have hc := closingClock_bounds (utcDay t)
  unfold serverClock
  rw [inHours_add hb.1 hb.2]
  apply and_congr_right
  intro _
  unfold shiftAt EdgeOpen CoreHours EarlyHour LateHour utcSecond utcDay at *
  unfold clock at *
  cases daylightSaving (t / 1000) with
  | false => simp only [Bool.false_eq_true, if_false, and_false, and_true, false_or]; omega
  | true => simp only [if_true, reduceCtorEq, and_false, and_true, or_false]; omega

/-- So is the browser's New York, the hour beside them being another if the packed zone is wrong. -/
theorem browser_hours (t : Int) :
    InHours (browserClock t) ↔ Date.ofDays (utcDay t) ∉ holidayArray ∧
      (CoreHours t ∨ ¬ WrongHour t ∧ EdgeOpen t ∨ WrongHour t ∧ EdgeShut t) := by
  have hb := packedShift_bounds t
  have hc := closingClock_bounds (utcDay t)
  rw [browserClock_eq, inHours_add hb.1 hb.2]
  apply and_congr_right
  intro _
  unfold WrongHour EdgeOpen EdgeShut CoreHours EarlyHour LateHour utcSecond utcDay at *
  unfold packedShift clock at *
  by_cases hp : packedSummer t <;> cases daylightSaving (t / 1000) <;>
    simp only [hp, Bool.false_eq_true, if_false, if_true, reduceCtorEq, and_false, and_true, true_and, false_and,
      or_false, false_or, iff_true, iff_false, not_true_eq_false, not_false_eq_true] <;>
    omega

/-! ## When the clocks agree -/

/-- The last instant at which the browser's clock is a date. -/
def lastDate : Int := 8639999996400000

/-- When the clocks agree, on a day that is no holiday. `n` is the day in UTC
and `m` the one in the browser's own zone. -/
structure ClocksAgree (t n m : Int) : Prop where
  core : CoreHours t → (Weekend n ↔ Weekend m)
  edge : ¬ WrongHour t → EdgeOpen t → (Weekend n ↔ Weekend m)
  wrong_open : WrongHour t → EdgeOpen t → Weekend n
  wrong_shut : WrongHour t → EdgeShut t → Weekend m

theorem core_not_edge {t : Int} (h : CoreHours t) : ¬ EdgeOpen t ∧ ¬ EdgeShut t := by
  unfold CoreHours EdgeOpen EdgeShut EarlyHour LateHour at *
  omega

theorem edgeOpen_not_shut {t : Int} (h : EdgeOpen t) : ¬ EdgeShut t := by
  have hc := closingClock_bounds (utcDay t)
  unfold EdgeOpen EdgeShut EarlyHour LateHour clock at *
  cases hd : daylightSaving (t / 1000) with
  | false => simp only [hd, Bool.false_eq_true, and_false, and_true, false_or, or_false] at h ⊢; omega
  | true => simp only [hd, Bool.true_eq_false, and_false, and_true, false_or, or_false] at h ⊢; omega

/-- The server's clock by the hour of the day. -/
theorem server_open (t : Int) : MyStockIQ.validStockTime t = true ↔
    (Date.ofDays (utcDay t) ∉ holidayArray ∧ (CoreHours t ∨ EdgeOpen t)) ∧ ¬ Weekend (utcDay t) := by
  rw [server_valid, ← server_hours]
  apply and_congr_right
  intro h
  rw [server_day h]

theorem inDateRange_shift {t : Int} (h0 : 1262304000000 ≤ t) : InDateRange (t + packedShift t) ↔ t ≤ lastDate := by
  unfold InDateRange packedShift lastDate
  by_cases hsummer : packedSummer t
  · rw [if_pos hsummer]
    omega
  · rw [if_neg hsummer]
    unfold packedSummer at hsummer
    omega

/-- The browser's clock by the hour of the day. -/
theorem browser_open (zone : Int → Int) {t : Int} (h0 : 1262304000000 ≤ t) (h1 : t ≤ lastDate) :
    validStockTime zone t = true ↔ (Date.ofDays (utcDay t) ∉ holidayArray ∧
      (CoreHours t ∨ ¬ WrongHour t ∧ EdgeOpen t ∨ WrongHour t ∧ EdgeShut t)) ∧
      ¬ Weekend (localDay zone (browserClock t)) := by
  rw [browser_valid zone (by omega), BrowserInHours, inDateRange_shift h0, browser_hours]
  simp only [h1, true_and]

theorem browser_shut (zone : Int → Int) {t : Int} (h0 : 1262304000000 ≤ t) (h1 : lastDate < t) :
    validStockTime zone t = false := by
  rw [Bool.eq_false_iff, ne_eq, browser_valid zone (by omega), BrowserInHours, inDateRange_shift h0]
  omega

theorem agree_by_hour (zone : Int → Int) {t : Int} (h0 : 1262304000000 ≤ t) (h1 : t ≤ lastDate) :
    validStockTime zone t = MyStockIQ.validStockTime t ↔ Date.ofDays (utcDay t) ∈ holidayArray ∨
      ClocksAgree t (utcDay t) (localDay zone (browserClock t)) := by
  rw [Bool.eq_iff_iff, browser_open zone h0 h1, server_open]
  by_cases hholiday : Date.ofDays (utcDay t) ∈ holidayArray
  · simp [hholiday]
  simp only [hholiday, not_false_eq_true, true_and, false_or]
  -- In each hour of the day one field says when the two agree.
  by_cases hcore : CoreHours t
  · obtain ⟨hopen, hshut⟩ := core_not_edge hcore
    simp only [hcore, true_or, true_and]
    constructor
    · intro h
      exact ⟨fun _ => (not_iff_not.1 h).symm, fun _ h' => absurd h' hopen, fun _ h' => absurd h' hopen,
        fun _ h' => absurd h' hshut⟩
    · intro h
      exact not_congr (h.core hcore).symm
  by_cases hopen : EdgeOpen t
  · have hshut := edgeOpen_not_shut hopen
    simp only [hcore, hopen, hshut, false_or, and_false, or_false, and_true, true_and]
    constructor
    · intro h
      refine ⟨fun h' => absurd h' hcore, fun hright _ => ?_, fun hwrong _ => ?_, fun _ h' => absurd h' hshut⟩
      · simp only [hright, not_false_eq_true, true_and] at h
        exact (not_iff_not.1 h).symm
      · simp only [hwrong, not_true_eq_false, false_and, false_iff] at h
        exact not_not.1 h
    · intro h
      by_cases hwrong : WrongHour t
      · simp [hwrong, h.wrong_open hwrong hopen]
      · simp [hwrong, h.edge hwrong hopen]
  · simp only [hcore, hopen, false_or, and_false, false_and, iff_false]
    constructor
    · intro h
      refine ⟨fun h' => absurd h' hcore, fun _ h' => absurd h' hopen, fun _ h' => absurd h' hopen, fun hwrong hshut => ?_⟩
      exact not_not.1 fun hweekday => h ⟨⟨hwrong, hshut⟩, hweekday⟩
    · rintro h ⟨⟨hwrong, hshut⟩, hweekday⟩
      exact hweekday (h.wrong_shut hwrong hshut)

/-- In a zone near Greenwich only the packed zone sets the clocks apart, in the
first and the last hour of a session. -/
theorem agree_near_greenwich {zone : Int → Int} (hz : NearGreenwich zone) {t : Int} (h0 : 1262304000000 ≤ t)
    (h1 : t ≤ lastDate) : validStockTime zone t = MyStockIQ.validStockTime t ↔
      ¬ (TradingDay (utcDay t) ∧ WrongHour t ∧ (EarlyHour t ∨ LateHour t)) := by
  have htrading : TradingDay (utcDay t) ↔ ¬ Weekend (utcDay t) ∧ Date.ofDays (utcDay t) ∉ holidayArray := by
    unfold TradingDay Weekend
    tauto
  have hedge : EarlyHour t ∨ LateHour t ↔ EdgeOpen t ∨ EdgeShut t := by
    unfold EdgeOpen EdgeShut
    cases daylightSaving (t / 1000) <;> simp [or_comm]
  rw [agree_by_hour zone h0 h1, htrading, hedge]
  by_cases hholiday : Date.ofDays (utcDay t) ∈ holidayArray
  · simp [hholiday]
  simp only [hholiday, false_or, not_false_eq_true, and_true]
  have hsame (h : CoreHours t ∨ ¬ WrongHour t ∧ EdgeOpen t ∨ WrongHour t ∧ EdgeShut t) :
      localDay zone (browserClock t) = utcDay t := by
    have hin : InHours (browserClock t) := (browser_hours t).2 ⟨hholiday, h⟩
    rw [hin.localDay_eq hz, browser_day hin]
  constructor
  · rintro h ⟨hweekday, hwrong, hopen | hshut⟩
    · exact hweekday (h.wrong_open hwrong hopen)
    · have hweekend := h.wrong_shut hwrong hshut
      rw [hsame (.inr (.inr ⟨hwrong, hshut⟩))] at hweekend
      exact hweekday hweekend
  · intro h
    refine ⟨fun hcore => ?_, fun hright hopen => ?_, fun hwrong hopen => ?_, fun hwrong hshut => ?_⟩
    · rw [hsame (.inl hcore)]
    · rw [hsame (.inr (.inl ⟨hright, hopen⟩))]
    · exact not_not.1 fun hweekday => h ⟨hweekday, hwrong, .inl hopen⟩
    · rw [hsame (.inr (.inr ⟨hwrong, hshut⟩))]
      exact not_not.1 fun hweekday => h ⟨hweekday, hwrong, .inr hshut⟩

/-- From November 2013 to November 2015 the packed zone is wrong only between a
Saturday 17:00 UTC and the Sunday after it. -/
theorem wrongHour_near {t : Int} (h0 : 1383458400000 ≤ t) (h1 : t < 1446357600000) (hwrong : WrongHour t) :
    Weekend (utcDay t) := by
  have hd := daylightSaving_near (s := t / 1000) (by omega) (by omega)
  unfold WrongHour at hwrong
  rw [hd] at hwrong
  unfold Weekend utcDay weekday
  unfold packedSummer at hwrong
  omega

/-- The market clocks of the server and the browser. On a day that is no holiday the
hour of the day in UTC says what they take to agree. In a zone near Greenwich they only
differ in the first and the last hour of a session, at instants at which the packed zone
is wrong, and there are none from November 2013 to November 2015. A browser's clock has
no date after `lastDate`. -/
theorem clocks_agree_iff (zone : Int → Int) {t : Int} (h0 : 1262304000000 ≤ t) :
    (t ≤ lastDate → (validStockTime zone t = MyStockIQ.validStockTime t ↔
      Date.ofDays (utcDay t) ∈ holidayArray ∨ ClocksAgree t (utcDay t) (localDay zone (browserClock t)))) ∧
    (lastDate < t → (validStockTime zone t = MyStockIQ.validStockTime t ↔
      ¬ (TradingDay (utcDay t) ∧ (CoreHours t ∨ EdgeOpen t)))) ∧
    (NearGreenwich zone → t ≤ lastDate → (validStockTime zone t = MyStockIQ.validStockTime t ↔
      ¬ (TradingDay (utcDay t) ∧ WrongHour t ∧ (EarlyHour t ∨ LateHour t)))) ∧
    (NearGreenwich zone → 1383458400000 ≤ t → t < 1446357600000 →
      validStockTime zone t = MyStockIQ.validStockTime t) := by
  refine ⟨agree_by_hour zone h0, fun h1 => ?_, fun hz => agree_near_greenwich hz h0, fun hz hnear hnear' => ?_⟩
  · rw [browser_shut zone h0 h1, eq_comm, Bool.eq_false_iff, ne_eq, server_open]
    unfold TradingDay Weekend
    tauto
  · rw [agree_near_greenwich hz h0 (by unfold lastDate; omega)]
    rintro ⟨⟨hsunday, hsaturday, -⟩, hwrong, -⟩
    have hweekend := wrongHour_near hnear hnear' hwrong
    unfold Weekend at hweekend
    omega

/-- Wednesday 2010-07-07, 14:00 UTC, in a browser on UTC: New York's summer is not packed. -/
theorem clocks_agree_july :
    (1278511200000 ≤ lastDate → (validStockTime (fun _ => 0) 1278511200000 = MyStockIQ.validStockTime 1278511200000 ↔
      Date.ofDays (utcDay 1278511200000) ∈ holidayArray ∨ ClocksAgree 1278511200000 (utcDay 1278511200000)
        (localDay (fun _ => 0) (browserClock 1278511200000)))) ∧
    (lastDate < 1278511200000 → (validStockTime (fun _ => 0) 1278511200000 = MyStockIQ.validStockTime 1278511200000 ↔
      ¬ (TradingDay (utcDay 1278511200000) ∧ (CoreHours 1278511200000 ∨ EdgeOpen 1278511200000)))) ∧
    (NearGreenwich (fun _ => 0) → 1278511200000 ≤ lastDate →
      (validStockTime (fun _ => 0) 1278511200000 = MyStockIQ.validStockTime 1278511200000 ↔
        ¬ (TradingDay (utcDay 1278511200000) ∧ WrongHour 1278511200000 ∧
          (EarlyHour 1278511200000 ∨ LateHour 1278511200000)))) ∧
    (NearGreenwich (fun _ => 0) → 1383458400000 ≤ (1278511200000 : Int) → (1278511200000 : Int) < 1446357600000 →
      validStockTime (fun _ => 0) 1278511200000 = MyStockIQ.validStockTime 1278511200000) :=
  clocks_agree_iff (fun _ => 0) (by decide)

/-- Monday 2016-01-04, 20:30 UTC, in a browser on UTC: the market is open until
21:00, but the browser's New York has kept to daylight saving time since March
2015. -/
theorem clocks_disagree_winter :
    ¬ ∀ (zone : Int → Int) (t : Int), 1262304000000 ≤ t →
      validStockTime zone t = MyStockIQ.validStockTime t := by
  intro h
  have hb := h (fun _ => 0) 1451939400000 (by decide)
  exact absurd hb (by decide +kernel)

end MyStockIQ.Browser
