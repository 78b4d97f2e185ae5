import MyStockIQ.MarketClocks
import MyStockIQ.PickersRight
/-!
# When the pickers are right

In a zone that is less than four hours ahead of UTC, and neither puts its clock forward nor
back these days, the pickers are right at some times of the day in New York: before the close
of a session, from the time on at which the browser has its date too, and in the evening before
a session, as long as UTC has the same date (`pickers_right_iff`). Four hours ahead of UTC or
more they are never right.
-/

open Gregorian

namespace MyStockIQ.Pickers

open Scraper

variable {z : Zone} {now o d : Int}

/-! ## The clock in New York -/

/-- The second that is shown in New York. -/
def newYorkSecond (now : Int) : Int := now / 1000 + shiftAt (now / 1000) - 18000

theorem nyDate_now (now : Int) : nyDate (utcTime now) = newYorkSecond now / 86400 := nyDate_eq rfl

theorem nyClock_now (now : Int) : nyClock (utcTime now) = newYorkSecond now % 86400 := nyClock_eq rfl

/-- Where the packed zone is right the page has the time of New York. -/
theorem reading_eq (hright : ¬Browser.WrongHour now) : reading now = newYorkSecond now := by
  have hpacked : Browser.packedShift (now / 1000 * 1000) = shiftAt (now / 1000) * 1000 := by
    have hsame : Browser.packedSummer (now / 1000 * 1000) ↔ daylightSaving (now / 1000) = true := by
      rw [not_not.1 hright]
      unfold Browser.packedSummer
      omega
    unfold Browser.packedShift shiftAt
    by_cases hsummer : daylightSaving (now / 1000) = true
    · rw [if_pos (hsame.2 hsummer), if_pos hsummer]
      rfl
    · rw [if_neg (mt hsame.1 hsummer), if_neg hsummer]
      rfl
  unfold reading newYorkSecond
  rw [hpacked]
  omega

/-- The date in New York has a session ahead if it is a trading day before its close. -/
theorem sessionAhead_today (now : Int) :
    SessionAhead now (newYorkSecond now / 86400) ↔ TradingDay (newYorkSecond now / 86400) ∧
      newYorkSecond now % 86400 < closeOfDay (newYorkSecond now / 86400) := by
  have hb := shiftAt_bounds (now / 1000)
  have hlast := closingSlot_bounds (newYorkSecond now / 86400)
  unfold SessionAhead
  apply and_congr_right
  intro htrading
  rw [slotTime_eq, closeOfDay_eq]
  by_cases hday : now / 1000 / 86400 = newYorkSecond now / 86400
  · have hshift := htrading.shiftAt_eq hday
    unfold newYorkSecond at *
    omega
  · -- UTC has the next date, hours after the close.
    have hb' := shift_bounds (newYorkSecond now / 86400)
    unfold newYorkSecond at *
    omega

/-- Sessions of earlier dates are over. -/
theorem not_sessionAhead_before (hbefore : d < newYorkSecond now / 86400) : ¬SessionAhead now d := by
  rintro ⟨-, hnow⟩
  have hb := shiftAt_bounds (now / 1000)
  have hb' := shift_bounds d
  have hlast := closingSlot_bounds d
  rw [slotTime_eq] at hnow
  unfold newYorkSecond at hbefore
  omega

/-- Sessions of later dates are ahead. -/
theorem sessionAhead_after (hafter : newYorkSecond now / 86400 < d) (htrading : TradingDay d) : SessionAhead now d := by
  have hb := shiftAt_bounds (now / 1000)
  have hb' := shift_bounds d
  have hlast := closingSlot_bounds d
  refine ⟨htrading, ?_⟩
  rw [slotTime_eq]
  unfold newYorkSecond at hafter
  omega

/-- The holiday of the calendar that is listed is past, once the session before it is over. -/
theorem presidentsDay_lt_iff {day : Int} (hleast : IsLeast {d | SessionAhead now d} day) :
    presidentsDay < day ↔ 1298062800000 ≤ now := by
  have hfriday : slotTime 15023 (closingSlot 15023) = 1298062800000 ∧ TradingDay 15023 ∧ presidentsDay = 15026 ∧
      ¬TradingDay 15024 ∧ ¬TradingDay 15025 ∧ ¬TradingDay 15026 := by decide
  obtain ⟨hclose, htrading, hpresidents, hsaturday, hsunday, hmonday⟩ := hfriday
  obtain ⟨hahead, hfirst⟩ := hleast
  constructor
  · intro hlt
    by_contra hbefore
    have hle := hfirst (⟨htrading, by omega⟩ : SessionAhead now 15023)
    omega
  · intro hnow
    by_contra hle
    have hday : day ≤ 15023 := by
      have hne (n : Int) (hn : ¬TradingDay n) : day ≠ n := fun heq => hn (heq ▸ hahead.1)
      have h1 := hne _ hsaturday
      have h2 := hne _ hsunday
      have h3 := hne _ hmonday
      omega
    have hlast := closingSlot_bounds day
    have hover : slotTime day (closingSlot day) ≤ slotTime 15023 (closingSlot 15023) := by
      rcases eq_or_lt_of_le hday with rfl | hlt
      · exact le_rfl
      · exact (slotTime_lt hlt hlast.2.1 (by decide)).le
    have hnot := hahead.2
    omega

/-! ## Steady zones -/

/-- A zone from 16 hours behind UTC to just under 4 ahead whose dates begin at midnight, with the
offset `o` within two days of now. -/
structure Steady (z : Zone) (now o : Int) : Prop where
  midnight : ∀ d, z.localTime (z.midnight d) = d * 86400000
  west : ∀ t, -960 ≤ z.offset t ∧ z.offset t < 240
  near : ∀ t, now - 172800000 ≤ t → t ≤ now + 172800000 → z.offset t = o

theorem Steady.bounds (h : Steady z now o) : -960 ≤ o ∧ o < 240 := by
  rw [← h.near now (by omega) (by omega)]
  exact h.west now

theorem Steady.day_eq (h : Steady z now o) {s : Int} (h0 : now - 172800000 ≤ s * 1000) (h1 : s * 1000 ≤ now + 172800000) :
    z.day (s * 1000) = (s + o * 60) / 86400 := by
  unfold LocalClock.day LocalClock.localTime
  rw [h.near _ h0 h1]
  omega

theorem Steady.localSecond_eq (h : Steady z now o) : localSecond z now = reading now % 86400 := by
  have hb := reading_bounds now
  have ho := h.bounds
  unfold localSecond LocalClock.localTime
  rw [h.near (reading now * 1000) (by omega) (by omega), h.near _ (by omega) (by omega)]
  omega

theorem Steady.today_iff (h : Steady z now o) : Today z now d ↔ now / 86400000 = d := by
  unfold Today
  rw [h.midnight]
  omega

/-- All trading days are listed after the holiday that is. -/
theorem disabled_closed : ∀ array ∈ disabledDates, presidentsDay < dayOfArray array →
    Date.ofDays (dayOfArray array) ∈ holidayArray := by
  decide +kernel

/-- The calendar lists the dates from Monday to Friday that it has no array for. -/
theorem listed_of (hmidnight : ∀ d, z.localTime (z.midnight d) = d * 86400000) (hd : 0 ≤ d ∧ d ≤ 50000)
    (hweekday : weekday d ≠ 0 ∧ weekday d ≠ 6) (hnot : ∀ array ∈ disabledDates, dayOfArray array ≠ d) : Listed z d := by
  have hhas (d : Int) : z.day (z.midnight d) = d := by
    unfold LocalClock.day
    rw [hmidnight]
    omega
  refine ⟨hhas d, ?_, Bool.or_eq_false_iff.2 ⟨?_, List.any_eq_false.2 fun array harray => ?_⟩⟩
  · have hoffset := z.bounded (z.midnight d)
    have hd' := hmidnight d
    unfold LocalClock.localTime at hd'
    unfold Browser.InDateRange
    omega
  · simp [disabledWeekdays, createArray, hhas, hweekday.1, hweekday.2]
  · intro hpick
    apply hnot array harray
    have hpick : z.midnight d = z.midnight (dayOfArray array) := of_decide_eq_true hpick
    rw [← hhas (dayOfArray array), ← hpick]
    exact hhas d

theorem Steady.listed (h : Steady z now o) (htrading : TradingDay d) (hlater : presidentsDay < d) (hd : d ≤ 50000) :
    Listed z d := by
  have hpresidents : presidentsDay = 15026 := by decide
  refine listed_of h.midnight ⟨by omega, hd⟩ ⟨htrading.1, htrading.2.1⟩ fun array harray hday => ?_
  exact htrading.2.2 (hday ▸ disabled_closed array harray (hday ▸ hlater))

theorem Steady.presidents_listed (h : Steady z now o) : Listed z presidentsDay :=
  listed_of h.midnight (by decide) (by decide) (by decide +kernel)

/-- The hour at which the browser probes a date is the same date in its zone. -/
theorem Steady.probeDate_eq (h : Steady z now o) (d : Int) : probeDate z d = d := by
  have hprobe : probe z d = d * 86400000 + 68400000 := by
    unfold probe
    rw [h.midnight]
    rfl
  have hb : 0 ≤ Browser.packedShift (probe z d) ∧ Browser.packedShift (probe z d) ≤ 3600000 := by
    unfold Browser.packedShift
    split <;> omega
  have hwest := h.west (Browser.browserClock (probe z d) * 1000)
  unfold probeDate Browser.localDay LocalClock.millis
  generalize z.offset _ = offset at hwest
  unfold Browser.browserClock
  omega

/-! ## The times of the day -/

/-- When the pickers are right, by the date and the clock in New York, where the browser's zone has the
offset `o`. Before the close of a session: once the browser's own clock, put forward or back from New York's
by its offset to UTC, has the date too. In the evening: as long as UTC has the same date, if the next day is one of
trading. Once that clock has the next date: if the market is closed on the next day, and not on the one after. -/
inductive RightTime (now o date clock : Int) : Prop where
  | session (trading : TradingDay date) (opened : clock < closeOfDay date) (same : 0 ≤ clock + o * 60)
  | evening (late : 57600 ≤ clock) (same : now / 86400000 = date) (next : TradingDay (date + 1))
  | night (late : 57600 ≤ clock) (ahead : 86400 ≤ clock + o * 60) (closed : ¬TradingDay (date + 1))
    (next : TradingDay (date + 2))

/-- The offset of the date of now in UTC. -/
theorem utcDate_eq (now : Int) : now / 86400000 = newYorkSecond now / 86400 ∨
    now / 86400000 = newYorkSecond now / 86400 + 1 ∧ 68400 ≤ newYorkSecond now % 86400 := by
  have hb := shiftAt_bounds (now / 1000)
  unfold newYorkSecond
  omega

theorem utcDate_of_early (now : Int) (hearly : newYorkSecond now % 86400 < 57600) :
    now / 86400000 = newYorkSecond now / 86400 := by
  rcases utcDate_eq now with h | ⟨-, hlate⟩
  · exact h
  · omega

variable {day : Int}

/-- A session that is ahead is today's if it is not over, and else a later one. -/
theorem ahead_cases (hleast : IsLeast {d | SessionAhead now d} day) :
    day = newYorkSecond now / 86400 ∧ SessionAhead now day ∨
      newYorkSecond now / 86400 < day ∧ TradingDay day ∧ ¬SessionAhead now (newYorkSecond now / 86400) := by
  obtain ⟨hahead, hfirst⟩ := hleast
  rcases lt_trichotomy day (newYorkSecond now / 86400) with hlt | heq | hlt
  · exact absurd hahead (not_sessionAhead_before hlt)
  · exact .inl ⟨heq, hahead⟩
  · exact .inr ⟨hlt, hahead.1, fun htoday => absurd (hfirst htoday) (not_le.2 hlt)⟩

/-- The first session ahead, if there is none today and none on the days up to this one. -/
theorem isLeast_later (hover : ¬SessionAhead now (newYorkSecond now / 86400)) (htrading : TradingDay day)
    (hafter : newYorkSecond now / 86400 < day)
    (hbetween : ∀ d, newYorkSecond now / 86400 < d → d < day → ¬TradingDay d) : IsLeast {d | SessionAhead now d} day := by
  refine ⟨sessionAhead_after hafter htrading, fun d hahead => ?_⟩
  by_contra hlt
  rcases lt_trichotomy d (newYorkSecond now / 86400) with hbefore | heq | hlater
  · exact not_sessionAhead_before hbefore hahead
  · exact hover (heq ▸ hahead)
  · exact hbetween d hlater (not_le.1 hlt) hahead.1

theorem sessionSecond_today (htrading : TradingDay (newYorkSecond now / 86400)) (hearly : newYorkSecond now % 86400 < 57600) :
    sessionSecond now (newYorkSecond now / 86400) = newYorkSecond now % 86400 := by
  have hutc := utcDate_of_early now hearly
  have hshift := htrading.shiftAt_eq (s := now / 1000) (by omega)
  unfold sessionSecond newYorkSecond at *
  omega

theorem sessionSecond_later (hafter : newYorkSecond now / 86400 < d) : sessionSecond now d < 3600 := by
  have hb := shiftAt_bounds (now / 1000)
  have hb' := shift_bounds d
  unfold sessionSecond newYorkSecond at *
  omega

theorem not_ahead_of_late (hlate : 57600 ≤ newYorkSecond now % 86400) : ¬SessionAhead now (newYorkSecond now / 86400) := by
  have hb := closeOfDay_bounds (newYorkSecond now / 86400)
  rw [sessionAhead_today]
  unfold clock at hb
  omega

/-- The date the calendar begins with, in a steady zone. -/
theorem Steady.first_date (h : Steady z now o) (hright : ¬Browser.WrongHour now) (hreads : ReadsRight z now day) :
    (newYorkSecond now % 86400 < 57600 → (newYorkSecond now + o * 60) / 86400 = day) ∧
      (57600 ≤ newYorkSecond now % 86400 → (newYorkSecond now + 86400 + o * 60) / 86400 = day) := by
  have hb := reading_bounds now
  have hbefore := hreads.before_close
  have hafter := hreads.after_close
  rw [h.day_eq (by omega) (by omega), reading_eq hright] at hbefore
  rw [h.day_eq (by omega) (by omega), reading_eq hright] at hafter
  exact ⟨hbefore, hafter⟩

theorem rightTime_of_readsRight (h : Current now) (hright : ¬Browser.WrongHour now) (hsteady : Steady z now o)
    (hleast : IsLeast {d | SessionAhead now d} day) (hreads : ReadsRight z now day) :
    RightTime now o (newYorkSecond now / 86400) (newYorkSecond now % 86400) := by
  have ho := hsteady.bounds
  obtain ⟨hbefore, hafter⟩ := hsteady.first_date hright hreads
  by_cases hearly : newYorkSecond now % 86400 < 57600
  · have hfirst := hbefore hearly
    rcases ahead_cases hleast with ⟨hday, hahead⟩ | ⟨hday, -, -⟩
    · rw [hday, sessionAhead_today] at hahead
      exact .session hahead.1 hahead.2 (by omega)
    · omega
  · have hfirst := hafter (not_lt.1 hearly)
    have hover := not_ahead_of_late (not_lt.1 hearly)
    rcases ahead_cases hleast with ⟨hday, hahead⟩ | ⟨hday, htrading, -⟩
    · exact absurd (hday ▸ hahead) hover
    · by_cases hnext : 86400 ≤ newYorkSecond now % 86400 + o * 60
      · have heq : day = newYorkSecond now / 86400 + 2 := by omega
        refine .night (not_lt.1 hearly) hnext (fun hclosed => ?_) (heq ▸ htrading)
        have hle := hleast.2 (sessionAhead_after (by omega) hclosed)
        omega
      · have heq : day = newYorkSecond now / 86400 + 1 := by omega
        refine .evening (not_lt.1 hearly) ?_ (heq ▸ htrading)
        rcases utcDate_eq now with hsame | ⟨hutc, hlate⟩
        · exact hsame
        · -- The next day counts as today, at a time in the evening.
          exfalso
          have hlisted : Listed z day :=
            hsteady.listed htrading (hreads.holiday hsteady.presidents_listed) (by unfold Current at h; omega)
          have hrunning := (hreads.begins hlisted).running (hsteady.today_iff.2 (hutc.trans heq.symm))
          rw [hsteady.localSecond_eq, reading_eq hright] at hrunning
          have hbegun := sessionSecond_later hday
          unfold clock at hrunning
          omega

/-- What the pickers read of a date that they take for the first one. -/
theorem readsRight_of (hright : ¬Browser.WrongHour now) (hsteady : Steady z now o)
    (hnow : 1298062800000 ≤ now) (hleast : IsLeast {d | SessionAhead now d} day)
    (hearly : newYorkSecond now % 86400 < 57600 → (newYorkSecond now + o * 60) / 86400 = day)
    (hlate : 57600 ≤ newYorkSecond now % 86400 → (newYorkSecond now + 86400 + o * 60) / 86400 = day)
    (hbegins : BeginsRight z now day) : ReadsRight z now day := by
  have hb := reading_bounds now
  refine ⟨fun hbefore => ?_, fun hafter => ?_, fun _ => (presidentsDay_lt_iff hleast).2 hnow, ?_, fun _ => hbegins⟩
  · rw [reading_eq hright] at hbefore
    rw [hsteady.day_eq (by omega) (by omega), reading_eq hright]
    exact hearly hbefore
  · rw [reading_eq hright] at hafter
    rw [hsteady.day_eq (by omega) (by omega), reading_eq hright]
    exact hlate hafter
  · intro d hle hlisted _
    have hlater := (presidentsDay_lt_iff hleast).2 hnow
    have htrading : TradingDay d := (trading_iff hlisted).2 (by omega)
    rw [hsteady.probeDate_eq]
    exact fun hweekend => hweekend.elim htrading.2.1 htrading.1

/-- A later date is not begun, and it is not today if it is not that of UTC. -/
theorem beginsRight_later (hsteady : Steady z now o) (hafter : newYorkSecond now / 86400 < day)
    (hother : now / 86400000 ≠ day) : BeginsRight z now day where
  running htoday := absurd (hsteady.today_iff.1 htoday) hother
  not_begun _ := by
    have hbegun := sessionSecond_later hafter
    unfold clock
    omega

theorem readsRight_of_rightTime (hright : ¬Browser.WrongHour now) (hsteady : Steady z now o)
    (hnow : 1298062800000 ≤ now) (htime : RightTime now o (newYorkSecond now / 86400) (newYorkSecond now % 86400)) :
    ∃ day, IsLeast {d | SessionAhead now d} day ∧ ReadsRight z now day := by
  have ho := hsteady.bounds
  cases htime with
  | session trading opened same =>
    have hb := closeOfDay_bounds (newYorkSecond now / 86400)
    unfold clock at hb
    have hahead := (sessionAhead_today now).2 ⟨trading, opened⟩
    have hleast : IsLeast {d | SessionAhead now d} (newYorkSecond now / 86400) :=
      ⟨hahead, fun d hd => not_lt.1 fun hbefore => not_sessionAhead_before hbefore hd⟩
    refine ⟨_, hleast, readsRight_of hright hsteady hnow hleast (fun _ => by omega) (fun _ => by omega) ?_⟩
    have hsecond := sessionSecond_today trading (by omega)
    have htoday := hsteady.today_iff.2 (utcDate_of_early now (by omega))
    constructor
    · intro _ hlate
      rw [reading_eq hright] at hlate
      rw [hsteady.localSecond_eq, reading_eq hright, hsecond]
      unfold clock at hlate
      omega
    · intro hbegun
      have hbegun := hbegun htoday
      rw [reading_eq hright] at hbegun
      rw [hsecond]
      exact hbegun
  | evening late same next =>
    have hutc : newYorkSecond now % 86400 < 72000 := by
      have hb := shiftAt_bounds (now / 1000)
      unfold newYorkSecond at *
      omega
    have hleast := isLeast_later (not_ahead_of_late late) next (by omega) (by omega)
    refine ⟨_, hleast, readsRight_of hright hsteady hnow hleast (fun _ => by omega) (fun _ => by omega) ?_⟩
    exact beginsRight_later hsteady (by omega) (by omega)
  | night late ahead closed next =>
    have hleast := isLeast_later (not_ahead_of_late late) next (by omega) fun d h0 h1 => by
      have heq : d = newYorkSecond now / 86400 + 1 := by omega
      rwa [heq]
    refine ⟨_, hleast, readsRight_of hright hsteady hnow hleast (fun _ => by omega) (fun _ => by omega) ?_⟩
    refine beginsRight_later hsteady (by omega) ?_
    rcases utcDate_eq now with hsame | ⟨hutc, -⟩ <;> omega

/-- In a zone four hours ahead of UTC or more, Friday 2029-06-01 is a Saturday when it is probed. -/
theorem not_right_east (h : Current now) (hmidnight : ∀ d, z.localTime (z.midnight d) = d * 86400000)
    (heast : ∀ t, 240 ≤ z.offset t) : ¬PickersRight z now := by
  intro hright
  obtain ⟨day, hleast, hreads⟩ := (pickersRight_iff_readsRight z h).1 hright
  have hlisted : Listed z 21701 := listed_of hmidnight (by decide) (by decide) (by decide +kernel)
  have hle : day ≤ 21701 := by
    refine hleast.2 (sessionAhead_after ?_ (by decide))
    have hb := shiftAt_bounds (now / 1000)
    unfold Current at h
    unfold newYorkSecond
    omega
  refine hreads.full 21701 hle hlisted (by decide) ?_
  have hprobe : probe z 21701 = 1875034800000 := by
    unfold probe
    rw [hmidnight]
    rfl
  have hclock : Browser.browserClock 1875034800000 = 1875038400 := by decide
  have hoffset := heast (1875038400 * 1000)
  have hbounded := z.bounded (1875038400 * 1000)
  have hsaturday : probeDate z 21701 = 21702 := by
    unfold probeDate Browser.localDay LocalClock.millis
    rw [hprobe, hclock]
    omega
  rw [hsaturday]
  exact .inl (by decide)

/-- A zone with one offset. -/
def fixedZone (minutes : Int) (h : -1440 < minutes ∧ minutes < 1440) : Zone where
  offset _ := minutes
  midnight d := d * 86400000 - minutes * 60000
  bounded _ := h
  ordered d d' hle := by omega
  whole d := by omega
  begins t := by
    unfold LocalClock.day LocalClock.localTime
    dsimp only
    omega

/-- Four hours behind UTC, as New York in summer. -/
def atlantic : Zone := fixedZone (-240) (by decide)

theorem steady_atlantic (now : Int) : Steady atlantic now (-240) where
  midnight d := by
    show d * 86400000 - -240 * 60000 + -240 * 60000 = d * 86400000
    omega
  west _ := by
    show -960 ≤ (-240 : Int) ∧ (-240 : Int) < 240
    decide
  near _ _ _ := rfl

/-- The pickers offer the open slots that are still ahead at the right times of New York's day, in a steady zone
while the packed zone is right. Four hours ahead of UTC or more they never do. In any zone and at any instant, they
do just where they read the right date and time of the first session ahead. -/
theorem pickers_right_iff (z : Zone) {now : Int} (h : Current now) :
    (∀ o, Steady z now o → ¬Browser.WrongHour now → (PickersRight z now ↔
      1298062800000 ≤ now ∧ RightTime now o (nyDate (utcTime now)) (nyClock (utcTime now)))) ∧
    ((∀ d, z.localTime (z.midnight d) = d * 86400000) → (∀ t, 240 ≤ z.offset t) → ¬PickersRight z now) ∧
    (PickersRight z now ↔ ∃ day, IsLeast {d | SessionAhead now d} day ∧ ReadsRight z now day) := by
  refine ⟨fun o hsteady hright => ?_, not_right_east h, pickersRight_iff_readsRight z h⟩
  rw [pickersRight_iff_readsRight z h, nyDate_now, nyClock_now]
  constructor
  · rintro ⟨day, hleast, hreads⟩
    exact ⟨(presidentsDay_lt_iff hleast).1 (hreads.holiday hsteady.presidents_listed),
      rightTime_of_readsRight h hright hsteady hleast hreads⟩
  · rintro ⟨hnow, htime⟩
    exact readsRight_of_rightTime hright hsteady hnow htime

/-- Monday 2015-07-06, 10:00 in New York. -/
theorem pickers_right_monday : PickersRight atlantic 1436191200000 :=
  ((pickers_right_iff atlantic (by unfold Current; decide)).1 (-240) (steady_atlantic _) (by decide)).2
    ⟨by decide, .session (by decide) (by decide) (by decide)⟩

/-- Wednesday 2015-07-01, half past eight in the evening in New York: the date is tomorrow's in UTC, so
tomorrow counts as today, and its times begin at nine in the evening. -/
theorem pickers_wrong_evening : ¬∀ (z : Zone) (now : Int), Current now → PickersRight z now := by
  intro h
  have hcurrent : Current 1435797000000 := by unfold Current; decide
  have hlisted : Listed atlantic 16618 := ⟨by decide, by decide, by decide⟩
  have hslot : OpenSlot 1435797000000 16618 570 := openSlot_of (by decide) (by decide) (by decide) (by decide) (by decide)
  have hoffered := ((h atlantic 1435797000000 hcurrent).offered 16618
    ((selectable_iff hcurrent).2 ⟨by decide, hlisted⟩) ⟨none, 0⟩ 570).2 hslot
  obtain ⟨-, hfirst, -⟩ := (mem_offered hcurrent hlisted (by decide) _).1 hoffered
  exact absurd hfirst (by decide)

end MyStockIQ.Pickers
