import MyStockIQ.Offered
/-!
# Where the pickers offer the open slots

The calendar begins with a date read off the packed clock for New York, and the time picker
takes a date for today by its UTC date. Both are read in the browser's own zone, so they are
right at some instants and in some zones: just where the reading shows the date of the first
session ahead and the half hour in New York, and no listed date is mistaken for another kind
of day (`pickersRight_iff_readsRight`).
-/

open Gregorian

namespace MyStockIQ.Pickers

variable {z : Zone} {now d : Int}

/-! ## The first time -/

/-- A date that is today, and no earlier than the first session ahead, is that of this session. -/
theorem today_eq {day : Int} (hahead : SessionAhead now day) (hle : day ≤ d) (hhas : z.Has d)
    (htoday : Today z now d) : d = day := by
  have hb := has_bounds hhas
  have hdate := hahead.date_le
  unfold Today at htoday
  omega

/-- The list begins with the first slot that is left. Where the date is today, the local clock has to
show the half hour of New York, or that before the session; otherwise the session has not begun. -/
structure BeginsRight (z : Zone) (now day : Int) : Prop where
  running : Today z now day → clock 9 30 0 ≤ reading now % 86400 →
    localSecond z now / 1800 = max 18 (sessionSecond now day / 1800)
  not_begun : (Today z now day → reading now % 86400 < clock 9 30 0) → sessionSecond now day < clock 9 30 0

theorem firstOffered_eq_iff (hahead : SessionAhead now d) :
    firstOffered z now d = firstSlot now d ↔ BeginsRight z now d := by
  have hlast := closingSlot_bounds d
  have hle := hahead.first_le_last
  have hlocal : 0 ≤ localSecond z now ∧ localSecond z now < 86400 := by
    unfold localSecond
    omega
  unfold firstOffered
  unfold firstSlot clock at *
  constructor
  · intro h
    constructor
    · intro htoday hlate
      unfold clock at hlate
      rw [if_pos ⟨htoday, by omega⟩] at h
      split at h <;> omega
    · intro hother
      unfold clock at hother ⊢
      rw [if_neg (by rintro ⟨htoday, hlate⟩; exact absurd (hother htoday) (by omega))] at h
      split at h <;> omega
  · rintro ⟨hrunning, hbegun⟩
    unfold clock at hrunning hbegun
    split
    · next hboth =>
      have hhalf := hrunning hboth.1 (by omega)
      split <;> omega
    · next hnot =>
      have hearly := hbegun fun htoday => by
        by_contra hlate
        exact hnot ⟨htoday, by omega⟩
      rw [if_pos (by omega)]

/-! ## The pickers -/

/-- The calendar begins with the first date that has a slot left, and the time picker has the slots
that are left on each date that can be selected, whatever it had before. -/
structure PickersRight (z : Zone) (now : Int) : Prop where
  first : ∃ min, minDate z now = some min ∧ IsLeast {d | ∃ m, OpenSlot now d m} min.date
  offered : ∀ d, Selectable z now d → ∀ (p : TimePicker) (m : Int),
    m ∈ (updateTimePicker z now (z.midnight d) (calVars now) p).times ↔ OpenSlot now d m

/-- A date with a session ahead has its slots just if both ends of the list are right. -/
theorem offered_iff (h : Current now) (hlisted : Listed z d) (hahead : SessionAhead now d) :
    (∀ (p : TimePicker) (m : Int),
      m ∈ (updateTimePicker z now (z.midnight d) (calVars now) p).times ↔ OpenSlot now d m) ↔
    BeginsRight z now d ∧ (Date.ofDays d ∉ halfDayArray → ¬Browser.Weekend (probeDate z d)) := by
  have hfirst := firstOffered_bounds z now d
  have hslot := firstSlot_bounds now d
  have hlast := closingSlot_bounds d
  have hgrid := (lastOffered_bounds z d).2.2
  have hpast : 0 ≤ d := by
    have hdate := hahead.date_le
    unfold Current at h
    omega
  rw [← firstOffered_eq_iff hahead, ← lastOffered_eq_iff hlisted hpast hahead.1,
    ← stretch_eq_iff hfirst.2.2 hgrid hslot.2 hlast.2.2 hahead.first_le_last]
  simp only [mem_offered h hlisted hpast, openSlot_between hahead.1]
  exact ⟨fun hall => hall ⟨none, 0⟩, fun hall _ => hall⟩

/-- The pickers read the right date and time at an instant, where `day` is that of the first session ahead. -/
structure ReadsRight (z : Zone) (now day : Int) : Prop where
  before_close : reading now % 86400 < clock 16 0 0 → z.day (reading now * 1000) = day
  after_close : clock 16 0 0 ≤ reading now % 86400 → z.day ((reading now + 86400) * 1000) = day
  /-- This holiday can be selected as long as it is ahead. -/
  holiday : Listed z presidentsDay → presidentsDay < day
  /-- A full day that is a weekend to the session test would close at one o'clock. -/
  full : ∀ d, day ≤ d → Listed z d → Date.ofDays d ∉ halfDayArray → ¬Browser.Weekend (probeDate z d)
  begins : Listed z day → BeginsRight z now day

/-- A date that the calendar lists is a trading day if the times offered are slots. -/
theorem trading_of_offered (h : Current now) {day : Int} (hahead : SessionAhead now day) (hle : day ≤ d)
    (hlisted : Listed z d) (hoffered : ∀ (p : TimePicker) (m : Int),
      m ∈ (updateTimePicker z now (z.midnight d) (calVars now) p).times ↔ OpenSlot now d m) :
    TradingDay d := by
  by_cases htoday : Today z now d
  · rw [today_eq hahead hle hlisted.1 htoday]
    exact hahead.1
  · -- Otherwise the list begins at half past nine, and is not empty.
    have hfirst : firstOffered z now d = 570 := by
      unfold firstOffered
      rw [if_neg fun hboth => htoday hboth.1]
    have hlast := (lastOffered_bounds z d).1
    have hpast : 0 ≤ d := by
      have hdate := hahead.date_le
      unfold Current at h
      omega
    exact (openSlot_iff.1 ((hoffered ⟨none, 0⟩ 570).1
      ((mem_offered h hlisted hpast _).2 ⟨by decide, hfirst.le, by omega⟩))).1

theorem readsRight_of_pickersRight (h : Current now) (hright : PickersRight z now) :
    ∃ day, IsLeast {d | SessionAhead now d} day ∧ ReadsRight z now day := by
  obtain ⟨⟨min, hmin, hleast⟩, hoffered⟩ := hright
  rw [minDate_eq h, Option.some.injEq] at hmin
  subst hmin
  simp only [exists_openSlot] at hleast
  have hahead := hleast.1
  have hselect (d : Int) (hle : z.day (firstTime now) ≤ d) (hlisted : Listed z d) :=
    hoffered d ((selectable_iff h).2 ⟨hle, hlisted⟩)
  have htrading (d : Int) (hle : z.day (firstTime now) ≤ d) (hlisted : Listed z d) : TradingDay d :=
    trading_of_offered h hahead hle hlisted (hselect d hle hlisted)
  refine ⟨_, hleast, ?_, ?_, ?_, ?_, ?_⟩
  · intro hearly
    unfold firstTime
    rw [if_pos hearly]
  · intro hlate
    unfold firstTime
    rw [if_neg (by omega)]
  · intro hlisted
    by_contra hle
    exact (trading_iff hlisted).1 (htrading _ (not_lt.1 hle) hlisted) rfl
  · intro d hle hlisted
    have hlater := SessionAhead.later hahead hle (htrading d hle hlisted)
    exact ((offered_iff h hlisted hlater).1 (hselect d hle hlisted)).2
  · intro hlisted
    exact ((offered_iff h hlisted hahead).1 (hselect _ le_rfl hlisted)).1

theorem pickersRight_of_readsRight (h : Current now) {day : Int} (hleast : IsLeast {d | SessionAhead now d} day)
    (hreads : ReadsRight z now day) : PickersRight z now := by
  have hday : z.day (firstTime now) = day := by
    unfold firstTime
    split
    · next hearly => exact hreads.before_close hearly
    · next hlate => exact hreads.after_close (by omega)
  have hahead := hleast.1
  constructor
  · refine ⟨_, minDate_eq h, ?_⟩
    simp only [exists_openSlot]
    rw [hday]
    exact hleast
  · intro d hselect
    rw [selectable_iff h, hday] at hselect
    obtain ⟨hle, hlisted⟩ := hselect
    have htrading : TradingDay d := (trading_iff hlisted).2 fun heq => by
      rw [heq] at hle hlisted
      exact absurd (hreads.holiday hlisted) (not_lt.2 hle)
    have hlater := SessionAhead.later hahead hle htrading
    refine (offered_iff h hlisted hlater).2 ⟨?_, hreads.full d hle hlisted⟩
    rcases eq_or_lt_of_le hle with rfl | hlt
    · exact hreads.begins hlisted
    · -- Later dates are not today.
      constructor
      · intro htoday
        exact absurd (today_eq hahead hle hlisted.1 htoday) (by omega)
      · intro
        exact SessionAhead.not_begun hahead hlt

/-- The pickers offer the open slots that are still ahead just where they read the right date and
time of the first session ahead. -/
theorem pickersRight_iff_readsRight (z : Zone) (h : Current now) :
    PickersRight z now ↔ ∃ day, IsLeast {d | SessionAhead now d} day ∧ ReadsRight z now day :=
  ⟨readsRight_of_pickersRight h, fun ⟨_, hleast, hreads⟩ => pickersRight_of_readsRight h hleast hreads⟩

end MyStockIQ.Pickers
