import MyStockIQ.BrowserClock
import MyStockIQ.Session
/-!
# The points of the daily chart

Three pieces of code put a day at its close: `GoogleDaily` for a price,
`day_filler` for a future day, and the browser's `dailyProcessor` for a
prediction. The first two take the offset of New York at midnight UTC, which on
a trading day is that of the close. The browser takes the one its packed zone
has at the instant of the prediction, so the prediction is at the close just
when that zone is right (`points_line_up_iff`).
-/

open Gregorian

namespace MyStockIQ

open Scraper GoogleDaily

/-! ## `day_filler` -/

/-- A row of `futuredays`. -/
structure Futureday where
  id : Nat
  date : Time
  graph_time : Int
  deriving DecidableEq

/-- `"2010-01-01".utc_time.graph_time + 16*3600*1000` -/
def fillerStart : Int := Date.toDays ⟨2010, 1, 1⟩ * 86400000 + 16 * 3600 * 1000

/-- The `while` loop of `day_filler`, from iteration `i` with `n` left. The first
definition of `day_filler` is replaced by the second. -/
def fillDays : Nat → Int → Nat → List Futureday
  | 0, _, _ => []
  | n + 1, i, id_count =>
    let test_time := fillerStart + i * 24 * 3600 * 1000
    let day_start := test_time - 16 * 3600 * 1000
    let day_end := day_start + 21 * 3600 * 1000 - offsetNum (utcTime day_start)
    if validStockTime test_time then ⟨id_count, utcTime day_end, day_end⟩ :: fillDays n (i + 1) (id_count + 1)
    else fillDays n (i + 1) id_count

/-- `day_filler`: the rows it inserts. -/
def dayFiller : List Futureday := fillDays 4017 1 0

/-! ## `createPredictionLine` -/

namespace Browser

/-- `Date.parse` of a date at 00:00:00 GMT. A `dayString` has no year below 100. -/
def graphTimeOfDay (day : Date) : ℚ := (day.toDays * 86400000 : Int)

/-- `dailyProcessor`; `none` is `NaN`. -/
def dailyProcessor (gT : Int) : Option ℚ := do
  let dayStr ← dayString (gmtString (some gT))
  let offset ← offsetTime gT
  some (graphTimeOfDay dayStr + (21 * 3600 * 1000 - offset))

end Browser

/-! ## The close of a trading day -/

/-- A valid time is on the same date in New York and in UTC. -/
theorem nyDate_of_valid {graph_time : Int} (h : validStockTime graph_time = true) :
    nyDate (utcTime graph_time) = graph_time / 1000 / 86400 := by
  obtain ⟨-, hopen, -⟩ := (valid_iff graph_time).1 h
  have hb := shift_bounds (graph_time / 1000 / 86400)
  unfold nyDate
  rw [toI_utcTime]
  unfold opening clock at hopen
  rcases utcOffset_cases (utcTime graph_time) with h' | h' <;> rw [h'] <;> omega

theorem graphT_shift (day : Int) : graphT day = (day * 86400 + 75600 - shift day) * 1000 := by
  have hoffset := offsetNum_eq (day * 86400 * 1000000000)
  have hsecond : toI (day * 86400 * 1000000000) = day * 86400 := by unfold toI; omega
  unfold offsetNum at hoffset
  rw [hsecond] at hoffset
  unfold graphT graphTime shift
  dsimp only
  rw [hsecond]
  omega

/-- The close is at four in the afternoon in New York. -/
theorem nyClock_graphT {day : Int} (h : TradingDay day) : nyClock (utcTime (graphT day)) = clock 16 0 0 := by
  have hb := shift_bounds day
  have hday : graphT day / 1000 / 86400 = day := by rw [graphT_shift]; omega
  rw [nyClock_eq rfl, h.shiftAt_eq hday, graphT_shift]
  unfold clock
  omega

/-! ## The rows of `futuredays` -/

/-- What the loop inserts for a day: its close, if it is a trading day. -/
theorem fillDays_day (i : Int) :
    (validStockTime (fillerStart + i * 24 * 3600 * 1000) = true ↔ TradingDay (14610 + i)) ∧
      fillerStart + i * 24 * 3600 * 1000 - 16 * 3600 * 1000 + 21 * 3600 * 1000 -
        offsetNum (utcTime (fillerStart + i * 24 * 3600 * 1000 - 16 * 3600 * 1000)) = graphT (14610 + i) := by
  have hstart : fillerStart = 14610 * 86400000 + 16 * 3600 * 1000 := by decide
  constructor
  · have htest : fillerStart + i * 24 * 3600 * 1000 = at_ (14610 + i) (clock 16 0 0) := by
      rw [hstart]
      unfold at_ clock
      omega
    have hb := shift_bounds (14610 + i)
    have hc := closingClock_bounds (14610 + i)
    rw [htest, valid_at (by decide) (by decide)]
    unfold opening closing
    unfold clock at *
    constructor
    · rintro ⟨hday, -⟩
      exact hday
    · intro hday
      exact ⟨hday, by omega, by omega⟩
  · have hmidnight : (fillerStart + i * 24 * 3600 * 1000 - 16 * 3600 * 1000) / 1000 = (14610 + i) * 86400 := by
      rw [hstart]
      omega
    rw [offsetNum_eq, toI_utcTime, hmidnight, graphT_shift, hstart]
    unfold shift
    omega

theorem mem_fillDays (n : Nat) (i : Int) (id_count : Nat) :
    (∀ day ∈ fillDays n i id_count, ∃ j, i ≤ j ∧ j < i + n ∧ day.graph_time = graphT (14610 + j) ∧
      day.date = utcTime day.graph_time) ∧
    ∀ j, i ≤ j → j < i + n → TradingDay (14610 + j) →
      ∃ day ∈ fillDays n i id_count, day.graph_time = graphT (14610 + j) ∧ day.date = utcTime day.graph_time := by
  induction n generalizing i id_count with
  | zero =>
    refine ⟨by simp [fillDays], ?_⟩
    intro j h0 h1
    omega
  | succ n ih =>
    obtain ⟨hvalid, hend⟩ := fillDays_day i
    rw [fillDays, hend]
    split
    · next htest =>
      obtain ⟨hold, hnew⟩ := ih (i + 1) (id_count + 1)
      constructor
      · intro day hday
        rcases List.mem_cons.1 hday with rfl | hday
        · exact ⟨i, le_refl i, by omega, rfl, rfl⟩
        · obtain ⟨j, h0, h1, hj⟩ := hold day hday
          exact ⟨j, by omega, by omega, hj⟩
      · intro j h0 h1 hj
        rcases Int.lt_or_eq_of_le h0 with h0 | rfl
        · obtain ⟨day, hday, heq⟩ := hnew j (by omega) (by omega) hj
          exact ⟨day, List.mem_cons_of_mem _ hday, heq⟩
        · exact ⟨_, List.mem_cons_self, rfl, rfl⟩
    · next htest =>
      obtain ⟨hold, hnew⟩ := ih (i + 1) id_count
      constructor
      · intro day hday
        obtain ⟨j, h0, h1, hj⟩ := hold day hday
        exact ⟨j, by omega, by omega, hj⟩
      · intro j h0 h1 hj
        rcases Int.lt_or_eq_of_le h0 with h0 | rfl
        · exact hnew j (by omega) (by omega) hj
        · exact absurd (hvalid.2 hj) htest

/-- Each trading day of the years 2010 to 2020 has a row, and its rows are at its close. -/
theorem futureday_of {day : Int} (h : TradingDay day) (h0 : 14610 ≤ day) (h1 : day ≤ 18627) :
    (∃ fd ∈ dayFiller, nyDate fd.date = day) ∧ ∀ fd ∈ dayFiller, nyDate fd.date = day → fd.graph_time = graphT day := by
  obtain ⟨hold, hnew⟩ := mem_fillDays 4017 1 0
  constructor
  · -- The loop starts a day late, but New Year's Day is a holiday.
    have hfirst : day ≠ 14610 := by
      rintro rfl
      exact absurd h (by decide)
    have hday : 14610 + (day - 14610) = day := by omega
    obtain ⟨fd, hfd, hgraph, hdate⟩ := hnew (day - 14610) (by omega) (by omega) (by rwa [hday])
    refine ⟨fd, hfd, ?_⟩
    rw [hdate, hgraph, nyDate_graphT, hday]
  · intro fd hfd hday
    obtain ⟨j, -, -, hgraph, hdate⟩ := hold fd hfd
    rw [hdate, hgraph, nyDate_graphT] at hday
    rw [hgraph, hday]

/-! ## The three points -/

section
variable {R : Type} (ruby : Ruby R)

/-- The points of the day of a prediction: the one of the prediction, those of
the prices and those of the future days are all at four in the afternoon in New
York. -/
def PointsLineUp (gT : Int) : Prop :=
  ∃ x : Int, nyDate (utcTime x) = nyDate (utcTime gT) ∧ nyClock (utcTime x) = clock 16 0 0 ∧ x % 1000 = 0 ∧
    Browser.dailyProcessor gT = some (x : ℚ) ∧
    (∀ ticker_symbol row price, dataHash ruby ticker_symbol row = some (some price) →
      nyDate price.date = nyDate (utcTime gT) → price.graph_time = x) ∧
    (∃ fd ∈ dayFiller, nyDate fd.date = nyDate (utcTime gT)) ∧
    ∀ fd ∈ dayFiller, nyDate fd.date = nyDate (utcTime gT) → fd.graph_time = x

/-- The browser's zone has the hour of daylight saving time from March 2014 on,
and no hour before November 2015. -/
def ZoneRight (gT : Int) : Prop :=
  daylightSaving (gT / 1000) = true ∧ 1394348400000 ≤ gT ∨ daylightSaving (gT / 1000) = false ∧ gT < 1446357600000

instance (gT : Int) : Decidable (ZoneRight gT) := inferInstanceAs (Decidable (_ ∧ _ ∨ _ ∧ _))

/-- Except on weekends, the packed zone has New York's offset in just these seasons. -/
theorem packedShift_eq_iff {gT : Int} (h : ¬Browser.Weekend (gT / 1000 / 86400)) :
    Browser.packedShift gT = shiftAt (gT / 1000) * 1000 ↔ ZoneRight gT := by
  have heq : Browser.packedShift gT = shiftAt (gT / 1000) * 1000 ↔
      (Browser.packedSummer gT ↔ daylightSaving (gT / 1000) = true) := by
    unfold Browser.packedShift shiftAt
    by_cases hp : Browser.packedSummer gT <;> by_cases hd : daylightSaving (gT / 1000) = true <;> simp [hp, hd]
  rw [heq]
  unfold ZoneRight
  rcases lt_or_ge gT 1383458400000 with hearly | hlate
  · have hp : ¬Browser.packedSummer gT := by unfold Browser.packedSummer; omega
    cases hd : daylightSaving (gT / 1000) with
    | true => simp [hp]; omega
    | false => simp [hp]; omega
  · rcases lt_or_ge gT 1446357600000 with hnear | hfar
    · -- The packed zone is right, but for an end of a week.
      have hd := Browser.daylightSaving_near (s := gT / 1000) (by omega) (by omega)
      unfold Browser.Weekend weekday at h
      unfold Browser.packedSummer
      cases hds : daylightSaving (gT / 1000) with
      | true =>
        have hin := hd.1 hds
        simp only [true_and, iff_true, reduceCtorEq, false_and, or_false]
        omega
      | false =>
        have hout := mt hd.2 (by rw [hds]; decide)
        simp only [reduceCtorEq, false_and, true_and, iff_false, false_or]
        omega
    · have hp : Browser.packedSummer gT := by unfold Browser.packedSummer; omega
      cases hd : daylightSaving (gT / 1000) with
      | true => simp [hp]; omega
      | false => simp [hp]; omega

theorem dailyProcessor_eq {gT : Int} (hread : Browser.Readable gT) : Browser.dailyProcessor gT =
    some ((gT / 1000 / 86400 * 86400000 + (21 * 3600 * 1000 - Browser.packedShift gT) : Int) : ℚ) := by
  unfold Browser.dailyProcessor
  rw [Browser.dayString_gmtString hread, Browser.offsetTime_eq]
  simp only [Option.bind_eq_bind, Option.bind_some, Browser.graphTimeOfDay, toDays_ofDays]
  push_cast
  norm_num

/-- A price of a date is at its close. -/
theorem price_graph_time {ticker_symbol : Str} {row : Row} {price : DailyHash R}
    (h : dataHash ruby ticker_symbol row = some (some price)) : price.graph_time = graphT (nyDate price.date) := by
  unfold dataHash at h
  split at h
  · cases h
  · obtain ⟨day, -, hprice⟩ := Option.bind_eq_some_iff.1 h
    cases hprice
    show graphT day = graphT (nyDate (utcTime (graphT day)))
    rw [nyDate_graphT]

/-- At a valid time of the years 2010 to 2020 the three points of the day are one,
the close, just when the browser's zone is right. -/
theorem points_line_up_iff (gT : Int) (hvalid : validStockTime gT = true) (h0 : 1262304000000 ≤ gT)
    (h1 : gT < 1609459200000) : PointsLineUp ruby gT ↔ ZoneRight gT := by
  obtain ⟨htrading, -, -⟩ := (valid_iff gT).1 hvalid
  have hdate := nyDate_of_valid hvalid
  have hweekend : ¬Browser.Weekend (gT / 1000 / 86400) := by
    rintro (hday | hday)
    · exact htrading.2.1 hday
    · exact htrading.1 hday
  have hread : Browser.Readable gT := by
    unfold Browser.Readable
    omega
  have hx := dailyProcessor_eq hread
  have hshift : shiftAt (gT / 1000) = shift (gT / 1000 / 86400) := htrading.shiftAt_eq rfl
  have hclose := graphT_shift (gT / 1000 / 86400)
  obtain ⟨hsome, hall⟩ := futureday_of htrading (by omega) (by omega)
  rw [← packedShift_eq_iff hweekend]
  unfold PointsLineUp
  rw [hdate, hx]
  constructor
  · rintro ⟨x, -, -, -, hbrowser, -, ⟨fd, hfd, hday⟩, hfuture⟩
    have hfd' := hfuture fd hfd hday
    rw [hall fd hfd hday] at hfd'
    have hsame := Int.cast_injective (Option.some.inj hbrowser)
    omega
  · intro hoffset
    have hpoint : gT / 1000 / 86400 * 86400000 + (21 * 3600 * 1000 - Browser.packedShift gT) =
        graphT (gT / 1000 / 86400) := by
      omega
    rw [hpoint]
    refine ⟨_, nyDate_graphT _, nyClock_graphT htrading, by omega, rfl, ?_, hsome, hall⟩
    intro ticker_symbol row price hprice hday
    rw [price_graph_time ruby hprice, hday]

end

/-- Monday 2015-07-06, 14:00 UTC. -/
theorem points_line_up_monday : PointsLineUp wholeRuby 1436191200000 :=
  (points_line_up_iff wholeRuby 1436191200000 (by decide) (by decide) (by decide)).2 (by decide)

/-- Tuesday 2010-07-06, 14:00 UTC: the browser knows no daylight saving time before
2014, and puts the prediction an hour after the close. -/
theorem points_apart_2010 : ¬∀ gT : Int, validStockTime gT = true → 1262304000000 ≤ gT → gT < 1609459200000 →
    PointsLineUp wholeRuby gT := by
  intro h
  have hright := (points_line_up_iff wholeRuby 1278424800000 (by decide) (by decide) (by decide)).1
    (h 1278424800000 (by decide) (by decide) (by decide))
  exact absurd hright (by decide)

end MyStockIQ
