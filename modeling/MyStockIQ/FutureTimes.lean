import MyStockIQ.DailyChart
import MyStockIQ.Scan.NextRows
/-!
# The tables of future dates (`lib/customdate.rb`, `app/workers/helper_worker.rb`)

`day_filler` and `time_filler` fill `futuredays` and `futuretimes` once; `HelperWorker`
fills the second from an earlier start. Each tests the times of a raster for the session.
So the rows are all closes, or all marks of five minutes in the session, of their years
(`future_tables`).
-/

open Gregorian

namespace MyStockIQ

open Scraper GoogleDaily Scan

/-! ## `time_filler` -/

/-- A row of `futuretimes`. -/
structure Futuretime where
  id : Nat
  time : Time
  graph_time : Int
  deriving DecidableEq

/-- The `while` loop of `time_filler`, from iteration `i` with `n` left. -/
def fillTimes (start_time : Int) : Nat → Int → Nat → List Futuretime
  | 0, _, _ => []
  | n + 1, i, id_count =>
    let t := start_time + i * 60 * 5 * 1000
    if validStockTime t then ⟨id_count, utcTime t, t⟩ :: fillTimes start_time n (i + 1) (id_count + 1)
    else fillTimes start_time n (i + 1) id_count

/-- `time_filler`: the rows it inserts. -/
def timeFiller : List Futuretime := fillTimes (Date.toDays ⟨2015, 6, 3⟩ * 86400000) 1156896 1 0

/-- `perform` of `HelperWorker`: the rows it inserts. -/
def HelperWorker.perform : List Futuretime := fillTimes (Date.toDays ⟨2010, 1, 1⟩ * 86400000) 1156896 1 0

/-! ## What the rows are for -/

/-- A mark of five minutes at which the market is open. -/
def OpenMark (t : Int) : Prop := t % 300000 = 0 ∧ OpenInNewYork (utcTime t)

/-- Four in the afternoon in New York on a trading day. -/
def AtClose (t : Int) : Prop := t % 1000 = 0 ∧ TradingDay (nyDate (utcTime t)) ∧ nyClock (utcTime t) = clock 16 0 0

/-- The rows are numbered without a gap, come in the order of their times, each at its
instant, and have just these graph times. -/
structure FutureTable {R : Type} (id : R → Nat) (time : R → Time) (graph_time : R → Int) (P : Int → Prop) (rows : List R) :
    Prop where
  ids : rows.map id = List.range rows.length
  times : ∀ row ∈ rows, time row = utcTime (graph_time row)
  increasing : (rows.map graph_time).Pairwise (· < ·)
  graph_times : ∀ t, t ∈ rows.map graph_time ↔ P t

theorem atClose_iff {t : Int} : AtClose t ↔ ∃ day, TradingDay day ∧ t = graphT day := by
  constructor
  · rintro ⟨hwhole, hday, hclock⟩
    refine ⟨_, hday, ?_⟩
    have hs : t / 1000 + shiftAt (t / 1000) = t / 1000 + shiftAt (t / 1000) := rfl
    rw [nyDate_eq hs] at hday ⊢
    rw [nyClock_eq hs] at hclock
    have hb := shiftAt_bounds (t / 1000)
    -- Four in the afternoon is at most nine in the evening in UTC, on the same date.
    have hsame : t / 1000 / 86400 = (t / 1000 + shiftAt (t / 1000) - 18000) / 86400 := by
      unfold clock at hclock
      omega
    have hshift := hday.shiftAt_eq hsame
    rw [graphT_shift, ← hshift]
    unfold clock at hclock
    omega
  · rintro ⟨day, hday, rfl⟩
    refine ⟨?_, ?_, nyClock_graphT hday⟩
    · rw [graphT_shift]
      omega
    · rwa [nyDate_graphT]

theorem graphT_lt {day day' : Int} (h : day < day') : graphT day < graphT day' := by
  have hb := shift_bounds day
  have hb' := shift_bounds day'
  rw [graphT_shift, graphT_shift]
  omega

/-! ## The loops keep and number -/

/-- What `time_filler` keeps of an iteration. -/
def timeItem (start_time i : Int) : Option Int :=
  let t := start_time + i * 60 * 5 * 1000
  if validStockTime t then some t else none

/-- What `day_filler` keeps of an iteration. -/
def dayItem (i : Int) : Option Int := if TradingDay (14610 + i) then some (graphT (14610 + i)) else none

theorem fillTimes_eq (start_time : Int) (n : Nat) (i : Int) (id_count : Nat) :
    fillTimes start_time n i id_count =
      (numbered (timeItem start_time) n i id_count).map fun row => ⟨row.1, utcTime row.2, row.2⟩ := by
  induction n generalizing i id_count with
  | zero => rfl
  | succ n ih =>
    unfold fillTimes
    dsimp only
    split
    · next hvalid =>
      rw [ih, numbered_some (show timeItem start_time i = some _ from if_pos hvalid)]
      rfl
    · next hvalid => rw [ih, numbered_none (show timeItem start_time i = none from if_neg hvalid)]

theorem fillDays_eq (n : Nat) (i : Int) (id_count : Nat) :
    fillDays n i id_count = (numbered dayItem n i id_count).map fun row => ⟨row.1, utcTime row.2, row.2⟩ := by
  induction n generalizing i id_count with
  | zero => rfl
  | succ n ih =>
    obtain ⟨hvalid, hend⟩ := fillDays_day i
    rw [fillDays, hend]
    split
    · next htest =>
      have hitem : dayItem i = some (graphT (14610 + i)) := if_pos (hvalid.1 htest)
      rw [ih, numbered_some hitem]
      rfl
    · next htest =>
      have hitem : dayItem i = none := if_neg (mt hvalid.2 htest)
      rw [ih, numbered_none hitem]

/-- A loop whose values go up fills a table with them. -/
theorem futureTable_numbered {item : Int → Option Int} {P : Int → Prop} {n : Nat} {i : Int}
    (hup : ∀ i j a b, i < j → item i = some a → item j = some b → a < b)
    (hP : ∀ t, (∃ j, i ≤ j ∧ j < i + n ∧ item j = some t) ↔ P t) :
    FutureTable Prod.fst (fun row => utcTime row.2) Prod.snd P (numbered item n i 0) where
  ids := by
    rw [numbered_ids, List.range_eq_range']
  times row _ := rfl
  increasing := numbered_pairwise hup n i 0
  graph_times t := mem_numbered.trans (hP t)

theorem FutureTable.map {R S : Type} {id : R → Nat} {time : R → Time} {graph_time : R → Int} {id' : S → Nat}
    {time' : S → Time} {graph_time' : S → Int} {P : Int → Prop} {rows : List R} (h : FutureTable id time graph_time P rows)
    (f : R → S) (hid : ∀ row, id' (f row) = id row) (htime : ∀ row, time' (f row) = time row)
    (hgraph : ∀ row, graph_time' (f row) = graph_time row) : FutureTable id' time' graph_time' P (rows.map f) := by
  have hgraphs : (rows.map f).map graph_time' = rows.map graph_time := by
    rw [List.map_map]
    exact List.map_congr_left fun row _ => hgraph row
  refine ⟨?_, ?_, ?_, ?_⟩
  · rw [List.map_map, List.length_map, ← h.ids]
    exact List.map_congr_left fun row _ => hid row
  · intro row hrow
    obtain ⟨row, hmem, rfl⟩ := List.mem_map.1 hrow
    rw [htime, hgraph, h.times row hmem]
  · rw [hgraphs]
    exact h.increasing
  · intro t
    rw [hgraphs]
    exact h.graph_times t

/-! ## The tables -/

theorem timeItem_some {start_time j t : Int} :
    timeItem start_time j = some t ↔ t = start_time + j * 300000 ∧ OpenInNewYork (utcTime t) := by
  have hraster : start_time + j * 60 * 5 * 1000 = start_time + j * 300000 := by ring
  unfold timeItem
  dsimp only
  rw [hraster]
  constructor
  · intro h
    split at h
    · next hvalid =>
      cases h
      exact ⟨rfl, open_of_valid hvalid⟩
    · cases h
  · rintro ⟨rfl, hopen⟩
    rw [if_pos (valid_of_open hopen)]

/-- The marks of five minutes after the start, for so many iterations. -/
theorem futureTable_times {start_time : Int} (hstart : start_time % 300000 = 0) (n : Nat) :
    FutureTable Futuretime.id Futuretime.time Futuretime.graph_time
      (fun t => OpenMark t ∧ start_time < t ∧ t ≤ start_time + n * 300000) (fillTimes start_time n 1 0) := by
  rw [fillTimes_eq]
  refine (futureTable_numbered ?_ ?_).map _ (fun _ => rfl) (fun _ => rfl) (fun _ => rfl)
  · intro i j a b hij ha hb
    obtain ⟨rfl, -⟩ := timeItem_some.1 ha
    obtain ⟨rfl, -⟩ := timeItem_some.1 hb
    omega
  · intro t
    constructor
    · rintro ⟨j, h0, h1, hj⟩
      obtain ⟨rfl, hopen⟩ := timeItem_some.1 hj
      exact ⟨⟨by omega, hopen⟩, by omega, by omega⟩
    · rintro ⟨⟨hmark, hopen⟩, h0, h1⟩
      exact ⟨(t - start_time) / 300000, by omega, by omega, timeItem_some.2 ⟨by omega, hopen⟩⟩

theorem dayItem_some {j t : Int} : dayItem j = some t ↔ TradingDay (14610 + j) ∧ t = graphT (14610 + j) := by
  unfold dayItem
  split
  · next hday => simp [hday, eq_comm]
  · next hday => simp [hday]

/-- The closes of the years 2010 to 2020. -/
theorem futureTable_days : FutureTable Futureday.id Futureday.date Futureday.graph_time
    (fun t => AtClose t ∧ graphT 14610 < t ∧ t ≤ graphT 18627) dayFiller := by
  unfold dayFiller
  rw [fillDays_eq]
  refine (futureTable_numbered ?_ ?_).map _ (fun _ => rfl) (fun _ => rfl) (fun _ => rfl)
  · intro i j a b hij ha hb
    obtain ⟨-, rfl⟩ := dayItem_some.1 ha
    obtain ⟨-, rfl⟩ := dayItem_some.1 hb
    exact graphT_lt (by omega)
  · intro t
    constructor
    · rintro ⟨j, h0, h1, hj⟩
      obtain ⟨hday, rfl⟩ := dayItem_some.1 hj
      refine ⟨atClose_iff.2 ⟨_, hday, rfl⟩, graphT_lt (by omega), ?_⟩
      rcases (show 14610 + j ≤ 18627 by omega).lt_or_eq with hlt | heq
      · exact (graphT_lt hlt).le
      · rw [heq]
    · rintro ⟨hclose, h0, h1⟩
      obtain ⟨day, hday, rfl⟩ := atClose_iff.1 hclose
      have hafter : 14610 < day := by
        by_contra hle
        rcases (Int.not_lt.1 hle).lt_or_eq with hlt | rfl
        · exact absurd (graphT_lt hlt) (not_lt.2 h0.le)
        · exact lt_irrefl _ h0
      have hbefore : day ≤ 18627 := by
        by_contra hgt
        exact absurd (graphT_lt (Int.not_le.1 hgt)) (not_lt.2 h1)
      have hsum : 14610 + (day - 14610) = day := by omega
      exact ⟨day - 14610, by omega, by omega, dayItem_some.2 (by rw [hsum]; exact ⟨hday, rfl⟩)⟩

theorem futureTable_timeFiller : FutureTable Futuretime.id Futuretime.time Futuretime.graph_time
    (fun t => OpenMark t ∧ 1433289600000 < t ∧ t ≤ 1780358400000) timeFiller := by
  have hstart : Date.toDays ⟨2015, 6, 3⟩ * 86400000 = 1433289600000 := by decide
  have htable := futureTable_times (show (1433289600000 : Int) % 300000 = 0 by decide) 1156896
  unfold timeFiller
  rw [hstart]
  norm_num at htable ⊢
  exact htable

theorem futureTable_perform : FutureTable Futuretime.id Futuretime.time Futuretime.graph_time
    (fun t => OpenMark t ∧ 1262304000000 < t ∧ t ≤ 1609372800000) HelperWorker.perform := by
  have hstart : Date.toDays ⟨2010, 1, 1⟩ * 86400000 = 1262304000000 := by decide
  have htable := futureTable_times (show (1262304000000 : Int) % 300000 = 0 by decide) 1156896
  unfold HelperWorker.perform
  rw [hstart]
  norm_num at htable ⊢
  exact htable

/-- The tables have the closes of the trading days from 2010 to 2020 and the marks of five
minutes in the sessions of eleven years, each once, in order and numbered without a gap. -/
theorem future_tables :
    FutureTable Futureday.id Futureday.date Futureday.graph_time
      (fun t => AtClose t ∧ graphT 14610 < t ∧ t ≤ graphT 18627) dayFiller ∧
    FutureTable Futuretime.id Futuretime.time Futuretime.graph_time
      (fun t => OpenMark t ∧ 1433289600000 < t ∧ t ≤ 1780358400000) timeFiller ∧
    FutureTable Futuretime.id Futuretime.time Futuretime.graph_time
      (fun t => OpenMark t ∧ 1262304000000 < t ∧ t ≤ 1609372800000) HelperWorker.perform :=
  ⟨futureTable_days, futureTable_timeFiller, futureTable_perform⟩

end MyStockIQ
