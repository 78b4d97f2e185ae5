import MyStockIQ.DailyRows
import MyStockIQ.SharedStore.Program
import Mathlib.Data.List.Sort
/-!
# One daily row for each trading day

`remove_extra_day` removes a provisional row if the official row of its day is
the newest of all after the insertion. If all runs are such, there is one row for
each day (`one_row_each_day`). The insertion can also bring in the official row
of a day that is not the newest any more, and then both rows stay.
-/

open SharedStore Sql

namespace MyStockIQ.Scraper

open GoogleDaily

variable {R : Type}

/-! ## The hashes of a feed -/

theorem mem_collected {H : Type} {results : List (Option (Option H))} {check_for_dup : H → Bool} {hash_array : List H}
    (h : ((results.mapM id).map fun hash_items => (hash_items.filterMap id).filter check_for_dup) = some hash_array)
    {hash_item : H} (hmem : hash_item ∈ hash_array) : some (some hash_item) ∈ results := by
  obtain ⟨hash_items, hitems, rfl⟩ := Option.map_eq_some_iff.1 h
  rw [mapM_id_eq hitems]
  obtain ⟨item, hitem, hsome⟩ := List.mem_filterMap.1 (List.mem_filter.1 hmem).1
  rw [id_eq] at hsome
  subst hsome
  exact List.mem_map_of_mem hitem

theorem mem_timedHashes {H : Type} {start_time_row : Row → Option (Option Int)}
    {data_hash : Row → Int → Option (Option H)} {P : H → Prop}
    (hdata : ∀ row time_start hash_item, data_hash row time_start = some (some hash_item) → P hash_item)
    {time_start : Int} {rows : List Row} {hash_item : H}
    (h : some (some hash_item) ∈ timedHashes start_time_row data_hash time_start rows) : P hash_item := by
  induction rows generalizing time_start with
  | nil => cases h
  | cons row rows ih =>
    unfold timedHashes at h
    split at h
    · simp at h
    · rcases List.mem_cons.1 h with heq | h
      · exact hdata row _ hash_item heq.symm
      · exact ih h

section
variable (ruby : Ruby R) {ticker_symbol : Str} {rows : List Row}

theorem GoogleIntraday.dataHash_spec {increment time_start : Int} {row : Row} {bar : IntradayHash R}
    (h : dataHash ruby increment ticker_symbol row time_start = some (some bar)) :
    bar.ticker_symbol = ticker_symbol ∧ bar.date = utcTime bar.graph_time := by
  simp only [dataHash, Option.bind_eq_bind, Option.bind_eq_some_iff] at h
  obtain ⟨cell, -, h⟩ := h
  split at h
  · cases h
  · cases h
    exact ⟨rfl, rfl⟩

theorem mem_bars {check_for_dup : IntradayHash R → Bool} {bars : List (IntradayHash R)}
    (h : processTimedCsvFile GoogleIntraday.startTimeRow (GoogleIntraday.dataHash ruby 5 ticker_symbol) check_for_dup rows =
      some bars) {bar : IntradayHash R} (hmem : bar ∈ bars) :
    bar.ticker_symbol = ticker_symbol ∧ bar.date = utcTime bar.graph_time :=
  mem_timedHashes (fun _ _ _ hdata => GoogleIntraday.dataHash_spec ruby hdata) (mem_collected h hmem)

/-- All hashes of a daily feed, whether accepted or not. -/
def fed (ticker_symbol : Str) (rows : List Row) : List (DailyHash R) :=
  rows.filterMap fun row => (GoogleDaily.dataHash ruby ticker_symbol row).join

theorem GoogleDaily.dataHash_ticker {row : Row} {close : DailyHash R}
    (h : dataHash ruby ticker_symbol row = some (some close)) : close.ticker_symbol = ticker_symbol := by
  unfold dataHash at h
  split at h
  · cases h
  · simp only [Option.bind_eq_bind, Option.bind_eq_some_iff] at h
    obtain ⟨day, -, h⟩ := h
    cases h
    rfl

theorem mem_fed {close : DailyHash R} : close ∈ fed ruby ticker_symbol rows ↔
    some (some close) ∈ rows.map (GoogleDaily.dataHash ruby ticker_symbol) := by
  simp [fed, Option.join_eq_some_iff]

theorem fed_ticker {close : DailyHash R} (h : close ∈ fed ruby ticker_symbol rows) :
    close.ticker_symbol = ticker_symbol := by
  obtain ⟨row, -, hrow⟩ := List.mem_map.1 ((mem_fed ruby).1 h)
  exact GoogleDaily.dataHash_ticker ruby hrow

/-- The closes accepted are those of the feed whose time is not in the table. -/
theorem mem_closes {check_for_dup : DailyHash R → Bool} {closes : List (DailyHash R)}
    (h : processCsvFile (GoogleDaily.dataHash ruby ticker_symbol) check_for_dup rows = some closes) {close : DailyHash R} :
    close ∈ closes ↔ close ∈ fed ruby ticker_symbol rows ∧ check_for_dup close := by
  obtain ⟨hash_items, hitems, rfl⟩ := Option.map_eq_some_iff.1 h
  rw [mapM_eq] at hitems
  rw [List.mem_filter, mem_fed, mapM_id_eq hitems]
  simp

end

/-! ## Runs of the two -/

/-- A run of one of the two, with the rows its feed has. -/
inductive Fetch where
  | intraday (ticker_symbol : Str) (rows : List Row)
  | daily (ticker_symbol : Str) (rows : List Row)

section
variable (ruby : Ruby R) (now : Nat → Time) (order : DateDesc R) (misread : Str → Market R → Option (Market R))
  (official : Str → Int → R × R × Int)

def Fetch.run (market : Market R) : Fetch → Market R
  | .intraday ticker_symbol rows => ScraperPublic.googleIntraday ruby now order misread ticker_symbol rows market
  | .daily ticker_symbol rows => ScraperPublic.googleDaily ruby now order misread ticker_symbol rows market

/-- The bars `google_intraday` accepts, if no row raises. -/
def acceptedBars (market : Market R) (ticker_symbol : Str) (rows : List Row) : Option (List (IntradayHash R)) :=
  processTimedCsvFile GoogleIntraday.startTimeRow (GoogleIntraday.dataHash ruby 5 ticker_symbol)
    (GoogleIntraday.checkForDup market.barExists) rows

/-- The closes `google_daily` accepts, if no row raises. -/
def acceptedCloses (market : Market R) (ticker_symbol : Str) (rows : List Row) : Option (List (DailyHash R)) :=
  processCsvFile (GoogleDaily.dataHash ruby ticker_symbol) (GoogleDaily.checkForDup market.dailyExists) rows

/-- A close is not accepted for a day that has a row, unless this is the latest of all
days, old and new, and there is a stock to update. -/
def Settles (market : Market R) (ticker_symbol : Str) (closes : List (DailyHash R)) : Prop :=
  ∀ close ∈ closes, ∀ row ∈ market.daily ticker_symbol, row.day = nyDate close.date →
    (market.stocks.find? (·.ticker_symbol = ticker_symbol)).isSome ∧
      (∀ other ∈ market.daily ticker_symbol, other.day ≤ row.day) ∧ ∀ other ∈ closes, nyDate other.date ≤ row.day

/-- What a feed of closes brings are the official ones. -/
def Fetch.Brings : Fetch → Prop
  | .intraday _ _ => True
  | .daily ticker_symbol rows =>
    ∀ close ∈ fed ruby ticker_symbol rows, ∃ day, close = officialClose official ticker_symbol day

/-- What is asked of a run, and of the table it finds. -/
def Fetch.Admits (market : Market R) : Fetch → Prop
  | .intraday ticker_symbol rows => '\'' ∉ ticker_symbol ∧ ∀ bars ∈ acceptedBars ruby market ticker_symbol rows,
    ∀ last ∈ bars.getLast?, Timely market ticker_symbol last.graph_time
  | .daily ticker_symbol rows => '\'' ∉ ticker_symbol ∧ (Fetch.daily ticker_symbol rows).Brings ruby official ∧
    ∀ closes ∈ acceptedCloses ruby market ticker_symbol rows, (closes.map (·.date)).Nodup ∧
      Settles market ticker_symbol closes

/-- The run inserts rows. -/
def Inserts (market : Market R) (ticker_symbol : Str) (rows : List Row) : Prop :=
  ∃ closes ∈ acceptedCloses ruby market ticker_symbol rows, closes ≠ [] ∧ closes.all GoogleDaily.storable

/-- The ticker symbol has at most one row for each day, and for each day of the feed it is the official one. -/
structure OneEachDay (market : Market R) (ticker_symbol : Str) (rows : List Row) : Prop where
  one : ((market.daily ticker_symbol).map Stockprice.day).Nodup
  official : ∀ close ∈ fed ruby ticker_symbol rows, ∃ row ∈ market.daily ticker_symbol,
    row.day = nyDate close.date ∧ row = close.row row.id

/-- What is done after the bars are inserted. -/
def recorded (ticker_symbol : Str) (last : IntradayHash R) (market : Market R) : Market R :=
  match updateStock ticker_symbol
      ((market.intradayprices.filter (·.ticker_symbol = ticker_symbol)).map fun row => (row.date, row.close_price))
      market with
  | none => market
  | some market => (updateDaily ruby order ticker_symbol last market).getD market

variable {ruby now order misread official} {market : Market R} {ticker_symbol : Str} {rows : List Row}

/-- A run that accepts bars inserts them all, or raises. -/
theorem run_googleIntraday (hquote : '\'' ∉ ticker_symbol) {bars : List (IntradayHash R)}
    (hbars : bars ∈ acceptedBars ruby market ticker_symbol rows) {last : IntradayHash R} (hlast : last ∈ bars.getLast?) :
    ScraperPublic.googleIntraday ruby now order misread ticker_symbol rows market =
      if bars.all GoogleIntraday.storable then recorded ruby order ticker_symbol last (market.insertIntraday bars)
      else market := by
  have hsql : ∃ sql, saveToDb (GoogleIntraday.singleRowInsert ruby now) GoogleIntraday.allDataInsert bars = some sql := by
    rw [← Option.isSome_iff_exists, Option.isSome_iff_ne_none]
    intro hnone
    rw [saveToDb_none.1 hnone] at hlast
    cases hlast
  obtain ⟨sql, hsql⟩ := hsql
  have hreads : lex sql = some (GoogleIntraday.statement ruby now bars) := by
    rw [saveToDb_some hsql]
    refine (GoogleIntraday.reads_iff ruby now bars).2 fun bar hbar => ?_
    rw [(mem_bars ruby hbars hbar).1]
    exact hquote
  unfold ScraperPublic.googleIntraday
  rw [acceptedBars, Option.mem_def] at hbars
  rw [Option.mem_def] at hlast
  rw [hbars]
  dsimp only
  rw [hsql, hlast]
  dsimp only
  rw [saved, if_pos hreads]
  by_cases hall : bars.all GoogleIntraday.storable = true
  · rw [if_pos hall, if_pos hall]
    rfl
  · rw [if_neg hall, if_neg hall]

theorem DailyInv.recorded (h : DailyInv official market) {last : IntradayHash R}
    (hdate : last.date = utcTime last.graph_time) (htimely : Timely market ticker_symbol last.graph_time) :
    DailyInv official (recorded ruby order ticker_symbol last market) := by
  unfold Scraper.recorded
  split
  · exact h
  · next updated hupdated =>
    obtain ⟨hprices, hseq⟩ := updateStock_prices hupdated
    apply (h.of_eq hprices hseq).updateDaily ruby order hdate
    unfold Timely Market.daily
    rw [hprices]
    exact htimely

theorem DailyInv.intraday (h : DailyInv official market)
    (hadmits : Fetch.Admits ruby official market (.intraday ticker_symbol rows)) :
    DailyInv official (ScraperPublic.googleIntraday ruby now order misread ticker_symbol rows market) := by
  obtain ⟨hquote, htimely⟩ := hadmits
  cases hbars : acceptedBars ruby market ticker_symbol rows with
  | none =>
    unfold ScraperPublic.googleIntraday
    rw [acceptedBars] at hbars
    rw [hbars]
    exact h
  | some bars =>
    cases hlast : bars.getLast? with
    | none =>
      unfold ScraperPublic.googleIntraday
      rw [acceptedBars] at hbars
      rw [hbars]
      dsimp only
      rw [saveToDb_none.2 (List.getLast?_eq_none_iff.1 hlast)]
      exact h
    | some last =>
      rw [run_googleIntraday hquote hbars hlast]
      split
      · apply DailyInv.recorded
        · exact h.of_eq rfl rfl
        · exact (mem_bars ruby hbars (List.mem_of_getLast? hlast)).2
        · exact htimely bars hbars last hlast
      · exact h

/-! ## `google_daily` -/

variable {closes : List (DailyHash R)}

/-- The rows the closes become. -/
def closeRows (closes : List (DailyHash R)) (seq : Nat) : List (Stockprice R) :=
  closes.zipIdx.map fun h => h.1.row (seq + h.2)

theorem mem_closeRows {seq : Nat} {row : Stockprice R} (h : row ∈ closeRows closes seq) :
    seq ≤ row.id ∧ row.id < seq + closes.length ∧ ∃ close ∈ closes, row = close.row row.id := by
  obtain ⟨⟨close, n⟩, hmem, rfl⟩ := List.mem_map.1 h
  have hn := List.mem_zipIdx hmem
  refine ⟨Nat.le_add_right _ _, ?_, close, ?_, rfl⟩
  · show seq + n < _
    omega
  · rw [hn.2.2]
    exact List.getElem_mem _

theorem closeRows_mem (seq : Nat) {close : DailyHash R} (h : close ∈ closes) :
    ∃ id, seq ≤ id ∧ close.row id ∈ closeRows closes seq := by
  rw [← List.zipIdx_map_fst 0 closes] at h
  obtain ⟨⟨_, n⟩, hmem, rfl⟩ := List.mem_map.1 h
  exact ⟨seq + n, Nat.le_add_right _ _, List.mem_map_of_mem hmem⟩

theorem closeRows_ids (closes : List (DailyHash R)) (seq : Nat) : ((closeRows closes seq).map (·.id)).Nodup := by
  have hids : (closeRows closes seq).map (·.id) = (List.range' 0 closes.length).map (seq + ·) := by
    rw [closeRows, List.map_map, ← List.zipIdx_map_snd 0 closes, List.map_map]
    rfl
  rw [hids]
  apply List.Nodup.map
  · intro a b hab
    exact Nat.add_left_cancel hab
  · exact List.nodup_range'

theorem closeRows_days (hdates : (closes.map (·.date)).Nodup)
    (hofficial : ∀ close ∈ closes, ∃ day, close = officialClose official ticker_symbol day) (seq : Nat) :
    ((closeRows closes seq).map Stockprice.day).Nodup := by
  have hdays : (closeRows closes seq).map Stockprice.day = (closes.map (·.date)).map nyDate := by
    rw [closeRows, List.map_map, List.map_map]
    have hfst := List.zipIdx_map_fst 0 closes
    conv_rhs => rw [← hfst, List.map_map]
    rfl
  rw [hdays]
  apply List.Nodup.map_on _ hdates
  intro date hdate other hother heq
  obtain ⟨close, hclose, rfl⟩ := List.mem_map.1 hdate
  obtain ⟨close', hclose', rfl⟩ := List.mem_map.1 hother
  obtain ⟨day, rfl⟩ := hofficial close hclose
  obtain ⟨day', rfl⟩ := hofficial close' hclose'
  have hday : day = day' := by
    rw [← nyDate_graphT day, ← nyDate_graphT day']
    exact heq
  rw [hday]

theorem daily_insertDaily (hticker : ∀ close ∈ closes, close.ticker_symbol = ticker_symbol) (other : Str) :
    (market.insertDaily closes).daily other =
      market.daily other ++ if other = ticker_symbol then closeRows closes market.stockprice_seq else [] := by
  have hrows : ∀ row ∈ closeRows closes market.stockprice_seq, row.ticker_symbol = ticker_symbol := by
    intro row hrow
    obtain ⟨-, -, close, hclose, heq⟩ := mem_closeRows hrow
    rw [heq]
    exact hticker close hclose
  show (market.stockprices ++ closeRows closes market.stockprice_seq).filter _ = _
  rw [List.filter_append]
  congr 1
  split
  · next heq =>
    apply List.filter_eq_self.2
    intro row hrow
    simp [hrows row hrow, heq]
  · next hne =>
    apply List.filter_eq_nil_iff.2
    intro row hrow
    simp [hrows row hrow, Ne.symm hne]

theorem PlacedRows.inserted (h : PlacedRows official market)
    (hofficial : ∀ close ∈ closes, ∃ day, close = officialClose official ticker_symbol day) :
    PlacedRows official (market.insertDaily closes) := by
  refine ⟨?_, ?_, ?_⟩
  · show ((market.stockprices ++ closeRows closes market.stockprice_seq).map (·.id)).Nodup
    rw [List.map_append]
    refine List.nodup_append.2 ⟨h.ids, closeRows_ids _ _, ?_⟩
    rintro id hid _ hnew rfl
    obtain ⟨row, hrow, rfl⟩ := List.mem_map.1 hid
    obtain ⟨other, hother, heq⟩ := List.mem_map.1 hnew
    have hlt := h.fresh row hrow
    have hle := (mem_closeRows hother).1
    omega
  · intro row hrow
    show row.id < market.stockprice_seq + closes.length
    rcases List.mem_append.1 hrow with hold | hnew
    · have hlt := h.fresh row hold
      omega
    · exact (mem_closeRows hnew).2.1
  · intro row hrow
    rcases List.mem_append.1 hrow with hold | hnew
    · exact h.placed row hold
    · obtain ⟨-, -, close, hclose, heq⟩ := mem_closeRows hnew
      obtain ⟨day, rfl⟩ := hofficial close hclose
      rw [heq]
      exact placed_official ticker_symbol day row.id

/-- With one row for each day, nothing is removed. -/
theorem DailyInv.removeExtraDay (h : DailyInv official market) (ticker_symbol : Str) :
    (removeExtraDay order ticker_symbol market).getD market = market := by
  unfold Scraper.removeExtraDay
  split
  · next newest second rest hreorder =>
    have hperm := order.perm (market.daily ticker_symbol)
    have hsorted := order.sorted (market.daily ticker_symbol)
    have hdays := (hperm.map Stockprice.day).nodup_iff.2 (h.days ticker_symbol)
    rw [hreorder] at hperm hsorted hdays
    have hnewest := h.placed newest (mem_daily.1 (hperm.mem_iff.1 List.mem_cons_self)).1
    have hsecond := h.placed second (mem_daily.1 (hperm.mem_iff.1 (by simp))).1
    have hle := day_le_of_date_le hsecond hnewest (List.rel_of_pairwise_cons hsorted List.mem_cons_self)
    have hne : second.day ≠ newest.day := by
      intro heq
      simp [heq] at hdays
    have hgap := (day_lt_iff hsecond hnewest).1 (lt_of_le_of_ne hle hne)
    rw [Option.getD_some, if_neg (by omega)]
  · rfl

/-- Official closes whose times are not in the table. -/
structure Batch (official : Str → Int → R × R × Int) (market : Market R) (ticker_symbol : Str)
    (closes : List (DailyHash R)) : Prop where
  official : ∀ close ∈ closes, ∃ day, close = officialClose official ticker_symbol day
  dates : (closes.map (·.date)).Nodup
  absent : ∀ close ∈ closes, ∀ row ∈ market.daily ticker_symbol, row.date ≠ close.date
  settles : Settles market ticker_symbol closes

theorem Batch.ticker (hb : Batch official market ticker_symbol closes) :
    ∀ close ∈ closes, close.ticker_symbol = ticker_symbol := by
  intro close hclose
  obtain ⟨day, rfl⟩ := hb.official close hclose
  rfl

theorem Batch.daily (hb : Batch official market ticker_symbol closes) :
    (market.insertDaily closes).daily ticker_symbol =
      market.daily ticker_symbol ++ closeRows closes market.stockprice_seq := by
  rw [daily_insertDaily hb.ticker, if_pos rfl]

/-- A row of the day of an accepted close comes before it. -/
theorem Batch.row_lt (hb : Batch official market ticker_symbol closes) (h : PlacedRows official market)
    {close : DailyHash R} (hclose : close ∈ closes) {row : Stockprice R} (hrow : row ∈ market.daily ticker_symbol)
    (hday : row.day = nyDate close.date) : row.date < close.date := by
  have hplaced := h.placed row (mem_daily.1 hrow).1
  have hne := hb.absent close hclose row hrow
  obtain ⟨day, rfl⟩ := hb.official close hclose
  have hday' : row.day = day := hday.trans (nyDate_graphT day)
  subst hday'
  apply lt_of_le_of_ne _ hne
  rw [hplaced.date]
  have hseconds : row.graph_time / 1000 ≤ graphT row.day / 1000 := Int.ediv_le_ediv (by decide) hplaced.close
  exact Int.mul_le_mul_of_nonneg_right hseconds (by decide)

/-- Of the rows for a day with a close, one is its row and one is provisional; the others are earlier. -/
theorem Batch.others (hb : Batch official market ticker_symbol closes) (h : DailyInv official market)
    {close : DailyHash R} (hclose : close ∈ closes) {row : Stockprice R} (hrow : row ∈ market.daily ticker_symbol)
    (hday : row.day = nyDate close.date) {id : Nat} (hnew : close.row id ∈ closeRows closes market.stockprice_seq)
    {other : Stockprice R} (hother : other ∈ (market.insertDaily closes).daily ticker_symbol) :
    other = close.row id ∨ other = row ∨ other.date < row.date := by
  obtain ⟨-, hlatest, hlatest'⟩ := hb.settles close hclose row hrow hday
  have hinserted := h.toPlacedRows.inserted hb.official
  have hplaced := hinserted.placed other (mem_daily.1 hother).1
  have hplaced' := h.placed row (mem_daily.1 hrow).1
  rw [hb.daily] at hother
  rcases List.mem_append.1 hother with hold | hnew'
  · rcases (hlatest other hold).lt_or_eq with hearlier | heq
    · exact .inr (.inr (hplaced.date_lt hplaced' hearlier))
    · exact .inr (.inl (h.row_eq hold hrow heq))
  · obtain ⟨-, -, close', hclose', heq⟩ := mem_closeRows hnew'
    have hle : other.day ≤ row.day := by
      rw [heq]
      exact hlatest' close' hclose'
    rcases hle.lt_or_eq with hearlier | hsame
    · exact .inr (.inr (hplaced.date_lt hplaced' hearlier))
    · left
      have hdays := closeRows_days hb.dates hb.official market.stockprice_seq
      exact List.inj_on_of_nodup_map hdays hnew' hnew (hsame.trans hday)

/-- The row of an accepted close, and the rows that it leaves behind. -/
theorem Batch.removes (hb : Batch official market ticker_symbol closes) (h : DailyInv official market)
    {close : DailyHash R} (hclose : close ∈ closes) {row : Stockprice R} (hrow : row ∈ market.daily ticker_symbol)
    (hday : row.day = nyDate close.date) {updated : Market R}
    (hprices : updated.stockprices = (market.insertDaily closes).stockprices) :
    Scraper.removeExtraDay order ticker_symbol updated = some (updated.destroyDaily row.id) := by
  obtain ⟨id, hseq, hnew⟩ := closeRows_mem market.stockprice_seq hclose
  have hinserted := h.toPlacedRows.inserted hb.official
  have hdaily : updated.daily ticker_symbol = (market.insertDaily closes).daily ticker_symbol := by
    unfold Market.daily
    rw [hprices]
  have hmem : row ∈ (market.insertDaily closes).daily ticker_symbol := by
    rw [hb.daily]
    exact List.mem_append_left _ hrow
  have hmem' : close.row id ∈ (market.insertDaily closes).daily ticker_symbol := by
    rw [hb.daily]
    exact List.mem_append_right _ hnew
  have hlt := hb.row_lt h.toPlacedRows hclose hrow hday
  have hnodup : ((market.insertDaily closes).daily ticker_symbol).Nodup := by
    apply List.Nodup.of_map (·.id)
    exact List.Nodup.sublist (List.filter_sublist.map _) hinserted.ids
  have hrest : ∀ other ∈ (market.insertDaily closes).daily ticker_symbol,
      other = close.row id ∨ other = row ∨ other.date < row.date :=
    fun other hother => hb.others h hclose hrow hday hnew hother
  rw [← hdaily] at hmem hmem' hnodup hrest
  obtain ⟨rest, hreorder⟩ := reorder_two order hnodup hmem' hmem hlt hrest
  unfold Scraper.removeExtraDay
  rw [hreorder]
  dsimp only
  rw [hdaily] at hmem hmem'
  -- Both are of one day, so less than twelve hours apart.
  have hon := (hinserted.placed row (mem_daily.1 hmem).1).onDay
  have hon' := (hinserted.placed _ (mem_daily.1 hmem').1).onDay
  have hsame : (close.row id).day = row.day := hday.symm
  rw [hsame] at hon'
  rw [if_pos]
  unfold OnDay at hon hon'
  unfold twelveHours
  omega

/-- What is left of the table has one row for each day if no provisional row of the day
of a close is left. -/
theorem Batch.kept (hb : Batch official market ticker_symbol closes) (h : DailyInv official market) {after : Market R}
    {keep : Stockprice R → Bool} (hprices : after.stockprices = (market.insertDaily closes).stockprices.filter keep)
    (hseq : after.stockprice_seq = (market.insertDaily closes).stockprice_seq)
    (hgone : ∀ close ∈ closes, ∀ row ∈ market.daily ticker_symbol, row.day = nyDate close.date → keep row = false) :
    DailyInv official after := by
  have hinserted := h.toPlacedRows.inserted hb.official
  have hsub : after.stockprices.Sublist (market.insertDaily closes).stockprices := by
    rw [hprices]
    exact List.filter_sublist
  have hdaily (other : Str) : after.daily other = ((market.insertDaily closes).daily other).filter keep := by
    unfold Market.daily
    rw [hprices, List.filter_comm]
  refine ⟨⟨?_, ?_, ?_⟩, ?_⟩
  · exact (hsub.map _).nodup hinserted.ids
  · intro row hrow
    rw [hseq]
    exact hinserted.fresh row (hsub.subset hrow)
  · intro row hrow
    exact hinserted.placed row (hsub.subset hrow)
  · intro other
    rw [hdaily, daily_insertDaily hb.ticker]
    split
    · next heq =>
      subst heq
      have hnodup : (market.daily other ++ closeRows closes market.stockprice_seq).Nodup := by
        rw [← hb.daily]
        apply List.Nodup.of_map (·.id)
        exact (List.filter_sublist.map _).nodup hinserted.ids
      refine List.Nodup.map_on ?_ (hnodup.filter keep)
      -- A row kept is not of the day of a close, so it is the old or the new row of its day.
      have hapart : ∀ old ∈ market.daily other, ∀ new ∈ closeRows closes market.stockprice_seq, keep old = true →
          old.day ≠ new.day := by
        intro old hold new hnew hkeep hday
        obtain ⟨-, -, close, hclose, heq⟩ := mem_closeRows hnew
        rw [heq] at hday
        simp [hgone close hclose old hold hday] at hkeep
      intro row hrow row' hrow' hday
      obtain ⟨hmem, hkeep⟩ := List.mem_filter.1 hrow
      obtain ⟨hmem', hkeep'⟩ := List.mem_filter.1 hrow'
      rcases List.mem_append.1 hmem with hold | hnew <;> rcases List.mem_append.1 hmem' with hold' | hnew'
      · exact h.row_eq hold hold' hday
      · exact absurd hday (hapart row hold row' hnew' hkeep)
      · exact absurd hday.symm (hapart row' hold' row hnew hkeep')
      · have hdays := closeRows_days hb.dates hb.official market.stockprice_seq
        exact List.inj_on_of_nodup_map hdays hnew hnew' hday
    · rw [List.append_nil]
      exact (List.filter_sublist.map _).nodup (h.days other)

/-- What is done after the closes are inserted. -/
def settled (order : DateDesc R) (ticker_symbol : Str) (market : Market R) : Market R :=
  match updateStock ticker_symbol ((market.daily ticker_symbol).map fun row => (row.date, row.close_price)) market with
  | none => market
  | some market => (Scraper.removeExtraDay order ticker_symbol market).getD market

/-- The provisional rows of the days of the closes go, and no row stamped at a close does. -/
theorem Batch.keeps (hb : Batch official market ticker_symbol closes) (h : DailyInv official market) (order : DateDesc R) :
    ∃ keep : Stockprice R → Bool,
      (settled order ticker_symbol (market.insertDaily closes)).stockprices =
        (market.insertDaily closes).stockprices.filter keep ∧
      (settled order ticker_symbol (market.insertDaily closes)).stockprice_seq =
        (market.insertDaily closes).stockprice_seq ∧
      (∀ close ∈ closes, ∀ row ∈ market.daily ticker_symbol, row.day = nyDate close.date → keep row = false) ∧
      ∀ row ∈ (market.insertDaily closes).stockprices, row.date = utcTime (graphT row.day) → keep row = true := by
  have hinserted := h.toPlacedRows.inserted hb.official
  by_cases hconflict : ∃ close ∈ closes, ∃ row ∈ market.daily ticker_symbol, row.day = nyDate close.date
  · obtain ⟨close, hclose, row, hrow, hday⟩ := hconflict
    obtain ⟨hstock, hlatest, -⟩ := hb.settles close hclose row hrow hday
    let price_list := ((market.insertDaily closes).daily ticker_symbol).map fun row => (row.date, row.close_price)
    obtain ⟨updated, hupdated⟩ : ∃ updated, updateStock ticker_symbol price_list (market.insertDaily closes) =
        some updated := updateStock_isSome hstock
    obtain ⟨hprices, hseq⟩ := updateStock_prices hupdated
    refine ⟨fun other => other.id ≠ row.id, ?_, ?_, ?_, ?_⟩
    · rw [settled, hupdated]
      dsimp only
      rw [hb.removes h hclose hrow hday hprices, Option.getD_some, Market.destroyDaily, hprices]
    · rw [settled, hupdated]
      dsimp only
      rw [hb.removes h hclose hrow hday hprices, Option.getD_some, Market.destroyDaily, hseq]
    · intro close' hclose' row' hrow' hday'
      have hle := hlatest row' hrow'
      have hge := (hb.settles close' hclose' row' hrow' hday').2.1 row hrow
      have heq := h.row_eq hrow' hrow (le_antisymm hle hge)
      simp [heq]
    · intro other hother hstamp
      rw [decide_eq_true_eq]
      intro hid
      have hmem : row ∈ (market.insertDaily closes).stockprices := List.mem_append_left _ (mem_daily.1 hrow).1
      have heq := List.inj_on_of_nodup_map hinserted.ids hother hmem hid
      subst heq
      apply hb.absent close hclose other hrow
      obtain ⟨day, rfl⟩ := hb.official close hclose
      rw [hstamp, hday, officialClose, nyDate_graphT]
  · have hnone : ∀ close ∈ closes, ∀ row ∈ market.daily ticker_symbol, row.day ≠ nyDate close.date := by
      intro close hclose row hrow hday
      exact hconflict ⟨close, hclose, row, hrow, hday⟩
    have hinv : DailyInv official (market.insertDaily closes) := by
      refine hb.kept h (List.filter_true _).symm rfl ?_
      intro close hclose row hrow hday
      exact absurd hday (hnone close hclose row hrow)
    have hsame : (settled order ticker_symbol (market.insertDaily closes)).stockprices =
          (market.insertDaily closes).stockprices ∧
        (settled order ticker_symbol (market.insertDaily closes)).stockprice_seq =
          (market.insertDaily closes).stockprice_seq := by
      unfold settled
      split
      · exact ⟨rfl, rfl⟩
      · next updated hupdated =>
        obtain ⟨hprices, hseq⟩ := updateStock_prices hupdated
        rw [(hinv.of_eq hprices hseq).removeExtraDay ticker_symbol]
        exact ⟨hprices, hseq⟩
    refine ⟨fun _ => true, ?_, hsame.2, ?_, fun _ _ _ => rfl⟩
    · rw [hsame.1, List.filter_true]
    · intro close hclose row hrow hday
      exact absurd hday (hnone close hclose row hrow)

theorem batch_of_admits (hadmits : Fetch.Admits ruby official market (.daily ticker_symbol rows))
    (hcloses : closes ∈ acceptedCloses ruby market ticker_symbol rows) :
    Batch official market ticker_symbol closes := by
  obtain ⟨-, hofficial, haccepted⟩ := hadmits
  obtain ⟨hdates, hsettles⟩ := haccepted closes hcloses
  refine ⟨?_, hdates, ?_, hsettles⟩
  · intro close hclose
    exact hofficial close ((mem_closes ruby hcloses).1 hclose).1
  · intro close hclose row hrow hdate
    obtain ⟨hfed, hcheck⟩ := (mem_closes ruby hcloses).1 hclose
    obtain ⟨hmem, hticker⟩ := mem_daily.1 hrow
    have hfound : market.dailyExists close.ticker_symbol close.date = true := by
      apply List.any_eq_true.2
      exact ⟨row, hmem, by simp [hdate, hticker, fed_ticker ruby hfed]⟩
    simp [GoogleDaily.checkForDup, hfound] at hcheck

/-- A run that accepts closes inserts them all, or raises. -/
theorem run_googleDaily (hquote : '\'' ∉ ticker_symbol)
    (hcloses : closes ∈ acceptedCloses ruby market ticker_symbol rows) (hne : closes ≠ []) :
    ScraperPublic.googleDaily ruby now order misread ticker_symbol rows market =
      if closes.all GoogleDaily.storable then settled order ticker_symbol (market.insertDaily closes) else market := by
  have hsql : ∃ sql, saveToDb (GoogleDaily.singleRowInsert ruby now) GoogleDaily.allDataInsert closes = some sql := by
    rw [← Option.isSome_iff_exists, Option.isSome_iff_ne_none]
    exact fun hnone => hne (saveToDb_none.1 hnone)
  obtain ⟨sql, hsql⟩ := hsql
  have hreads : lex sql = some (GoogleDaily.statement ruby now closes) := by
    rw [saveToDb_some hsql]
    refine (GoogleDaily.reads_iff ruby now closes).2 fun close hclose => ?_
    rw [fed_ticker ruby ((mem_closes ruby hcloses).1 hclose).1]
    exact hquote
  unfold ScraperPublic.googleDaily
  rw [acceptedCloses, Option.mem_def] at hcloses
  rw [hcloses]
  dsimp only
  rw [hsql]
  dsimp only
  rw [saved, if_pos hreads]
  by_cases hall : closes.all GoogleDaily.storable = true
  · rw [if_pos hall, if_pos hall]
    rfl
  · rw [if_neg hall, if_neg hall]

theorem DailyInv.daily (h : DailyInv official market)
    (hadmits : Fetch.Admits ruby official market (.daily ticker_symbol rows)) :
    DailyInv official (ScraperPublic.googleDaily ruby now order misread ticker_symbol rows market) := by
  cases hcloses : acceptedCloses ruby market ticker_symbol rows with
  | none =>
    unfold ScraperPublic.googleDaily
    rw [acceptedCloses] at hcloses
    rw [hcloses]
    exact h
  | some closes =>
    by_cases hne : closes = []
    · unfold ScraperPublic.googleDaily
      rw [acceptedCloses] at hcloses
      rw [hcloses]
      dsimp only
      rw [saveToDb_none.2 hne]
      exact h
    · rw [run_googleDaily hadmits.1 hcloses hne]
      have hb := batch_of_admits hadmits hcloses
      obtain ⟨keep, hprices, hseq, hgone, -⟩ := hb.keeps h order
      split
      · exact hb.kept h hprices hseq hgone
      · exact h

/-- In a run that inserts rows, each close of the feed has its row. -/
theorem oneEachDay (h : DailyInv official market)
    (hadmits : Fetch.Admits ruby official market (.daily ticker_symbol rows))
    (hinserts : Inserts ruby market ticker_symbol rows) :
    OneEachDay ruby (ScraperPublic.googleDaily ruby now order misread ticker_symbol rows market) ticker_symbol rows := by
  refine ⟨(h.daily hadmits).days ticker_symbol, ?_⟩
  obtain ⟨closes, hcloses, hne, hstorable⟩ := hinserts
  have hb := batch_of_admits hadmits hcloses
  obtain ⟨keep, hprices, -, -, hkeep⟩ := hb.keeps h order
  have hinserted := h.toPlacedRows.inserted hb.official
  rw [run_googleDaily hadmits.1 hcloses hne, if_pos hstorable]
  intro close hfed
  obtain ⟨day, hday⟩ := hadmits.2.1 close hfed
  have hdate : close.date = utcTime (graphT day) := by rw [hday]; rfl
  -- A row stamped at the close is the official one.
  have hrow : ∀ row ∈ (market.insertDaily closes).daily ticker_symbol, row.date = close.date →
      ∃ row ∈ (settled order ticker_symbol (market.insertDaily closes)).daily ticker_symbol,
        row.day = nyDate close.date ∧ row = close.row row.id := by
    intro row hrow heq
    obtain ⟨hmem, hticker⟩ := mem_daily.1 hrow
    obtain ⟨hrowday, hofficial⟩ := (hinserted.placed row hmem).official_of_date (heq.trans hdate)
    refine ⟨row, ?_, ?_, ?_⟩
    · apply mem_daily.2
      rw [hprices]
      refine ⟨List.mem_filter.2 ⟨hmem, hkeep row hmem ?_⟩, hticker⟩
      rw [hrowday, heq, hdate]
    · rw [hrowday, hdate, nyDate_graphT]
    · rw [hticker, ← hday] at hofficial
      exact hofficial
  by_cases hfound : market.dailyExists close.ticker_symbol close.date = true
  · obtain ⟨row, hmem, heq⟩ := List.any_eq_true.1 hfound
    simp only [decide_eq_true_eq] at heq
    apply hrow row _ heq.2
    rw [hb.daily]
    apply List.mem_append_left
    apply mem_daily.2
    exact ⟨hmem, heq.1.trans (fed_ticker ruby hfed)⟩
  · have hclose : close ∈ closes := by
      apply (mem_closes ruby hcloses).2
      exact ⟨hfed, by simp [GoogleDaily.checkForDup, hfound]⟩
    obtain ⟨id, -, hnew⟩ := closeRows_mem market.stockprice_seq hclose
    apply hrow (close.row id) _ rfl
    rw [hb.daily]
    exact List.mem_append_right _ hnew

theorem DailyInv.run (h : DailyInv official market) {fetch : Fetch} (hadmits : fetch.Admits ruby official market) :
    DailyInv official (fetch.run ruby now order misread market) := by
  cases fetch with
  | intraday ticker_symbol rows => exact h.intraday hadmits
  | daily ticker_symbol rows => exact h.daily hadmits

end

/-- In a run of fetches from an empty table, each admitted, a fetch of official closes
that inserts rows leaves one row for each day, and for each day of its feed the official one. -/
theorem one_row_each_day (ruby : Ruby R) (now : Nat → Time) (order : DateDesc R)
    (misread : Str → Market R → Option (Market R)) (official : Str → Int → R × R × Int) {start market : Market R}
    (hempty : start.stockprices = [])
    (hrun : Serial (fun fetch market => Fetch.run ruby now order misread market fetch) (Fetch.Admits ruby official)
      start market)
    {ticker_symbol : Str} {rows : List Row}
    (hadmits : Fetch.Admits ruby official market (.daily ticker_symbol rows))
    (hinserts : Inserts ruby market ticker_symbol rows) :
    OneEachDay ruby (Fetch.run ruby now order misread market (.daily ticker_symbol rows)) ticker_symbol rows := by
  have hstart : DailyInv official start := by
    refine ⟨⟨?_, ?_, ?_⟩, ?_⟩
    · simp [hempty]
    · simp [hempty]
    · simp [hempty]
    · simp [Market.daily, hempty]
  have hinv := hrun.inv hstart fun market fetch hfetch h => h.run hfetch
  exact oneEachDay hinv hadmits hinserts

/-! ## Two days in July -/

def julyDay : Str → Option Int
  | [d, '-', 'J', 'u', 'l', '-', '1', '5'] => some (16616 + strToI [d])
  | _ => none

def julyRuby : Ruby Int := { wholeRuby with strptime := julyDay }

/-- Rows of the same date come as they were created. -/
def sortedByDate : DateDesc Int where
  reorder := List.insertionSort fun newer older => older.date ≤ newer.date
  perm := List.perm_insertionSort _
  sorted prices := by
    have : Std.Total fun newer older : Stockprice Int => older.date ≤ newer.date := ⟨fun a b => le_total b.date a.date⟩
    have : IsTrans (Stockprice Int) fun newer older => older.date ≤ newer.date := ⟨fun _ _ _ h h' => le_trans h' h⟩
    exact List.pairwise_insertionSort _ prices

def dayRow (date : String) : Row := [date, "100", "100", "100", "100", "5"].map fun cell => some cell.toList

def barRow (stamp : String) : Row := [stamp, "100", "100", "100", "100"].map fun cell => some cell.toList

def flat : Str → Int → Int × Int × Int := fun _ _ => (100, 100, 5)

def closeOf (day : Int) : DailyHash Int := officialClose flat "A".toList day

def barAt (graph_time : Int) : IntradayHash Int := ⟨"A".toList, utcTime graph_time, 100, 100, graph_time⟩

def oneStock : Market Int := ⟨[], [], [⟨1, "Agilent".toList, "A".toList, none, none⟩], 1⟩

def stepJuly (market : Market Int) (fetch : Fetch) : Market Int :=
  fetch.run julyRuby (fun _ => 0) sortedByDate (fun _ _ => none) market

theorem stepJuly_daily {market : Market Int} {rows : List Row} {closes : List (DailyHash Int)}
    (hcloses : acceptedCloses julyRuby market "A".toList rows = some closes) (hne : closes ≠ [])
    (hstorable : closes.all GoogleDaily.storable = true) :
    stepJuly market (.daily "A".toList rows) = settled sortedByDate "A".toList (market.insertDaily closes) := by
  refine (run_googleDaily (by decide) hcloses hne).trans ?_
  rw [if_pos hstorable]

theorem stepJuly_intraday {market : Market Int} {rows : List Row} {bar : IntradayHash Int}
    (hbars : acceptedBars julyRuby market "A".toList rows = some [bar])
    (hstorable : [bar].all GoogleIntraday.storable = true) :
    stepJuly market (.intraday "A".toList rows) =
      recorded julyRuby sortedByDate "A".toList bar (market.insertIntraday [bar]) := by
  refine (run_googleIntraday (by decide) hbars rfl).trans ?_
  rw [if_pos hstorable]
  rfl

/-- The closes of the first and the second of July. -/
def firstDays : List Row := [dayRow "1-Jul-15", dayRow "2-Jul-15"]

/-- A bar at 15:00 on Monday the sixth. -/
def mondayBar : List Row := [barRow "a1436209200"]

def tuesdayBar : List Row := [barRow "a1436295600"]

def afterFirst : Market Int := settled sortedByDate "A".toList (oneStock.insertDaily [closeOf 16617, closeOf 16618])

def afterMonday : Market Int :=
  recorded julyRuby sortedByDate "A".toList (barAt 1436209200000) (afterFirst.insertIntraday [barAt 1436209200000])

def afterTuesday : Market Int :=
  recorded julyRuby sortedByDate "A".toList (barAt 1436295600000) (afterMonday.insertIntraday [barAt 1436295600000])

theorem step_firstDays : stepJuly oneStock (.daily "A".toList firstDays) = afterFirst :=
  stepJuly_daily (by rfl) (by simp) (by rfl)

theorem step_monday : stepJuly afterFirst (.intraday "A".toList mondayBar) = afterMonday :=
  stepJuly_intraday (by rfl) (by rfl)

theorem step_tuesday : stepJuly afterMonday (.intraday "A".toList tuesdayBar) = afterTuesday :=
  stepJuly_intraday (by rfl) (by rfl)

theorem brings_july {rows : List Row} (days : List Int) (h : fed julyRuby "A".toList rows = days.map closeOf) :
    (Fetch.daily "A".toList rows).Brings julyRuby flat := by
  intro close hclose
  rw [h] at hclose
  obtain ⟨day, -, rfl⟩ := List.mem_map.1 hclose
  exact ⟨day, rfl⟩

theorem admits_july {market : Market Int} {rows : List Row} (days : List Int)
    (hfed : fed julyRuby "A".toList rows = days.map closeOf)
    (hcloses : acceptedCloses julyRuby market "A".toList rows = some (days.map closeOf))
    (hdates : ((days.map closeOf).map (·.date)).Nodup) (hsettles : Settles market "A".toList (days.map closeOf)) :
    Fetch.Admits julyRuby flat market (.daily "A".toList rows) := by
  refine ⟨by decide, brings_july days hfed, ?_⟩
  intro closes haccepted
  rw [hcloses, Option.mem_some_iff] at haccepted
  subst haccepted
  exact ⟨hdates, hsettles⟩

theorem one_row_each_day_monday : OneEachDay julyRuby
    (Fetch.run julyRuby (fun _ => 0) sortedByDate (fun _ _ => none) afterMonday (.daily "A".toList [dayRow "6-Jul-15"]))
    "A".toList [dayRow "6-Jul-15"] := by
  have hrun : Serial (fun fetch market => stepJuly market fetch) (Fetch.Admits julyRuby flat) oneStock afterMonday := by
    rw [← step_monday, ← step_firstDays]
    refine .run (.run .init ?_) ?_
    · refine admits_july [16617, 16618] (by rfl) (by rfl) (by decide) ?_
      intro close _ row hrow
      cases hrow
    · rw [step_firstDays]
      refine ⟨by decide, ?_⟩
      intro bars hbars last hlast
      have haccepted : acceptedBars julyRuby afterFirst "A".toList mondayBar = some [barAt 1436209200000] := by rfl
      rw [haccepted, Option.mem_some_iff] at hbars
      subst hbars
      obtain rfl : barAt 1436209200000 = last := by simpa using hlast
      exact .inr ⟨by decide, by decide⟩
  refine one_row_each_day julyRuby (fun _ => 0) sortedByDate (fun _ _ => none) flat rfl hrun ?_ ?_
  · refine admits_july [16622] (by rfl) (by rfl) (by decide) ?_
    unfold Settles
    decide
  · exact ⟨[closeOf 16622], by rfl, by simp, by rfl⟩

/-- Two days whose closes come together: the provisional row of the first stays. -/
theorem missed_day_stays : ¬∀ (ruby : Ruby Int) (now : Nat → Time) (order : DateDesc Int)
    (misread : Str → Market Int → Option (Market Int)) (official : Str → Int → Int × Int × Int)
    (start market : Market Int), start.stockprices = [] →
      Serial (fun fetch market => Fetch.run ruby now order misread market fetch)
        (fun _ fetch => fetch.Brings ruby official) start market →
      ∀ ticker_symbol rows, (Fetch.daily ticker_symbol rows).Brings ruby official →
        Inserts ruby market ticker_symbol rows →
          OneEachDay ruby (Fetch.run ruby now order misread market (.daily ticker_symbol rows)) ticker_symbol rows := by
  intro h
  let lateDays : List Row := [dayRow "6-Jul-15", dayRow "7-Jul-15"]
  have hrun : Serial (fun fetch market => stepJuly market fetch) (fun _ fetch => fetch.Brings julyRuby flat) oneStock
      afterTuesday := by
    rw [← step_tuesday, ← step_monday, ← step_firstDays]
    exact .run (.run (.run .init (brings_july [16617, 16618] (by rfl))) trivial) trivial
  have hday := h julyRuby (fun _ => 0) sortedByDate (fun _ _ => none) flat oneStock afterTuesday rfl hrun "A".toList lateDays
    (brings_july [16622, 16623] (by rfl)) ⟨[closeOf 16622, closeOf 16623], by rfl, by simp, by rfl⟩
  have hlast : stepJuly afterTuesday (.daily "A".toList lateDays) =
      settled sortedByDate "A".toList (afterTuesday.insertDaily [closeOf 16622, closeOf 16623]) :=
    stepJuly_daily (by rfl) (by simp) (by rfl)
  have hone : (((stepJuly afterTuesday (.daily "A".toList lateDays)).daily "A".toList).map Stockprice.day).Nodup :=
    hday.one
  rw [hlast] at hone
  exact absurd hone (by decide)

end MyStockIQ.Scraper
