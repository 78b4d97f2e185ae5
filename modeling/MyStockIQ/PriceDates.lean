import MyStockIQ.DailyChange
import MyStockIQ.LatestPrice
/-!
# No price is after the date of its stock

Both imports call `update_stock` with the prices of the table they have inserted into,
before `update_daily` moves the newest row on to the last bar. So the date of a stock
that can be saved is never behind one of its prices, whatever fetches there have been
(`prices_in_order`).
-/

open SharedStore

namespace MyStockIQ.Scraper

variable {R : Type}

/-- The bars of a ticker symbol. -/
def Market.bars (market : Market R) (ticker_symbol : Str) : List (IntradayHash R) :=
  market.intradayprices.filter (·.ticker_symbol = ticker_symbol)

/-- The dates of all prices of a ticker symbol. -/
def Market.dates (market : Market R) (ticker_symbol : Str) : List Time :=
  (market.daily ticker_symbol).map (·.date) ++ (market.bars ticker_symbol).map (·.date)

/-- The stock of the ticker symbol is as recent as its prices, if it can be saved. -/
def Current (market : Market R) (ticker_symbol : Str) : Prop :=
  ∀ stock, market.stockOf ticker_symbol = some stock → stock.valid market.stocks = true →
    ∀ date ∈ market.dates ticker_symbol, (date : WithBot Time) ≤ dateOrOld stock.date

/-- The bars of a ticker symbol are at different times, each at the instant of its graph time. -/
structure BarsInv (market : Market R) : Prop where
  timed : ∀ bar ∈ market.intradayprices, bar.date = utcTime bar.graph_time
  distinct : ∀ ticker_symbol, ((market.bars ticker_symbol).map (·.date)).Nodup

/-- What the fetches keep of the prices and their stocks. -/
structure PricesInv (official : Str → Int → R × R × Int) (market : Market R) : Prop extends DailyInv official market,
    BarsInv market where
  stocks : (market.stocks.map (·.id)).Nodup
  current : ∀ ticker_symbol, Current market ticker_symbol

/-- No two bars that a fetch accepts are of one time. -/
def Fetch.Distinct (ruby : Ruby R) (market : Market R) : Fetch → Prop
  | .intraday ticker_symbol rows => ∀ bars ∈ acceptedBars ruby market ticker_symbol rows, (bars.map (·.date)).Nodup
  | .daily _ _ => True

section
variable {market market' : Market R} {ticker_symbol : Str} {stock : StockRow R}

/-! ## `update_stock` -/

theorem mem_dates {date : Time} : date ∈ market.dates ticker_symbol ↔
    (∃ row ∈ market.stockprices, row.ticker_symbol = ticker_symbol ∧ row.date = date) ∨
      ∃ bar ∈ market.intradayprices, bar.ticker_symbol = ticker_symbol ∧ bar.date = date := by
  simp [Market.dates, Market.daily, Market.bars, and_assoc]

/-- A stock is valid by its names, not by its price. -/
theorem valid_map {f : StockRow R → StockRow R}
    (hf : ∀ row, (f row).id = row.id ∧ (f row).stock = row.stock ∧ (f row).ticker_symbol = row.ticker_symbol)
    (stock : StockRow R) (stocks : List (StockRow R)) : (f stock).valid (stocks.map f) = stock.valid stocks := by
  obtain ⟨hid, hstock, hticker⟩ := hf stock
  unfold StockRow.valid
  rw [hid, hstock, hticker, List.any_map]
  congr 2
  refine List.any_congr rfl fun other => ?_
  obtain ⟨hid', -, hticker'⟩ := hf other
  simp only [Function.comp_apply, hid', hticker']

theorem Current.congr (h : Current market ticker_symbol) (hstocks : market'.stocks = market.stocks)
    (hdates : ∀ date ∈ market'.dates ticker_symbol, date ∈ market.dates ticker_symbol) : Current market' ticker_symbol := by
  intro stock hstock hvalid date hdate
  unfold Market.stockOf at hstock
  rw [hstocks] at hstock hvalid
  exact h stock hstock hvalid date (hdates date hdate)

/-- The scan leaves no date behind. -/
theorem le_latestClose {prices : List (Time × R)} (date : Option Time) :
    (∀ price ∈ prices, (price.1 : WithBot Time) ≤ dateOrOld (((latestClose prices date).map (·.1)).or date)) ∧
      dateOrOld date ≤ dateOrOld (((latestClose prices date).map (·.1)).or date) := by
  have hspec := Scan.runningMax_spec Prod.fst (dateOrOld date) prices
  rw [← latestClose_eq] at hspec
  cases hlatest : latestClose prices date with
  | none =>
    rw [hlatest] at hspec
    exact ⟨fun price hprice => (hspec price hprice).le, le_refl _⟩
  | some best =>
    rw [hlatest] at hspec
    obtain ⟨-, hdate, hmax⟩ := hspec
    exact ⟨fun price hprice => WithBot.coe_le_coe.2 (hmax price hprice), hdate⟩

theorem ticker_of_stockOf (h : market.stockOf ticker_symbol = some stock) : stock.ticker_symbol = ticker_symbol := by
  simpa using List.find?_some h

/-- The other stocks are as before. -/
theorem current_saveStock_of_ne (hids : (market.stocks.map (·.id)).Nodup) (hfound : market.stockOf ticker_symbol = some stock)
    (latest : Time × R) {other : Str} (hne : other ≠ ticker_symbol) (h : Current market other) :
    Current (market.saveStock stock latest) other := by
  intro found hother hvalid
  rw [stockOf_saveStock, Option.map_eq_some_iff] at hother
  obtain ⟨row, hrow, rfl⟩ := hother
  have hid : row.id ≠ stock.id := by
    intro hsame
    obtain rfl := List.inj_on_of_nodup_map hids (stockOf_mem hrow) (stockOf_mem hfound) hsame
    exact hne ((ticker_of_stockOf hrow).symm.trans (ticker_of_stockOf hfound))
  have hsave := valid_map (f := fun row => if row.id = stock.id then
    { row with date := some latest.1, daily_stock_price := some latest.2 } else row)
    (fun row => by split <;> exact ⟨rfl, rfl, rfl⟩) row market.stocks
  rw [if_neg hid]
  rw [Market.saveStock, hsave] at hvalid
  exact h row hrow hvalid

/-- The stock has the latest of its dates now. -/
theorem current_saveStock {prices : List (Time × R)} {latest : Time × R}
    (hfound : market.stockOf ticker_symbol = some stock) (hlatest : latestClose prices stock.date = some latest)
    (hdates : ∀ date ∈ market.dates ticker_symbol,
      (date : WithBot Time) ≤ dateOrOld stock.date ∨ ∃ price ∈ prices, price.1 = date) :
    Current (market.saveStock stock latest) ticker_symbol := by
  intro found hother hvalid date hdate
  rw [stockOf_saveStock, hfound, Option.map_some, if_pos rfl, Option.some_inj] at hother
  subst hother
  obtain ⟨hprices, hold⟩ := @le_latestClose _ prices stock.date
  rw [hlatest] at hprices hold
  rcases hdates date hdate with hle | ⟨price, hprice, rfl⟩
  · exact hle.trans hold
  · exact hprices price hprice

/-- What `update_stock` leaves, if all dates of the ticker symbol are among the prices or not after the stock's. -/
theorem current_updateStock {prices : List (Time × R)} (hids : (market.stocks.map (·.id)).Nodup)
    (hothers : ∀ other, other ≠ ticker_symbol → Current market other)
    (hdates : ∀ stock, market.stockOf ticker_symbol = some stock → stock.valid market.stocks = true →
      ∀ date ∈ market.dates ticker_symbol, (date : WithBot Time) ≤ dateOrOld stock.date ∨ ∃ price ∈ prices, price.1 = date)
    (h : updateStock ticker_symbol prices market = some market') (other : Str) : Current market' other := by
  cases hfound : market.stockOf ticker_symbol with
  | none =>
    unfold updateStock Market.stockOf at *
    rw [hfound] at h
    cases h
  | some stock =>
    rw [updateStock_eq hfound, Option.some_inj] at h
    subst h
    have hsame : latestClose prices stock.date = none ∨ stock.valid market.stocks ≠ true →
        Current market ticker_symbol := by
      intro hkept found hother hvalid date hdate
      obtain rfl := Option.some.inj (hfound.symm.trans hother)
      obtain ⟨hprices, -⟩ := @le_latestClose _ prices stock.date
      have hnone := hkept.resolve_right (not_not.2 hvalid)
      rw [hnone] at hprices
      rcases hdates stock hfound hvalid date hdate with hle | ⟨price, hprice, rfl⟩
      · exact hle
      · exact hprices price hprice
    cases hlatest : latestClose prices stock.date with
    | none =>
      by_cases hticker : other = ticker_symbol
      · rw [hticker]
        exact hsame (.inl hlatest)
      · exact hothers other hticker
    | some latest =>
      dsimp only
      split
      · next hvalid =>
        by_cases hticker : other = ticker_symbol
        · rw [hticker]
          exact current_saveStock hfound hlatest (hdates stock hfound hvalid)
        · exact current_saveStock_of_ne hids hfound latest hticker (hothers other hticker)
      · next hvalid =>
        by_cases hticker : other = ticker_symbol
        · rw [hticker]
          exact hsame (.inr hvalid)
        · exact hothers other hticker

theorem updateStock_stocks {prices : List (Time × R)} (h : updateStock ticker_symbol prices market = some market') :
    market'.stocks.map (·.id) = market.stocks.map (·.id) ∧ market'.intradayprices = market.intradayprices := by
  cases hfound : market.stockOf ticker_symbol with
  | none =>
    unfold updateStock Market.stockOf at *
    rw [hfound] at h
    cases h
  | some stock =>
    rw [updateStock_eq hfound, Option.some_inj] at h
    subst h
    cases latestClose prices stock.date with
    | none => exact ⟨rfl, rfl⟩
    | some latest =>
      dsimp only
      split
      · refine ⟨?_, rfl⟩
        unfold Market.saveStock
        rw [List.map_map]
        refine List.map_congr_left fun row _ => ?_
        dsimp only [Function.comp_apply]
        split <;> rfl
      · exact ⟨rfl, rfl⟩

end

/-! ## One fetch -/

section
variable {ruby : Ruby R} {now : Nat → Time} {order : DateDesc R} {misread : Str → Market R → Option (Market R)}
  {official : Str → Int → R × R × Int} {market market' : Market R} {ticker_symbol : Str} {rows : List Row}

/-- Each row `update_daily` leaves has a date there was, or the one of the last bar. -/
theorem mem_updateDaily {last : IntradayHash R} (h : updateDaily ruby order ticker_symbol last market = some market')
    (hids : (market.stockprices.map (·.id)).Nodup) {row : Stockprice R} (hrow : row ∈ market'.stockprices) :
    (∃ old ∈ market.stockprices, old.ticker_symbol = row.ticker_symbol ∧ old.date = row.date) ∨
      row.ticker_symbol = ticker_symbol ∧ row.date = last.date := by
  unfold updateDaily at h
  split at h
  · next newest second rest hreorder =>
    obtain ⟨hnewest, hticker⟩ := mem_daily.1 (newest_of_reorder order hreorder).1
    dsimp only at h
    split at h
    · cases h
      rcases List.mem_append.1 hrow with hold | hnew
      · exact .inl ⟨row, hold, rfl, rfl⟩
      · rw [List.mem_singleton.1 hnew]
        exact .inr ⟨rfl, rfl⟩
    · split at h
      · cases h
        obtain ⟨old, hold, rfl⟩ := List.mem_map.1 hrow
        dsimp only
        split
        · next hid =>
          obtain rfl := List.inj_on_of_nodup_map hids hold hnewest hid
          exact .inr ⟨hticker, rfl⟩
        · exact .inl ⟨old, hold, rfl, rfl⟩
      · cases h
        exact .inl ⟨row, hrow, rfl, rfl⟩
  · cases h

theorem updateDaily_others {last : IntradayHash R} (h : updateDaily ruby order ticker_symbol last market = some market') :
    market'.intradayprices = market.intradayprices ∧ market'.stocks = market.stocks := by
  unfold updateDaily at h
  split at h
  · dsimp only at h
    split at h
    · cases h
      exact ⟨rfl, rfl⟩
    · split at h
      · cases h
        exact ⟨rfl, rfl⟩
      · cases h
        exact ⟨rfl, rfl⟩
  · cases h

/-- A bar is accepted only if there is none of its time. -/
theorem fresh_bars {bars : List (IntradayHash R)} (hbars : bars ∈ acceptedBars ruby market ticker_symbol rows)
    {bar : IntradayHash R} (hbar : bar ∈ bars) : ∀ old ∈ market.bars ticker_symbol, old.date ≠ bar.date := by
  intro old hold heq
  obtain ⟨hmem, hticker⟩ := List.mem_filter.1 hold
  obtain ⟨items, -, hfiltered⟩ := Option.map_eq_some_iff.1 hbars
  have hcheck := (List.mem_filter.1 (hfiltered ▸ hbar)).2
  have hbar_ticker := (mem_bars ruby hbars hbar).1
  have hfound : market.barExists bar.ticker_symbol bar.date = true := by
    refine List.any_eq_true.2 ⟨old, hmem, ?_⟩
    simpa [hbar_ticker, heq] using hticker
  simp [GoogleIntraday.checkForDup, hfound] at hcheck

theorem bars_insertIntraday {bars : List (IntradayHash R)} (hbars : ∀ bar ∈ bars, bar.ticker_symbol = ticker_symbol)
    (other : Str) : (market.insertIntraday bars).bars other =
      market.bars other ++ if other = ticker_symbol then bars else [] := by
  unfold Market.bars Market.insertIntraday
  rw [List.filter_append]
  congr 1
  split
  · next hsame =>
    rw [List.filter_eq_self]
    intro bar hbar
    simpa [hsame] using hbars bar hbar
  · next hne =>
    rw [List.filter_eq_nil_iff]
    intro bar hbar
    simpa [hbars bar hbar] using Ne.symm hne

theorem BarsInv.inserted (h : BarsInv market) {bars : List (IntradayHash R)}
    (hbars : bars ∈ acceptedBars ruby market ticker_symbol rows) (hdistinct : (bars.map (·.date)).Nodup) :
    BarsInv (market.insertIntraday bars) where
  timed bar hbar := by
    rcases List.mem_append.1 hbar with hold | hnew
    · exact h.timed bar hold
    · exact (mem_bars ruby hbars hnew).2
  distinct other := by
    rw [bars_insertIntraday (fun bar hbar => (mem_bars ruby hbars hbar).1)]
    split
    · next hsame =>
      rw [List.map_append]
      refine List.nodup_append.2 ⟨h.distinct other, hdistinct, ?_⟩
      rintro date hold _ hnew rfl
      obtain ⟨old, hmem, rfl⟩ := List.mem_map.1 hold
      obtain ⟨bar, hbar, heq⟩ := List.mem_map.1 hnew
      rw [hsame] at hmem
      exact fresh_bars hbars hbar old hmem heq.symm
    · rw [List.append_nil]
      exact h.distinct other

theorem BarsInv.of_eq (h : BarsInv market) (hbars : market'.intradayprices = market.intradayprices) : BarsInv market' where
  timed := by
    rw [hbars]
    exact h.timed
  distinct other := by
    unfold Market.bars
    rw [hbars]
    exact h.distinct other

/-- A fetch that does nothing. -/
theorem PricesInv.of_eq (h : PricesInv official market) (hsame : market' = market) : PricesInv official market' := by
  rwa [hsame]

/-- After the bars are inserted and their last one is recorded. -/
theorem PricesInv.recorded (h : PricesInv official market) {bars : List (IntradayHash R)} {last : IntradayHash R}
    (hbars : bars ∈ acceptedBars ruby market ticker_symbol rows) (hlast : last ∈ bars)
    (hdistinct : (bars.map (·.date)).Nodup)
    (hdaily : DailyInv official (recorded ruby order ticker_symbol last (market.insertIntraday bars))) :
    PricesInv official (recorded ruby order ticker_symbol last (market.insertIntraday bars)) := by
  have hinserted := h.toBarsInv.inserted hbars hdistinct
  have hticker : ∀ bar ∈ bars, bar.ticker_symbol = ticker_symbol := fun bar hbar => (mem_bars ruby hbars hbar).1
  have hothers : ∀ other, other ≠ ticker_symbol → Current (market.insertIntraday bars) other := by
    intro other hne
    refine (h.current other).congr rfl fun date hdate => ?_
    unfold Market.dates at hdate ⊢
    rwa [bars_insertIntraday hticker, if_neg hne, List.append_nil] at hdate
  revert hdaily
  unfold Scraper.recorded
  cases hupdated : updateStock ticker_symbol (((market.insertIntraday bars).intradayprices.filter
      (·.ticker_symbol = ticker_symbol)).map fun row => (row.date, row.close_price)) (market.insertIntraday bars) with
  | none =>
    intro hdaily
    refine ⟨hdaily, hinserted, h.stocks, fun other => ?_⟩
    by_cases hsame : other = ticker_symbol
    · -- There is no stock of this ticker symbol.
      intro stock hstock
      rw [hsame] at hstock
      rw [updateStock_eq hstock] at hupdated
      cases hupdated
    · exact hothers other hsame
  | some updated =>
    intro hdaily
    obtain ⟨hprices, -⟩ := updateStock_prices hupdated
    obtain ⟨hstocks, hkept⟩ := updateStock_stocks hupdated
    have hids : ((market.insertIntraday bars).stocks.map (·.id)).Nodup := h.stocks
    have hcurrent : ∀ other, Current updated other := by
      intro other
      refine current_updateStock hids hothers ?_ hupdated other
      intro stock hstock hvalid date hdate
      rcases mem_dates.1 hdate with ⟨row, hrow, hrow_ticker, rfl⟩ | ⟨bar, hbar, hbar_ticker, rfl⟩
      · exact .inl (h.current ticker_symbol stock hstock hvalid row.date
          (mem_dates.2 (.inl ⟨row, hrow, hrow_ticker, rfl⟩)))
      · exact .inr ⟨(bar.date, bar.close_price), List.mem_map.2 ⟨bar, by simp [hbar, hbar_ticker], rfl⟩, rfl⟩
    have hstocks_nodup : (updated.stocks.map (·.id)).Nodup := by rw [hstocks]; exact h.stocks
    dsimp only at hdaily ⊢
    cases hrecorded : updateDaily ruby order ticker_symbol last updated with
    | none =>
      rw [hrecorded] at hdaily
      exact ⟨hdaily, hinserted.of_eq hkept, hstocks_nodup, hcurrent⟩
    | some after =>
      rw [hrecorded] at hdaily
      obtain ⟨hafter_bars, hafter_stocks⟩ := updateDaily_others hrecorded
      refine ⟨hdaily, hinserted.of_eq (hafter_bars.trans hkept), ?_, fun other => (hcurrent other).congr hafter_stocks ?_⟩
      · rw [Option.getD_some, hafter_stocks]
        exact hstocks_nodup
      · intro date hdate
        rcases mem_dates.1 hdate with ⟨row, hrow, hrow_ticker, rfl⟩ | ⟨bar, hbar, hbar_ticker, rfl⟩
        · have hrows : (updated.stockprices.map (·.id)).Nodup := by rw [hprices]; exact h.ids
          rcases mem_updateDaily hrecorded hrows hrow with ⟨old, hold, hold_ticker, hold_date⟩ | ⟨hrow_last, hdate_last⟩
          · exact mem_dates.2 (.inl ⟨old, hold, hold_ticker.trans hrow_ticker, hold_date⟩)
          · -- The last bar is in the table by now.
            refine mem_dates.2 (.inr ⟨last, ?_, ?_, hdate_last.symm⟩)
            · rw [hkept]
              exact List.mem_append_right _ hlast
            · rw [hticker last hlast, ← hrow_last, hrow_ticker]
        · rw [Option.getD_some, hafter_bars] at hbar
          exact mem_dates.2 (.inr ⟨bar, hbar, hbar_ticker, rfl⟩)

theorem PricesInv.intraday (h : PricesInv official market)
    (hadmits : Fetch.Admits ruby official market (.intraday ticker_symbol rows))
    (hdistinct : Fetch.Distinct ruby market (.intraday ticker_symbol rows)) :
    PricesInv official (ScraperPublic.googleIntraday ruby now order misread ticker_symbol rows market) := by
  cases hbars : acceptedBars ruby market ticker_symbol rows with
  | none =>
    refine h.of_eq ?_
    unfold ScraperPublic.googleIntraday
    rw [acceptedBars] at hbars
    rw [hbars]
  | some bars =>
    cases hlast : bars.getLast? with
    | none =>
      refine h.of_eq ?_
      unfold ScraperPublic.googleIntraday
      rw [acceptedBars] at hbars
      rw [hbars]
      dsimp only
      rw [saveToDb_none.2 (List.getLast?_eq_none_iff.1 hlast)]
    | some last =>
      have hdaily : DailyInv official (ScraperPublic.googleIntraday ruby now order misread ticker_symbol rows market) :=
        h.toDailyInv.intraday hadmits
      rw [run_googleIntraday hadmits.1 hbars hlast] at hdaily ⊢
      split at hdaily
      · next hall =>
        rw [if_pos hall]
        exact h.recorded hbars (List.mem_of_getLast? hlast) (hdistinct bars hbars) hdaily
      · next hall =>
        rw [if_neg hall]
        exact h

theorem removeExtraDay_others (h : removeExtraDay order ticker_symbol market = some market') :
    market'.intradayprices = market.intradayprices ∧ market'.stocks = market.stocks ∧
      ∀ row ∈ market'.stockprices, row ∈ market.stockprices := by
  unfold removeExtraDay at h
  split at h
  · split at h
    · cases h
      exact ⟨rfl, rfl, fun row hrow => List.mem_of_mem_filter hrow⟩
    · cases h
      exact ⟨rfl, rfl, fun row hrow => hrow⟩
  · cases h

/-- After the closes are inserted and the extra day is removed. -/
theorem PricesInv.settled (h : PricesInv official market) {closes : List (DailyHash R)}
    (hticker : ∀ close ∈ closes, close.ticker_symbol = ticker_symbol)
    (hdaily : DailyInv official (settled order ticker_symbol (market.insertDaily closes))) :
    PricesInv official (settled order ticker_symbol (market.insertDaily closes)) := by
  have hbars : BarsInv (market.insertDaily closes) := h.toBarsInv.of_eq rfl
  have hids : ((market.insertDaily closes).stocks.map (·.id)).Nodup := h.stocks
  -- Only this ticker symbol has new rows.
  have hrows : ∀ row ∈ (market.insertDaily closes).stockprices, row ∈ market.stockprices ∨ row.ticker_symbol = ticker_symbol := by
    intro row hrow
    rcases List.mem_append.1 hrow with hold | hnew
    · exact .inl hold
    · obtain ⟨⟨close, n⟩, hclose, rfl⟩ := List.mem_map.1 hnew
      exact .inr (hticker close (List.fst_mem_of_mem_zipIdx hclose))
  have hothers : ∀ other, other ≠ ticker_symbol → Current (market.insertDaily closes) other := by
    intro other hne
    refine (h.current other).congr rfl fun date hdate => ?_
    rcases mem_dates.1 hdate with ⟨row, hrow, hrow_ticker, rfl⟩ | hbar
    · rcases hrows row hrow with hold | hsame
      · exact mem_dates.2 (.inl ⟨row, hold, hrow_ticker, rfl⟩)
      · exact absurd (hrow_ticker.symm.trans hsame) hne
    · exact mem_dates.2 (.inr hbar)
  revert hdaily
  unfold Scraper.settled
  cases hupdated : updateStock ticker_symbol (((market.insertDaily closes).daily ticker_symbol).map
      fun row => (row.date, row.close_price)) (market.insertDaily closes) with
  | none =>
    intro hdaily
    refine ⟨hdaily, hbars, hids, fun other => ?_⟩
    by_cases hsame : other = ticker_symbol
    · intro stock hstock
      rw [hsame] at hstock
      rw [updateStock_eq hstock] at hupdated
      cases hupdated
    · exact hothers other hsame
  | some updated =>
    intro hdaily
    obtain ⟨hstocks, hkept⟩ := updateStock_stocks hupdated
    have hcurrent : ∀ other, Current updated other := by
      intro other
      refine current_updateStock hids hothers ?_ hupdated other
      intro stock hstock hvalid date hdate
      rcases mem_dates.1 hdate with ⟨row, hrow, hrow_ticker, rfl⟩ | hbar
      · exact .inr ⟨(row.date, row.close_price), List.mem_map.2 ⟨row, mem_daily.2 ⟨hrow, hrow_ticker⟩, rfl⟩, rfl⟩
      · exact .inl (h.current ticker_symbol stock hstock hvalid date (mem_dates.2 (.inr hbar)))
    have hstocks_nodup : (updated.stocks.map (·.id)).Nodup := by rw [hstocks]; exact hids
    dsimp only at hdaily ⊢
    cases hremoved : removeExtraDay order ticker_symbol updated with
    | none =>
      rw [hremoved] at hdaily
      exact ⟨hdaily, hbars.of_eq hkept, hstocks_nodup, hcurrent⟩
    | some after =>
      rw [hremoved] at hdaily
      obtain ⟨hafter_bars, hafter_stocks, hafter_rows⟩ := removeExtraDay_others hremoved
      refine ⟨hdaily, hbars.of_eq (hafter_bars.trans hkept), ?_, fun other => (hcurrent other).congr hafter_stocks ?_⟩
      · rw [Option.getD_some, hafter_stocks]
        exact hstocks_nodup
      · intro date hdate
        rcases mem_dates.1 hdate with ⟨row, hrow, hrow_ticker, rfl⟩ | ⟨bar, hbar, hbar_ticker, rfl⟩
        · exact mem_dates.2 (.inl ⟨row, hafter_rows row hrow, hrow_ticker, rfl⟩)
        · rw [Option.getD_some, hafter_bars] at hbar
          exact mem_dates.2 (.inr ⟨bar, hbar, hbar_ticker, rfl⟩)

theorem PricesInv.daily (h : PricesInv official market)
    (hadmits : Fetch.Admits ruby official market (.daily ticker_symbol rows)) :
    PricesInv official (ScraperPublic.googleDaily ruby now order misread ticker_symbol rows market) := by
  cases hcloses : acceptedCloses ruby market ticker_symbol rows with
  | none =>
    refine h.of_eq ?_
    unfold ScraperPublic.googleDaily
    rw [acceptedCloses] at hcloses
    rw [hcloses]
  | some closes =>
    by_cases hne : closes = []
    · refine h.of_eq ?_
      unfold ScraperPublic.googleDaily
      rw [acceptedCloses] at hcloses
      rw [hcloses]
      dsimp only
      rw [saveToDb_none.2 hne]
    · have hdaily : DailyInv official (ScraperPublic.googleDaily ruby now order misread ticker_symbol rows market) :=
        h.toDailyInv.daily hadmits
      rw [run_googleDaily hadmits.1 hcloses hne] at hdaily ⊢
      split at hdaily
      · next hall =>
        rw [if_pos hall]
        exact h.settled (fun close hclose => fed_ticker ruby ((mem_closes ruby hcloses).1 hclose).1) hdaily
      · next hall =>
        rw [if_neg hall]
        exact h

theorem PricesInv.run (h : PricesInv official market) {fetch : Fetch} (hadmits : fetch.Admits ruby official market)
    (hdistinct : fetch.Distinct ruby market) : PricesInv official (fetch.run ruby now order misread market) := by
  cases fetch with
  | intraday ticker_symbol rows => exact h.intraday hadmits hdistinct
  | daily ticker_symbol rows => exact h.daily hadmits

end

/-! ## Runs -/

/-- What is asked of a fetch for the prices to stay in order. -/
def Fetch.Orderly (ruby : Ruby R) (official : Str → Int → R × R × Int) (market : Market R) (fetch : Fetch) : Prop :=
  fetch.Admits ruby official market ∧ fetch.Distinct ruby market

/-- Tables without prices. -/
structure Market.NoPrices (market : Market R) : Prop where
  stockprices : market.stockprices = []
  intradayprices : market.intradayprices = []
  stocks : (market.stocks.map (·.id)).Nodup

section
variable {ruby : Ruby R} {now : Nat → Time} {order : DateDesc R} {misread : Str → Market R → Option (Market R)}
  {official : Str → Int → R × R × Int} {start market : Market R}

theorem Market.NoPrices.pricesInv (h : start.NoPrices) : PricesInv official start := by
  refine ⟨⟨⟨?_, ?_, ?_⟩, ?_⟩, ⟨?_, ?_⟩, h.stocks, ?_⟩
  · simp [h.stockprices]
  · simp [h.stockprices]
  · simp [h.stockprices]
  · simp [Market.daily, h.stockprices]
  · simp [h.intradayprices]
  · simp [Market.bars, h.intradayprices]
  · intro ticker_symbol stock hstock hvalid date hdate
    simp [Market.dates, Market.daily, Market.bars, h.stockprices, h.intradayprices] at hdate

theorem pricesInv_of_run (hempty : start.NoPrices)
    (hrun : Serial (fun fetch market => Fetch.run ruby now order misread market fetch) (Fetch.Orderly ruby official)
      start market) : PricesInv official market :=
  hrun.inv hempty.pricesInv fun _ _ hfetch h => h.run hfetch.1 hfetch.2

/-- After any fetches into empty tables, a stock that can be saved has a date that none of its prices is after, and
the bars of a ticker symbol are at different times. -/
theorem prices_in_order (hempty : start.NoPrices)
    (hrun : Serial (fun fetch market => Fetch.run ruby now order misread market fetch) (Fetch.Orderly ruby official)
      start market) (ticker_symbol : Str) :
    (∀ stock, market.stockOf ticker_symbol = some stock → stock.valid market.stocks = true →
      ∀ date ∈ market.dates ticker_symbol, (date : WithBot Time) ≤ dateOrOld stock.date) ∧
    ((market.bars ticker_symbol).map (·.date)).Nodup :=
  ⟨(pricesInv_of_run hempty hrun).current ticker_symbol, (pricesInv_of_run hempty hrun).distinct ticker_symbol⟩

end

/-! A stock in July. -/

def centJuly : Ruby ℚ := { centRuby with strptime := julyDay }

def flatPrices : Str → Int → ℚ × ℚ × Int := fun _ _ => (100, 100, 5)

/-- A stock without prices. -/
def listed : Market ℚ := ⟨[], [], [⟨1, "Agilent".toList, "A".toList, none, none⟩], 1⟩

def closeA (day : Int) : DailyHash ℚ := officialClose flatPrices "A".toList day

def barA (graph_time : Int) : IntradayHash ℚ := ⟨"A".toList, utcTime graph_time, 100, 100, graph_time⟩

def twoBars : List (IntradayHash ℚ) := [barA 1436191200000, barA 1436209200000]

/-- With the closes of the first and the second of July. -/
def withCloses : Market ℚ := settled newestFirst "A".toList (listed.insertDaily [closeA 16617, closeA 16618])

/-- And with two bars on Monday the sixth. -/
def withBars : Market ℚ :=
  recorded centJuly newestFirst "A".toList (barA 1436209200000) (withCloses.insertIntraday twoBars)

def stepA (market : Market ℚ) (fetch : Fetch) : Market ℚ :=
  fetch.run centJuly (fun _ => 0) newestFirst (fun _ _ => none) market

def twoDayRows : List Row := [dayRow "1-Jul-15", dayRow "2-Jul-15"]

def twoBarRows : List Row := [barRow "a1436191200", barRow "a1436209200"]

theorem accepted_twoDays : acceptedCloses centJuly listed "A".toList twoDayRows = some [closeA 16617, closeA 16618] := by
  rfl

theorem accepted_twoBars : acceptedBars centJuly withCloses "A".toList twoBarRows = some twoBars := by rfl

theorem stepA_daily {market : Market ℚ} {rows : List Row} {closes : List (DailyHash ℚ)}
    (hcloses : acceptedCloses centJuly market "A".toList rows = some closes) (hne : closes ≠ [])
    (hstorable : closes.all GoogleDaily.storable = true) :
    stepA market (.daily "A".toList rows) = settled newestFirst "A".toList (market.insertDaily closes) := by
  refine (run_googleDaily (by decide) hcloses hne).trans ?_
  rw [if_pos hstorable]

theorem stepA_intraday {market : Market ℚ} {rows : List Row} {bars : List (IntradayHash ℚ)} {last : IntradayHash ℚ}
    (hbars : acceptedBars centJuly market "A".toList rows = some bars) (hlast : bars.getLast? = some last)
    (hstorable : bars.all GoogleIntraday.storable = true) :
    stepA market (.intraday "A".toList rows) =
      recorded centJuly newestFirst "A".toList last (market.insertIntraday bars) := by
  refine (run_googleIntraday (by decide) hbars hlast).trans ?_
  rw [if_pos hstorable]

theorem step_twoDays : stepA listed (.daily "A".toList twoDayRows) = withCloses :=
  stepA_daily accepted_twoDays (by simp) (by rfl)

theorem step_twoBars : stepA withCloses (.intraday "A".toList twoBarRows) = withBars :=
  stepA_intraday accepted_twoBars rfl (by rfl)

theorem run_withBars : Serial (fun fetch market => stepA market fetch) (Fetch.Orderly centJuly flatPrices) listed withBars := by
  rw [← step_twoBars, ← step_twoDays]
  refine .run (.run .init ⟨⟨by decide, ?_, ?_⟩, trivial⟩) ⟨⟨by decide, ?_⟩, ?_⟩
  · intro close hclose
    have hfed : fed centJuly "A".toList twoDayRows = [16617, 16618].map closeA := by rfl
    rw [hfed] at hclose
    obtain ⟨day, -, rfl⟩ := List.mem_map.1 hclose
    exact ⟨day, rfl⟩
  · intro closes hcloses
    rw [accepted_twoDays, Option.mem_some_iff] at hcloses
    subst hcloses
    refine ⟨by decide, ?_⟩
    intro close _ row hrow
    cases hrow
  · rw [step_twoDays]
    intro bars hbars last hlast
    rw [accepted_twoBars, Option.mem_some_iff] at hbars
    subst hbars
    obtain rfl : barA 1436209200000 = last := by simpa [twoBars] using hlast
    exact .inr ⟨by decide, by decide⟩
  · rw [step_twoDays]
    intro bars hbars
    rw [accepted_twoBars, Option.mem_some_iff] at hbars
    subst hbars
    decide

theorem listed_noPrices : listed.NoPrices := ⟨rfl, rfl, by decide⟩

theorem prices_in_order_july : (∀ stock, withBars.stockOf "A".toList = some stock → stock.valid withBars.stocks = true →
      ∀ date ∈ withBars.dates "A".toList, (date : WithBot Time) ≤ dateOrOld stock.date) ∧
    ((withBars.bars "A".toList).map (·.date)).Nodup :=
  prices_in_order listed_noPrices run_withBars "A".toList

end MyStockIQ.Scraper
