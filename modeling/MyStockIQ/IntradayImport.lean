import MyStockIQ.LatestPrice
import MyStockIQ.OneDaily
/-!
# An intraday import that fails half-way (`ScraperPublic.google_intraday`)

The rows are inserted, then the stock is updated, then the daily table. There is
no transaction, and each of the two later steps raises where a row it takes for
granted is missing: the stock, or one of the two newest daily prices. The rows
stay, and the next run takes them for duplicates. So an import is all or nothing
just when nothing is missing that comes after its insertion
(`import_all_or_nothing_iff`).
-/

open Sql

namespace MyStockIQ.Scraper

variable {R : Type}

/-- How a run ended: by an exception or not, and with which tables. -/
structure Ended (R : Type) where
  raised : Bool
  market : Market R

/-- What `update_stock` reads of the intraday prices. -/
def Market.barPrices (market : Market R) (ticker_symbol : Str) : List (Time × R) :=
  (market.intradayprices.filter (·.ticker_symbol = ticker_symbol)).map fun row => (row.date, row.close_price)

section
variable (ruby : Ruby R) (now : Nat → Time) (order : DateDesc R) (misread : Str → Market R → Option (Market R))

/-- `update_stock`, then `update_daily`. -/
def recordingEnds (ticker_symbol : Str) (last : IntradayHash R) (market : Market R) : Ended R :=
  match updateStock ticker_symbol (market.barPrices ticker_symbol) market with
  | none => ⟨true, market⟩
  | some market =>
    match updateDaily ruby order ticker_symbol last market with
    | none => ⟨true, market⟩
    | some market => ⟨false, market⟩

/-- `google_intraday`, with its exceptions. -/
def ScraperPublic.googleIntradayEnds (ticker_symbol : Str) (rows : List Row) (market : Market R) : Ended R :=
  match processTimedCsvFile GoogleIntraday.startTimeRow (GoogleIntraday.dataHash ruby 5 ticker_symbol)
      (GoogleIntraday.checkForDup market.barExists) rows with
  | none => ⟨true, market⟩
  | some daily_hash_array =>
    match saveToDb (GoogleIntraday.singleRowInsert ruby now) GoogleIntraday.allDataInsert daily_hash_array,
        daily_hash_array.getLast? with
    | some sql, some last =>
      match saved misread sql (GoogleIntraday.statement ruby now daily_hash_array)
          (daily_hash_array.all GoogleIntraday.storable) (market.insertIntraday daily_hash_array) market with
      | none => ⟨true, market⟩
      | some market => recordingEnds ruby order ticker_symbol last market
    | _, _ => ⟨false, market⟩

theorem recordingEnds_market (ticker_symbol : Str) (last : IntradayHash R) (market : Market R) :
    (recordingEnds ruby order ticker_symbol last market).market = recorded ruby order ticker_symbol last market := by
  unfold recordingEnds recorded Market.barPrices
  cases updateStock ticker_symbol _ market with
  | none => rfl
  | some updated =>
    dsimp only
    cases Scraper.updateDaily ruby order ticker_symbol last updated <;> rfl

/-- The tables are those of `google_intraday`. -/
theorem googleIntradayEnds_market (ticker_symbol : Str) (rows : List Row) (market : Market R) :
    (ScraperPublic.googleIntradayEnds ruby now order misread ticker_symbol rows market).market =
      ScraperPublic.googleIntraday ruby now order misread ticker_symbol rows market := by
  unfold ScraperPublic.googleIntradayEnds ScraperPublic.googleIntraday
  cases processTimedCsvFile GoogleIntraday.startTimeRow (GoogleIntraday.dataHash ruby 5 ticker_symbol)
      (GoogleIntraday.checkForDup market.barExists) rows with
  | none => rfl
  | some bars =>
    dsimp only
    cases saveToDb (GoogleIntraday.singleRowInsert ruby now) GoogleIntraday.allDataInsert bars with
    | none => rfl
    | some sql =>
      cases bars.getLast? with
      | none => rfl
      | some last =>
        dsimp only
        cases saved misread sql (GoogleIntraday.statement ruby now bars) (bars.all GoogleIntraday.storable)
            (market.insertIntraday bars) market with
        | none => rfl
        | some left => exact recordingEnds_market ruby order ticker_symbol last left

end

/-! ## All or nothing -/

structure Unchanged (before after : Market R) : Prop where
  intradayprices : after.intradayprices = before.intradayprices
  stocks : after.stocks = before.stocks
  stockprices : after.stockprices = before.stockprices

/-- The stock has the date and the price of the newest row, or a later date than all rows. -/
def HasLatest (prices : List (Time × R)) (stock : StockRow R) : Prop :=
  (∃ newest, Newest prices newest ∧ stock.date = some newest.1 ∧ stock.daily_stock_price = some newest.2) ∨
    ∀ price ∈ prices, (price.1 : WithBot Time) < dateOrOld stock.date

/-- A daily row has the price, or one is no older than it. -/
def BroughtTo (ticker_symbol : Str) (last : IntradayHash R) (market : Market R) : Prop :=
  ∃ row ∈ market.daily ticker_symbol,
    (row.date = last.date ∧ row.graph_time = last.graph_time ∧ row.close_price = last.close_price) ∨
      last.graph_time ≤ row.graph_time

structure Imported (ticker_symbol : Str) (bars : List (IntradayHash R)) (before after : Market R) : Prop where
  saved : after.intradayprices = before.intradayprices ++ bars
  stock : ∃ stock, after.stockOf ticker_symbol = some stock ∧ HasLatest (after.barPrices ticker_symbol) stock
  daily : ∀ last ∈ bars.getLast?, BroughtTo ticker_symbol last after

/-- The run completes with everything done, or raises with nothing done. -/
structure Ended.AllOrNothing (ticker_symbol : Str) (bars : Option (List (IntradayHash R))) (before : Market R)
    (ended : Ended R) : Prop where
  nothing : ended.raised = true → Unchanged before ended.market
  all : ended.raised = false → ∃ accepted ∈ bars, Imported ticker_symbol accepted before ended.market

theorem allOrNothing_raised (ticker_symbol : Str) (bars : Option (List (IntradayHash R))) (before market : Market R) :
    Ended.AllOrNothing ticker_symbol bars before ⟨true, market⟩ ↔ Unchanged before market :=
  ⟨fun h => h.nothing rfl, fun h => ⟨fun _ => h, nofun⟩⟩

theorem allOrNothing_completed (ticker_symbol : Str) (bars : List (IntradayHash R)) (before market : Market R) :
    Ended.AllOrNothing ticker_symbol (some bars) before ⟨false, market⟩ ↔ Imported ticker_symbol bars before market := by
  constructor
  · intro h
    obtain ⟨accepted, haccepted, himported⟩ := h.all rfl
    rw [Option.mem_some_iff] at haccepted
    subst haccepted
    exact himported
  · intro h
    exact ⟨nofun, fun _ => ⟨bars, rfl, h⟩⟩

/-- The stock is there, and can be saved or need not be. -/
def StockReady (ticker_symbol : Str) (market : Market R) (prices : List (Time × R)) : Prop :=
  ∃ stock, market.stockOf ticker_symbol = some stock ∧ (stock.valid market.stocks = true ∨ HasLatest prices stock)

/-- What is left by an insertion that was misread does no harm. Where the run goes on to
its end, the rows are there and the stock is ready; where it does not, all is as it was. -/
def DoesNoHarm (ticker_symbol : Str) (bars : List (IntradayHash R)) (before left : Market R) : Prop :=
  match updateStock ticker_symbol (left.barPrices ticker_symbol) left with
  | none => Unchanged before left
  | some updated =>
    if 2 ≤ (left.daily ticker_symbol).length then
      left.intradayprices = before.intradayprices ++ bars ∧ StockReady ticker_symbol left (left.barPrices ticker_symbol)
    else Unchanged before updated

section
variable (ruby : Ruby R) (now : Nat → Time) (order : DateDesc R) (misread : Str → Market R → Option (Market R))
  {market market' : Market R} {ticker_symbol : Str} {bars : List (IntradayHash R)} {last : IntradayHash R}

theorem stockOf_isSome_of_update {prices : List (Time × R)} (h : updateStock ticker_symbol prices market = some market') :
    ∃ stock, market.stockOf ticker_symbol = some stock := by
  unfold updateStock at h
  unfold Market.stockOf
  cases hfound : market.stocks.find? (·.ticker_symbol = ticker_symbol) with
  | none =>
    rw [hfound] at h
    cases h
  | some stock => exact ⟨stock, rfl⟩

theorem updateStock_bars {prices : List (Time × R)} (h : updateStock ticker_symbol prices market = some market') :
    market'.intradayprices = market.intradayprices := by
  obtain ⟨stock, hstock⟩ := stockOf_isSome_of_update h
  rw [updateStock_eq hstock] at h
  cases hlatest : latestClose prices stock.date with
  | none =>
    rw [hlatest] at h
    cases h
    rfl
  | some latest =>
    rw [hlatest] at h
    dsimp only at h
    split at h <;> cases h <;> rfl

/-- The stock ends with the latest price if it was ready. -/
theorem updateStock_latest {prices : List (Time × R)} (h : updateStock ticker_symbol prices market = some market') :
    (∃ stock, market'.stockOf ticker_symbol = some stock ∧ HasLatest prices stock) ↔
      StockReady ticker_symbol market prices := by
  obtain ⟨stock, hstock⟩ := stockOf_isSome_of_update h
  have hspec := Scan.runningMax_spec Prod.fst (dateOrOld stock.date) prices
  rw [← latestClose_eq] at hspec
  have hready : StockReady ticker_symbol market prices ↔ stock.valid market.stocks = true ∨ HasLatest prices stock := by
    unfold StockReady
    rw [hstock]
    simp
  rw [updateStock_eq hstock] at h
  rw [hready]
  cases hlatest : latestClose prices stock.date with
  | none =>
    rw [hlatest] at h hspec
    cases h
    constructor
    · rintro ⟨stock', hstock', hhas⟩
      obtain rfl : stock = stock' := Option.some.inj (hstock.symm.trans hstock')
      exact .inr hhas
    · intro _
      exact ⟨stock, hstock, .inr hspec⟩
  | some latest =>
    rw [hlatest] at h hspec
    dsimp only at h
    by_cases hvalid : stock.valid market.stocks = true
    · rw [if_pos hvalid] at h
      cases h
      have hsaved : (market.saveStock stock latest).stockOf ticker_symbol =
          some { stock with date := some latest.1, daily_stock_price := some latest.2 } := by
        rw [stockOf_saveStock, hstock, Option.map_some, if_pos rfl]
      exact iff_of_true ⟨_, hsaved, .inl ⟨latest, ⟨hspec.1, hspec.2.2⟩, rfl, rfl⟩⟩ (.inl hvalid)
    · rw [if_neg hvalid] at h
      cases h
      constructor
      · rintro ⟨stock', hstock', hhas⟩
        obtain rfl : stock = stock' := Option.some.inj (hstock.symm.trans hstock')
        exact .inr hhas
      · intro hor
        exact ⟨stock, hstock, hor.resolve_left hvalid⟩

theorem updateDaily_isSome : (∃ after, updateDaily ruby order ticker_symbol last market = some after) ↔
    2 ≤ (market.daily ticker_symbol).length := by
  have hlength := (order.perm (market.daily ticker_symbol)).length_eq
  unfold updateDaily
  rw [← hlength]
  split
  · next newest second rest hreorder =>
    refine iff_of_true ?_ ?_
    · dsimp only
      split
      · exact ⟨_, rfl⟩
      · split
        · exact ⟨_, rfl⟩
        · exact ⟨_, rfl⟩
    · rw [hreorder]
      exact Nat.le_add_left 2 rest.length
  · next hshort =>
    refine iff_of_false (by simp) ?_
    intro htwo
    cases hreorder : order.reorder (market.daily ticker_symbol) with
    | nil => simp [hreorder] at htwo
    | cons newest tail =>
      cases tail with
      | nil => simp [hreorder] at htwo
      | cons second rest => exact hshort newest second rest hreorder

/-- It leaves the other tables alone, and brings the daily one to the price. -/
theorem updateDaily_brings (h : updateDaily ruby order ticker_symbol last market = some market') :
    market'.intradayprices = market.intradayprices ∧ market'.stocks = market.stocks ∧
      BroughtTo ticker_symbol last market' := by
  unfold updateDaily at h
  split at h
  · next newest second rest hreorder =>
    have hnewest : newest ∈ market.daily ticker_symbol := by
      apply (mem_reorder order).1
      rw [hreorder]
      exact List.mem_cons_self
    dsimp only at h
    split at h
    · cases h
      refine ⟨rfl, rfl, ?_⟩
      refine ⟨_, mem_daily.2 ⟨List.mem_append_right _ (List.mem_singleton_self _), ?_⟩, .inl ⟨rfl, rfl, rfl⟩⟩
      rfl
    · split at h
      · cases h
        refine ⟨rfl, rfl, ?_⟩
        obtain ⟨hmem, hsymbol⟩ := mem_daily.1 hnewest
        refine ⟨_, mem_daily.2 ⟨List.mem_map_of_mem hmem, ?_⟩, .inl ?_⟩
        · rw [if_pos rfl]
          exact hsymbol
        · rw [if_pos rfl]
          exact ⟨rfl, rfl, rfl⟩
      · next hlater =>
        cases h
        exact ⟨rfl, rfl, newest, hnewest, .inr (not_lt.1 hlater)⟩
  · cases h

/-- What follows the insertion. -/
theorem recordingEnds_iff (hlast : last ∈ bars.getLast?) (left : Market R) :
    (recordingEnds ruby order ticker_symbol last left).AllOrNothing ticker_symbol (some bars) market ↔
      DoesNoHarm ticker_symbol bars market left := by
  unfold recordingEnds DoesNoHarm
  cases hstock : updateStock ticker_symbol (left.barPrices ticker_symbol) left with
  | none => exact allOrNothing_raised ticker_symbol (some bars) market left
  | some updated =>
    obtain ⟨hprices, -⟩ := updateStock_prices hstock
    have hbars := updateStock_bars hstock
    have hdaily : updated.daily ticker_symbol = left.daily ticker_symbol := by
      unfold Market.daily
      rw [hprices]
    dsimp only
    by_cases htwo : 2 ≤ (left.daily ticker_symbol).length
    · obtain ⟨after, hafter⟩ : ∃ after, updateDaily ruby order ticker_symbol last updated = some after :=
        (updateDaily_isSome ruby order).2 (hdaily ▸ htwo)
      obtain ⟨hbars', hstocks, hbrought⟩ := updateDaily_brings ruby order hafter
      have hsame : after.barPrices ticker_symbol = left.barPrices ticker_symbol := by
        unfold Market.barPrices
        rw [hbars', hbars]
      have hstockOf : after.stockOf ticker_symbol = updated.stockOf ticker_symbol := by
        unfold Market.stockOf
        rw [hstocks]
      rw [hafter, if_pos htwo, ← updateStock_latest hstock]
      dsimp only
      rw [allOrNothing_completed]
      constructor
      · rintro ⟨hsaved, hlatest, -⟩
        rw [hsame, hstockOf] at hlatest
        exact ⟨hbars ▸ hbars' ▸ hsaved, hlatest⟩
      · rintro ⟨hsaved, hlatest⟩
        refine ⟨(hbars'.trans hbars).trans hsaved, ?_, ?_⟩
        · rw [hsame, hstockOf]
          exact hlatest
        · intro last' hlast'
          rwa [Option.mem_unique hlast' hlast]
    · have hraises : updateDaily ruby order ticker_symbol last updated = none := by
        rw [← Option.not_isSome_iff_eq_none, Option.isSome_iff_exists, updateDaily_isSome, hdaily]
        exact htwo
      rw [hraises, if_neg htwo]
      exact allOrNothing_raised ticker_symbol (some bars) market updated

/-- Where the rows were inserted, all else has to be ready. -/
theorem doesNoHarm_inserted (hne : bars ≠ []) : DoesNoHarm ticker_symbol bars market (market.insertIntraday bars) ↔
    StockReady ticker_symbol market ((market.insertIntraday bars).barPrices ticker_symbol) ∧
      2 ≤ (market.daily ticker_symbol).length := by
  have hmore : market.intradayprices ++ bars ≠ market.intradayprices := by
    intro heq
    exact hne (List.append_right_eq_self.1 heq)
  unfold DoesNoHarm
  cases hstock : updateStock ticker_symbol ((market.insertIntraday bars).barPrices ticker_symbol)
      (market.insertIntraday bars) with
  | none =>
    refine iff_of_false (fun hsame => hmore hsame.intradayprices) ?_
    rintro ⟨⟨stock, hfound, -⟩, -⟩
    have hfound' : (market.insertIntraday bars).stockOf ticker_symbol = some stock := hfound
    rw [updateStock_eq hfound'] at hstock
    cases hstock
  | some updated =>
    dsimp only
    split
    · next htwo =>
      constructor
      · rintro ⟨-, hready⟩
        exact ⟨hready, htwo⟩
      · rintro ⟨hready, -⟩
        exact ⟨rfl, hready⟩
    · next hshort =>
      refine iff_of_false ?_ fun hboth => hshort hboth.2
      intro hsame
      exact hmore ((updateStock_bars hstock).symm.trans hsame.intradayprices)

/-- Rows make a statement. -/
theorem exists_saveToDb (hne : bars ≠ []) :
    ∃ sql, saveToDb (GoogleIntraday.singleRowInsert ruby now) GoogleIntraday.allDataInsert bars = some sql := by
  rw [← Option.isSome_iff_exists, Option.isSome_iff_ne_none]
  intro hnone
  exact hne (saveToDb_none.1 hnone)

/-- The statement for the bars of a stock reads as it should, unless its ticker has a quote. -/
theorem reads_iff_no_quote {bars : List (IntradayHash R)} {sql : Str} (hne : bars ≠ [])
    (htickers : ∀ bar ∈ bars, bar.ticker_symbol = ticker_symbol)
    (hsql : saveToDb (GoogleIntraday.singleRowInsert ruby now) GoogleIntraday.allDataInsert bars = some sql) :
    lex sql = some (GoogleIntraday.statement ruby now bars) ↔ '\'' ∉ ticker_symbol := by
  obtain ⟨last, hlast⟩ : ∃ last, bars.getLast? = some last := ⟨_, List.getLast?_eq_some_getLast hne⟩
  rw [saveToDb_some hsql, GoogleIntraday.reads_iff ruby now bars]
  constructor
  · intro hall
    have hin := List.mem_of_getLast? hlast
    rw [← htickers last hin]
    exact hall last hin
  · intro hquote bar hbar
    rw [htickers bar hbar]
    exact hquote

/-- What an import with new prices needs to be all or nothing, in a database that makes
this of a text that reads otherwise. -/
theorem allOrNothing_of_misread {rows : List Row} (hnew : acceptedBars ruby market ticker_symbol rows ≠ some []) :
    (ScraperPublic.googleIntradayEnds ruby now order misread ticker_symbol rows market).AllOrNothing ticker_symbol
        (acceptedBars ruby market ticker_symbol rows) market ↔
      ∀ bars ∈ acceptedBars ruby market ticker_symbol rows,
        if '\'' ∈ ticker_symbol then
          ∀ sql ∈ saveToDb (GoogleIntraday.singleRowInsert ruby now) GoogleIntraday.allDataInsert bars,
            ∀ left ∈ misread sql market, DoesNoHarm ticker_symbol bars market left
        else bars.all GoogleIntraday.storable = true →
          StockReady ticker_symbol market ((market.insertIntraday bars).barPrices ticker_symbol) ∧
            2 ≤ (market.daily ticker_symbol).length := by
  have hunchanged (bars : Option (List (IntradayHash R))) : Ended.AllOrNothing ticker_symbol bars market ⟨true, market⟩ :=
    (allOrNothing_raised ticker_symbol bars market market).2 ⟨rfl, rfl, rfl⟩
  unfold ScraperPublic.googleIntradayEnds
  cases hbars : acceptedBars ruby market ticker_symbol rows with
  | none =>
    rw [acceptedBars] at hbars
    rw [hbars]
    exact iff_of_true (hunchanged _) fun bars h => absurd h (Option.not_mem_none bars)
  | some bars =>
    have hne : bars ≠ [] := by
      rintro rfl
      exact hnew hbars
    have htickers : ∀ bar ∈ bars, bar.ticker_symbol = ticker_symbol := fun bar hbar => (mem_bars ruby hbars hbar).1
    obtain ⟨last, hlast⟩ : ∃ last, bars.getLast? = some last := ⟨_, List.getLast?_eq_some_getLast hne⟩
    obtain ⟨sql, hsql⟩ := exists_saveToDb ruby now hne
    have hreads := reads_iff_no_quote ruby now hne htickers hsql
    rw [acceptedBars] at hbars
    rw [hbars]
    dsimp only
    rw [hsql, hlast]
    dsimp only
    simp only [Option.mem_def, Option.some.injEq, forall_eq']
    by_cases hquote : '\'' ∈ ticker_symbol
    · rw [saved, if_neg (mt hreads.1 (not_not.2 hquote)), if_pos hquote]
      cases hleft : misread sql market with
      | none =>
        refine iff_of_true (hunchanged _) ?_
        simp only [hsql, Option.some.injEq, forall_eq', hleft, reduceCtorEq, false_implies, implies_true]
      | some left =>
        simp only [hsql, Option.some.injEq, forall_eq', hleft]
        exact recordingEnds_iff ruby order hlast left
    · rw [saved, if_pos (hreads.2 hquote), if_neg hquote]
      by_cases hstorable : bars.all GoogleIntraday.storable = true
      · rw [if_pos hstorable]
        dsimp only
        rw [recordingEnds_iff ruby order hlast, doesNoHarm_inserted hne]
        exact ⟨fun h _ => h, fun h => h hstorable⟩
      · rw [if_neg hstorable]
        exact iff_of_true (hunchanged _) fun h => absurd h hstorable

/-- Rows that come along while the stocks are lost do harm. -/
theorem doesHarm (hne : bars ≠ []) : ¬DoesNoHarm ticker_symbol bars market
    { market with stocks := [], intradayprices := market.intradayprices ++ bars } := by
  intro h
  have hnone (prices : List (Time × R)) : updateStock ticker_symbol prices
      { market with stocks := [], intradayprices := market.intradayprices ++ bars } = none := rfl
  unfold DoesNoHarm at h
  rw [hnone] at h
  exact hne (List.append_right_eq_self.1 h.intradayprices)

/-- An import with new prices is all or nothing, whatever the database makes of a text that
does not read as the insertion, just when a row of the feed raises, or the ticker symbol has
no quote and, unless the database refuses the rows, nothing is missing that is needed after
them: the stock is there, and valid if it has to be saved, and the ticker symbol has two
daily rows. The tables it leaves are those of `google_intraday`. -/
theorem import_all_or_nothing_iff {rows : List Row} (hnew : acceptedBars ruby market ticker_symbol rows ≠ some []) :
    ((∀ misread, (ScraperPublic.googleIntradayEnds ruby now order misread ticker_symbol rows market).AllOrNothing
        ticker_symbol (acceptedBars ruby market ticker_symbol rows) market) ↔
      ∀ bars ∈ acceptedBars ruby market ticker_symbol rows, '\'' ∉ ticker_symbol ∧
        (bars.all GoogleIntraday.storable = true →
          StockReady ticker_symbol market ((market.insertIntraday bars).barPrices ticker_symbol) ∧
            2 ≤ (market.daily ticker_symbol).length)) ∧
    ∀ misread, (ScraperPublic.googleIntradayEnds ruby now order misread ticker_symbol rows market).market =
      ScraperPublic.googleIntraday ruby now order misread ticker_symbol rows market := by
  refine ⟨?_, fun misread => googleIntradayEnds_market ruby now order misread ticker_symbol rows market⟩
  constructor
  · intro h bars hbars
    have hne : bars ≠ [] := by
      rintro rfl
      exact hnew hbars
    by_cases hquote : '\'' ∈ ticker_symbol
    · obtain ⟨sql, hsql⟩ := exists_saveToDb ruby now hne
      have hharm := (allOrNothing_of_misread ruby now order
        (fun _ _ => some { market with stocks := [], intradayprices := market.intradayprices ++ bars }) hnew).1 (h _) bars hbars
      rw [if_pos hquote] at hharm
      exact absurd (hharm sql hsql _ rfl) (doesHarm hne)
    · have hready := (allOrNothing_of_misread ruby now order (fun _ _ => none) hnew).1 (h _) bars hbars
      rw [if_neg hquote] at hready
      exact ⟨hquote, hready⟩
  · intro h misread
    rw [allOrNothing_of_misread ruby now order misread hnew]
    intro bars hbars
    obtain ⟨hquote, hready⟩ := h bars hbars
    rw [if_neg hquote]
    exact hready

end

/-! ## A stock without daily prices -/

/-- The bar of Monday the sixth, with the closes of the first and the second of July there. -/
theorem import_all_or_nothing_monday : (ScraperPublic.googleIntradayEnds julyRuby (fun _ => 0) sortedByDate (fun _ _ => none)
    "A".toList mondayBar afterFirst).AllOrNothing "A".toList (acceptedBars julyRuby afterFirst "A".toList mondayBar)
    afterFirst := by
  have hbars : acceptedBars julyRuby afterFirst "A".toList mondayBar = some [barAt 1436209200000] := by rfl
  refine (import_all_or_nothing_iff julyRuby (fun _ => 0) sortedByDate (by rw [hbars]; simp)).1.2 ?_ fun _ _ => none
  have hvalid : (afterFirst.stockOf "A".toList).any (fun stock => stock.valid afterFirst.stocks) = true := by decide
  obtain ⟨stock, hstock, hready⟩ := (Option.any_eq_true _ _).1 hvalid
  intro bars _
  refine ⟨by decide, ?_⟩
  intro _
  exact ⟨⟨stock, hstock, .inl hready⟩, by decide⟩

/-- The same bar, with no daily price: it is saved, and then the run raises. -/
theorem no_daily_price : ¬∀ (ruby : Ruby Int) (now : Nat → Time) (order : DateDesc Int)
    (misread : Str → Market Int → Option (Market Int)) (market : Market Int) (ticker_symbol : Str) (rows : List Row),
    acceptedBars ruby market ticker_symbol rows ≠ some [] →
      (ScraperPublic.googleIntradayEnds ruby now order misread ticker_symbol rows market).AllOrNothing ticker_symbol
        (acceptedBars ruby market ticker_symbol rows) market := by
  intro h
  have hbars : acceptedBars julyRuby oneStock "A".toList mondayBar = some [barAt 1436209200000] := by rfl
  have hnew : acceptedBars julyRuby oneStock "A".toList mondayBar ≠ some [] := by
    rw [hbars]
    simp
  have hends := (import_all_or_nothing_iff julyRuby (fun _ => 0) sortedByDate hnew).1.1
    fun misread => h julyRuby (fun _ => 0) sortedByDate misread oneStock "A".toList mondayBar hnew
  simp only [hbars, Option.mem_def, Option.some.injEq, forall_eq'] at hends
  exact absurd (hends.2 (by rfl)).2 (by decide)

end MyStockIQ.Scraper
