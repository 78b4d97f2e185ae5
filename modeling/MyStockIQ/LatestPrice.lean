import MyStockIQ.DailyPrices
import MyStockIQ.Scan.RunningMax
import Mathlib.Data.Int.ConditionallyCompleteOrder
import Mathlib.Data.List.Nodup
/-!
# The latest price of a stock (`Scraper#update_stock`)

`update_stock` scans the prices of a ticker symbol, in whatever order the
database lists them, for the latest that is not before the date of the stock. It
is a running maximum over the dates, bounded by the stock's (`latestClose_eq`).
What it finds is saved with `update`, which saves nothing for a stock that does
not pass its validations: one that was inserted without a name, say.
-/

namespace MyStockIQ.Scraper

variable {R : Type}

/-- `date || "0000-01-01"`: a date that is `nil` is before every other. -/
def dateOrOld : Option Time → WithBot Time
  | none => ⊥
  | some date => date

/-- `Stock.find_by(ticker_symbol: ..)` -/
def Market.stockOf (market : Market R) (ticker_symbol : Str) : Option (StockRow R) :=
  market.stocks.find? (·.ticker_symbol = ticker_symbol)

/-- The row of the latest date. -/
structure Newest (prices : List (Time × R)) (newest : Time × R) : Prop where
  mem : newest ∈ prices
  latest : ∀ price ∈ prices, price.1 ≤ newest.1

/-- Rows of one date have one price. -/
def OnePrice (prices : List (Time × R)) : Prop := ∀ a ∈ prices, ∀ b ∈ prices, a.1 = b.1 → a = b

/-! ## The scan -/

theorem latestClose_eq (price_list : List (Time × R)) (date : Option Time) :
    latestClose price_list date = Scan.runningMax Prod.fst (dateOrOld date) price_list := by
  unfold latestClose Scan.runningMax
  congr 1
  funext latest price
  have hreach : ((latest.map (·.1)).or date).all (· ≤ price.1) = true ↔
      Scan.threshold Prod.fst (dateOrOld date) latest ≤ (price.1 : WithBot Time) := by
    cases latest with
    | some best => simp [Scan.threshold]
    | none => cases date <;> simp [Scan.threshold, dateOrOld]
  unfold Scan.better
  by_cases h : Scan.threshold Prod.fst (dateOrOld date) latest ≤ (price.1 : WithBot Time)
  · rw [if_pos h]
    exact if_pos (hreach.2 h)
  · rw [if_neg h]
    exact if_neg (mt hreach.1 h)

section
variable {prices : List (Time × R)} {newest : Time × R} {date : Option Time}

/-- The newest row is found, if it is not before the date. -/
theorem latestClose_newest (hprices : OnePrice prices) (hnewest : Newest prices newest)
    (h : dateOrOld date ≤ newest.1) : latestClose prices date = some newest := by
  have hspec := Scan.runningMax_spec Prod.fst (dateOrOld date) prices
  rw [latestClose_eq]
  cases hfound : Scan.runningMax Prod.fst (dateOrOld date) prices with
  | none =>
    rw [hfound] at hspec
    exact absurd h (not_le.2 (hspec newest hnewest.mem))
  | some best =>
    rw [hfound] at hspec
    obtain ⟨hmem, -, hmax⟩ := hspec
    have hdate := le_antisymm (hnewest.latest best hmem) (hmax newest hnewest.mem)
    rw [hprices best hmem newest hnewest.mem hdate]

theorem latestClose_old (h : ∀ price ∈ prices, (price.1 : WithBot Time) < dateOrOld date) :
    latestClose prices date = none := by
  have hspec := Scan.runningMax_spec Prod.fst (dateOrOld date) prices
  rw [latestClose_eq]
  cases hfound : Scan.runningMax Prod.fst (dateOrOld date) prices with
  | none => rfl
  | some best =>
    rw [hfound] at hspec
    exact absurd hspec.2.1 (not_le.2 (h best hspec.1))

theorem latestClose_not_before {best : Time × R} (h : latestClose prices date = some best) :
    dateOrOld date ≤ best.1 := by
  have hspec := Scan.runningMax_spec Prod.fst (dateOrOld date) prices
  rw [← latestClose_eq, h] at hspec
  exact hspec.2.1

end

/-! ## The stock -/

section
variable {market : Market R} {ticker_symbol : Str} {stock : StockRow R} {prices : List (Time × R)}

/-- The stocks after one of them is saved with a new date and price. -/
def Market.saveStock (market : Market R) (stock : StockRow R) (latest : Time × R) : Market R :=
  { market with
    stocks := market.stocks.map fun row =>
      if row.id = stock.id then { row with date := some latest.1, daily_stock_price := some latest.2 } else row }

/-- What `update_stock` does for a stock there is: it saves what the scan finds, if
the stock is valid, and otherwise nothing. -/
theorem updateStock_eq (hfound : market.stockOf ticker_symbol = some stock) :
    updateStock ticker_symbol prices market = some (match latestClose prices stock.date with
      | some latest => if stock.valid market.stocks then market.saveStock stock latest else market
      | none => market) := by
  unfold updateStock
  unfold Market.stockOf at hfound
  rw [hfound]
  dsimp only
  cases latestClose prices stock.date with
  | none => rfl
  | some latest =>
    dsimp only
    split <;> rfl

theorem stockOf_saveStock (latest : Time × R) (other : Str) :
    (market.saveStock stock latest).stockOf other = (market.stockOf other).map fun row =>
      if row.id = stock.id then { row with date := some latest.1, daily_stock_price := some latest.2 } else row := by
  unfold Market.stockOf Market.saveStock
  rw [List.find?_map]
  congr 2
  funext row
  dsimp only [Function.comp_apply]
  split <;> rfl

/-- The date of each stock is no earlier than it was. -/
def DatesKept (before after : Market R) : Prop :=
  ∀ ticker_symbol stock, before.stockOf ticker_symbol = some stock → ∃ stock', after.stockOf ticker_symbol = some stock' ∧
    dateOrOld stock.date ≤ dateOrOld stock'.date

theorem DatesKept.refl (market : Market R) : DatesKept market market := fun _ stock h => ⟨stock, h, le_refl _⟩

theorem DatesKept.trans {before between after : Market R} (h : DatesKept before between) (h' : DatesKept between after) :
    DatesKept before after := by
  intro ticker_symbol stock hstock
  obtain ⟨stock', hstock', hle⟩ := h ticker_symbol stock hstock
  obtain ⟨stock'', hstock'', hle'⟩ := h' ticker_symbol stock' hstock'
  exact ⟨stock'', hstock'', hle.trans hle'⟩

theorem stockOf_mem {stock : StockRow R} (h : market.stockOf ticker_symbol = some stock) : stock ∈ market.stocks :=
  List.mem_of_find?_eq_some h

/-- One call, for whatever ticker symbol. -/
theorem DatesKept.updateStock (hids : (market.stocks.map (·.id)).Nodup) {market' : Market R}
    (h : updateStock ticker_symbol prices market = some market') :
    DatesKept market market' ∧ market'.stocks.map (·.id) = market.stocks.map (·.id) := by
  cases hfound : market.stockOf ticker_symbol with
  | none =>
    unfold Market.stockOf at hfound
    unfold Scraper.updateStock at h
    rw [hfound] at h
    cases h
  | some stock =>
    rw [updateStock_eq hfound] at h
    cases h
    cases hlatest : latestClose prices stock.date with
    | none => exact ⟨.refl market, rfl⟩
    | some latest =>
      dsimp only
      split
      · constructor
        · intro other row hrow
          refine ⟨_, (stockOf_saveStock latest other).trans (congrArg _ hrow), ?_⟩
          dsimp only
          split
          · next hid =>
            -- The ids are unique, so the row is that of the stock.
            have hsame := List.inj_on_of_nodup_map hids (stockOf_mem hrow) (stockOf_mem hfound) hid
            rw [hsame]
            exact latestClose_not_before hlatest
          · exact le_refl _
        · unfold Market.saveStock
          rw [List.map_map]
          apply List.map_congr_left
          intro row _
          dsimp only [Function.comp_apply]
          split <;> rfl
      · exact ⟨.refl market, rfl⟩

/-- The tables after `update_stock` was called for these ticker symbols, with the
prices each call found. A call that raises leaves them as they were. -/
def updateStocks (calls : List (Str × List (Time × R))) (market : Market R) : Market R :=
  calls.foldl (fun market call => (updateStock call.1 call.2 market).getD market) market

theorem DatesKept.updateStocks (hids : (market.stocks.map (·.id)).Nodup) (calls : List (Str × List (Time × R))) :
    DatesKept market (updateStocks calls market) := by
  induction calls generalizing market with
  | nil => exact .refl market
  | cons call calls ih =>
    show DatesKept market (Scraper.updateStocks calls ((Scraper.updateStock call.1 call.2 market).getD market))
    cases hcall : Scraper.updateStock call.1 call.2 market with
    | none => exact ih hids
    | some market' =>
      obtain ⟨hkept, hsame⟩ := DatesKept.updateStock hids hcall
      exact hkept.trans (ih (by rwa [hsame]))

/-- For a stock that passes its validations `update_stock` installs the newest price,
unless it is before the date the stock has; any other stock stays as it is. The order
of the prices does not matter, and over any calls no stock's date goes back. -/
theorem update_stock_installs (hids : (market.stocks.map (·.id)).Nodup)
    (hfound : market.stockOf ticker_symbol = some stock) (hprices : OnePrice prices) :
    (∃ market', updateStock ticker_symbol prices market = some market' ∧
      (∀ newest, Newest prices newest → stock.valid market.stocks = true → dateOrOld stock.date ≤ newest.1 →
        market'.stockOf ticker_symbol =
          some { stock with date := some newest.1, daily_stock_price := some newest.2 }) ∧
      ((∀ price ∈ prices, (price.1 : WithBot Time) < dateOrOld stock.date) → market' = market) ∧
      (stock.valid market.stocks = false → market' = market)) ∧
    (∀ prices', prices.Perm prices' →
      updateStock ticker_symbol prices' market = updateStock ticker_symbol prices market) ∧
    ∀ calls, DatesKept market (updateStocks calls market) := by
  refine ⟨⟨_, updateStock_eq hfound, ?_, ?_, ?_⟩, ?_, fun calls => .updateStocks hids calls⟩
  · intro newest hnewest hvalid hdate
    rw [latestClose_newest hprices hnewest hdate]
    simp only [hvalid, if_true, stockOf_saveStock, hfound, Option.map_some]
  · intro hold
    rw [latestClose_old hold]
  · intro hinvalid
    cases latestClose prices stock.date with
    | none => rfl
    | some latest => simp [hinvalid]
  · intro prices' hperm
    have hsame : latestClose prices' stock.date = latestClose prices stock.date := by
      rw [latestClose_eq, latestClose_eq]
      exact (Scan.runningMax_perm Prod.fst (dateOrOld stock.date) hperm hprices).symm
    rw [updateStock_eq hfound, updateStock_eq hfound, hsame]

end

/-! ## A stock without a name -/

def pricedStock : StockRow Int := ⟨1, "Agilent".toList, "A".toList, some (utcTime 1436209200000), some 100⟩

/-- A row that was inserted without the name of the stock. -/
def namelessStock : StockRow Int := ⟨2, [], "B".toList, none, none⟩

def someStocks : Market Int := ⟨[], [], [pricedStock, namelessStock], 1⟩

/-- The prices of the sixth and the seventh of July, the later one first. -/
def twoCloses : List (Time × Int) := [(utcTime 1436295600000, 102), (utcTime 1436209200000, 100)]

theorem newest_twoCloses : Newest twoCloses (utcTime 1436295600000, 102) := ⟨List.mem_cons_self, by decide⟩

theorem onePrice_twoCloses : OnePrice twoCloses := by
  unfold OnePrice
  decide

theorem update_stock_installs_twoCloses : ∃ market', updateStock "A".toList twoCloses someStocks = some market' ∧
    market'.stockOf "A".toList =
      some { pricedStock with date := some (utcTime 1436295600000), daily_stock_price := some 102 } := by
  have hids : (someStocks.stocks.map (·.id)).Nodup := by decide
  have hfound : someStocks.stockOf "A".toList = some pricedStock := by rfl
  obtain ⟨⟨market', hrun, hnew, -⟩, -⟩ := update_stock_installs hids hfound onePrice_twoCloses
  refine ⟨market', hrun, hnew _ newest_twoCloses (by decide) ?_⟩
  exact WithBot.coe_le_coe.2 (by decide)

/-- `update` refuses the stock without a name, and it keeps its missing date. -/
theorem nameless_stock_stays : ¬∀ (market : Market Int) (ticker_symbol : Str) (stock : StockRow Int)
    (prices : List (Time × Int)), (market.stocks.map (·.id)).Nodup → market.stockOf ticker_symbol = some stock →
      OnePrice prices → ∀ market' newest, updateStock ticker_symbol prices market = some market' →
        Newest prices newest → dateOrOld stock.date ≤ newest.1 → market'.stockOf ticker_symbol =
          some { stock with date := some newest.1, daily_stock_price := some newest.2 } := by
  intro h
  have hnew := h someStocks "B".toList namelessStock twoCloses (by decide) (by rfl) onePrice_twoCloses someStocks _
    (by rfl) newest_twoCloses bot_le
  have hdate := congrArg (Option.map (·.date)) hnew
  exact absurd hdate (by decide)

end MyStockIQ.Scraper
