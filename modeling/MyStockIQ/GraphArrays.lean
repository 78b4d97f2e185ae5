import MyStockIQ.DailyChange
import MyStockIQ.Graph
import MyStockIQ.LeftEdge
import MyStockIQ.PriceDates
/-!
# The axis of a chart

The browser draws the prices and the future dates as two lines over one axis, and looks up
times in both. What the server sends for a stock fits: each line goes up, the prices are
those of the window, each once, the future dates are the next ones of the calendar, and
the first of them comes after the last price (`stock_axis`).
-/

namespace MyStockIQ

open Scraper GoogleDaily Sql Scan SharedStore

/-! ## What a line shows -/

/-- The points of the rows, each once, with times that go up. -/
structure Shows {R : Type} (rows : List R) (point : R → Chart.Point Int) (points : List (Chart.Point Int)) : Prop where
  increasing : Chart.Increasing points
  rows : points.Perm (rows.map point)

/-- The tables have the prices and the stocks of the market. -/
structure GraphTables.Of (tables : GraphTables) (market : Market ℚ) : Prop where
  stocks : tables.stocks = market.stocks
  stockprices : tables.stockprices = market.stockprices
  intradayprices : tables.intradayprices.map (·.2) = market.intradayprices

section
variable {official : Str → Int → ℚ × ℚ × Int} {market : Market ℚ} {tables : GraphTables} (orders : GraphOrders)
  (self : Graph) (start_point : Time)

end

/-! ## The next dates -/

section
variable {tables : GraphTables} {orders : GraphOrders} {since start : Int}

end

/-! ## The page of a stock -/

/-- What a page of a stock that could be shown was sent. -/
structure Sent (tables : GraphTables) (orders : GraphOrders) (graph : Graph) (start_point : Time) (data : Chart.Data) :
    Prop where
  daily_prices : data.arrays .daily_prices =
    (orders.daily.reorder (graph.dailyRows tables start_point)).reverse.map Graph.dailyPoint
  intraday_prices : data.arrays .intraday_prices =
    (orders.intraday.reorder (graph.intradayRows tables start_point)).reverse.map Graph.intradayPoint
  future_days : data.arrays .future_days = ((orders.days.reorder
    (tables.futuredays.filter (graphTime start_point < ·.graph_time))).take 750).map (Graph.futurePoint ·.graph_time)
  future_times : data.arrays .future_times = ((orders.times.reorder
    (tables.futuretimes.filter (graphTime start_point < ·.graph_time))).take 234).map (Graph.futurePoint ·.graph_time)

section
variable {tables : GraphTables} {orders : GraphOrders} {self : Graph} {start_point : Time} {data : Chart.Data}

theorem sent_of_arrays {daily_prices intraday_prices future_days future_times : List (Chart.Point Int)}
    (hstart : self.start_point = some start_point) (hdaily : self.dailyPrices tables orders = .ok daily_prices)
    (hintraday : self.intradayPrices tables orders = .ok intraday_prices)
    (hdays : self.futureDays tables orders = .ok future_days) (htimes : self.futureTimes tables orders = .ok future_times)
    (harrays : data.arrays = seriesOf daily_prices intraday_prices future_days future_times) :
    Sent tables orders self start_point data := by
  unfold Graph.dailyPrices at hdaily
  unfold Graph.intradayPrices at hintraday
  unfold Graph.futureDays at hdays
  unfold Graph.futureTimes at htimes
  rw [hstart] at hdaily hintraday hdays htimes
  cases hdaily
  cases hintraday
  cases hdays
  cases htimes
  constructor <;> rw [harrays] <;> rfl

theorem show_eq_ok {current_user : Option Nat} {ticker_symbol : Str}
    (hshow : StockpricesController.show tables orders current_user ticker_symbol = .ok data) :
    ∃ stock start_point, tables.stocks.find? (·.ticker_symbol = ticker_symbol) = some stock ∧
      stock.date = some start_point ∧
      Sent tables orders ⟨ticker_symbol, current_user, some stock, none, some start_point⟩ start_point data ∧
      Graph.predictions ⟨ticker_symbol, current_user, some stock, none, some start_point⟩ tables orders = .ok data.predictions ∧
      Graph.myPrediction ⟨ticker_symbol, current_user, some stock, none, some start_point⟩ tables = .ok data.my_prediction := by
  obtain ⟨stock, hstock, h⟩ := bind_eq_ok hshow
  have hfound := orRaise_eq_ok hstock
  obtain rfl : stock.ticker_symbol = ticker_symbol := by simpa using List.find?_some hfound
  obtain ⟨graph, hgraph, h⟩ :=
    @bind_eq_ok _ _ _ (Graph.new tables stock.ticker_symbol current_user none .stocks) _ _ h
  unfold Graph.new at hgraph
  rw [hfound] at hgraph
  cases hgraph
  obtain ⟨daily_prices, hdaily, h⟩ := bind_eq_ok h
  obtain ⟨intraday_prices, hintraday, h⟩ := bind_eq_ok h
  obtain ⟨predictions, hpredictions, h⟩ := bind_eq_ok h
  obtain ⟨my_prediction, hmine, h⟩ := bind_eq_ok h
  obtain ⟨future_days, hdays, h⟩ := bind_eq_ok h
  obtain ⟨future_times, htimes, h⟩ := bind_eq_ok h
  cases h
  obtain ⟨start_point, hdate⟩ : ∃ start_point, stock.date = some start_point := by
    obtain ⟨start_point, hstart, -⟩ := bind_eq_ok hdaily
    exact ⟨start_point, orRaise_eq_ok hstart⟩
  rw [hdate] at hdaily hintraday hpredictions hmine hdays htimes
  exact ⟨stock, start_point, hfound, hdate, sent_of_arrays rfl hdaily hintraday hdays htimes rfl, hpredictions, hmine⟩

theorem mapM_ok {α β : Type} {f : α → Except Error β} {values : List α} (h : ∀ a ∈ values, ∃ b, f a = .ok b) :
    ∃ results, values.mapM f = .ok results := by
  induction values with
  | nil => exact ⟨[], rfl⟩
  | cons a values ih =>
    obtain ⟨b, hb⟩ := h a List.mem_cons_self
    obtain ⟨results, hresults⟩ := ih fun a' ha' => h a' (List.mem_cons_of_mem _ ha')
    refine ⟨b :: results, ?_⟩
    rw [List.mapM_cons, hb, hresults]
    rfl

/-- A prediction that has started can be drawn. -/
theorem endPoint_ok {prediction : Prediction} (h : prediction.start_price ≠ none) :
    ∃ point, Graph.endPoint prediction = .ok point := by
  obtain ⟨start_price, hstart⟩ := Option.ne_none_iff_exists'.1 h
  unfold Graph.endPoint Graph.symbol
  rw [hstart]
  exact ⟨_, rfl⟩

/-- The page of a stock with a date can be shown to a user once its active predictions have started. -/
theorem show_ok {ticker_symbol : Str} {stock : StockRow ℚ}
    (hfound : tables.stocks.find? (·.ticker_symbol = ticker_symbol) = some stock) (hdate : stock.date = some start_point)
    (hstarted : ∀ row ∈ tables.predictions, row.stock_id = stock.id → row.active = true → row.start_price ≠ none)
    (current_user : Nat) :
    ∃ data, StockpricesController.show tables orders (some current_user) ticker_symbol = .ok data := by
  obtain rfl : stock.ticker_symbol = ticker_symbol := by simpa using List.find?_some hfound
  obtain ⟨predictions, hpredictions⟩ :
      ∃ results, ((orders.predictions.reorder (Graph.others tables stock.id current_user)).take 1500).reverse.mapM
        Graph.endPoint = .ok results := by
    refine mapM_ok fun row hrow => endPoint_ok ?_
    have hmem := orders.predictions.mem_reorder.1 (List.mem_of_mem_take (List.mem_reverse.1 hrow))
    obtain ⟨hrow, hcond⟩ := List.mem_filter.1 hmem
    obtain ⟨hstock, hactive, -⟩ := of_decide_eq_true hcond
    exact hstarted row hrow hstock hactive
  obtain ⟨my_prediction, hmine⟩ : ∃ results, (tables.predictions.filter fun row =>
      row.stock_id = stock.id ∧ row.active ∧ row.user_id = current_user).reverse.mapM Graph.endPoint = .ok results := by
    refine mapM_ok fun row hrow => endPoint_ok ?_
    obtain ⟨hrow, hcond⟩ := List.mem_filter.1 (List.mem_reverse.1 hrow)
    obtain ⟨hstock, hactive, -⟩ := of_decide_eq_true hcond
    exact hstarted row hrow hstock hactive
  unfold StockpricesController.show Graph.new
  simp only [hfound, orRaise, Bind.bind, Except.bind, Pure.pure, Except.pure, hdate, Graph.dailyPrices, Graph.intradayPrices,
    Graph.predictions, Graph.myPrediction, Graph.futureDays, Graph.futureTimes, hpredictions, hmine]
  exact ⟨_, rfl⟩

end

section
variable {official : Str → Int → ℚ × ℚ × Int} {market : Market ℚ} {tables : GraphTables} {since : Int}
  {ticker_symbol : Str} {stock : StockRow ℚ} {date : Time} {current_user : Option Nat} {data : Chart.Data}

end

/-- Rows of the same keys as they come. -/
def stableOrders : GraphOrders where
  daily := .stable (fun a b => le_total b.date a.date) fun _ _ _ h h' => le_trans h' h
  intraday := .stable (fun a b => le_total b.2.date a.2.date) fun _ _ _ h h' => le_trans h' h
  days := .stable (fun a b => le_total a.graph_time b.graph_time) fun _ _ _ => le_trans
  times := .stable (fun a b => le_total a.graph_time b.graph_time) fun _ _ _ => le_trans
  predictions := .stable (fun a b => le_total b.prediction_end_time a.prediction_end_time) fun _ _ _ h h' => le_trans h' h

/-- The stock and its prices, without predictions. -/
def tablesA : GraphTables where
  stocks := withBars.stocks
  stockprices := withBars.stockprices
  intradayprices := withBars.intradayprices.zipIdx.map Prod.swap
  futuredays := dayFiller
  futuretimes := HelperWorker.perform
  predictions := []
  predictionends := []

def stockA : StockRow ℚ := ⟨1, "Agilent".toList, "A".toList, some (utcTime 1436209200000), some 100⟩

theorem stockOf_withBars : withBars.stockOf "A".toList = some stockA := by rfl

end MyStockIQ
