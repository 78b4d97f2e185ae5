import MyStockIQ.Chart
import MyStockIQ.FutureTimes
import MyStockIQ.LatestPrice
import MyStockIQ.Prediction
import MyStockIQ.Sql.Ordered
/-!
# What the charts are sent (`lib/graph.rb`)

A `Graph` is made for a request and asked for the arrays of a chart one by one. It starts
at the date of the stock, or at the start of the prediction whose page it is. The prices
are those of a window around that time, the future dates the next after it, and the
predictions those of the others, the latest to end.
-/

namespace MyStockIQ

open Scraper Sql

/-! ## Tables -/

/-- The tables a `Graph` reads. The rows of `intradayprices` have their ids beside them. -/
structure GraphTables where
  stocks : List (StockRow ℚ)
  stockprices : List (Stockprice ℚ)
  intradayprices : List (Nat × IntradayHash ℚ)
  futuredays : List Futureday
  futuretimes : List Futuretime
  predictions : List Prediction
  predictionends : List Predictionend

/-- How the database orders the rows of each query. -/
structure GraphOrders where
  daily : OrderBy fun newer older : Stockprice ℚ => older.date ≤ newer.date
  intraday : OrderBy fun newer older : Nat × IntradayHash ℚ => older.2.date ≤ newer.2.date
  days : OrderBy fun earlier later : Futureday => earlier.graph_time ≤ later.graph_time
  times : OrderBy fun earlier later : Futuretime => earlier.graph_time ≤ later.graph_time
  predictions : OrderBy fun later earlier : Prediction => earlier.prediction_end_time ≤ later.prediction_end_time

/-- `value`, or the exception of calling `method` on `nil`. -/
def orRaise {α : Type} (value : Option α) (method : String) : Except Error α :=
  match value with
  | some a => .ok a
  | none => .error (.noMethodError method)

theorem orRaise_eq_ok {α : Type} {value : Option α} {method : String} {a : α} (h : orRaise value method = .ok a) :
    value = some a := by
  cases value with
  | none => cases h
  | some b =>
    cases h
    rfl

/-! ## `Graph` -/

structure Graph where
  ticker_symbol : Str
  /-- The id of `@current_user`. -/
  current_user : Option Nat
  stock : Option (StockRow ℚ)
  prediction : Option Prediction
  start_point : Option Time

inductive StartPoint where
  | stocks
  | predictiondetails

/-- The seconds of a duration, as an instant counts them. -/
def seconds (n : Int) : Time := n * 1000000000

namespace Graph

/-- `initialize` -/
def new (tables : GraphTables) (ticker_symbol : Str) (current_user : Option Nat) (prediction : Option Prediction)
    (start_point : StartPoint) : Except Error Graph := do
  let stock := tables.stocks.find? (·.ticker_symbol = ticker_symbol)
  match start_point with
  | .stocks =>
    let found ← orRaise stock "date"
    return ⟨ticker_symbol, current_user, stock, prediction, found.date⟩
  | .predictiondetails =>
    let found ← orRaise prediction "start_time"
    return ⟨ticker_symbol, current_user, stock, prediction, some found.start_time⟩

variable (self : Graph) (tables : GraphTables) (orders : GraphOrders)

/-- `prediction`: the line from the start of the prediction to its end. -/
def predictionLine : Except Error (List (Chart.Point Int)) := do
  let prediction ← orRaise self.prediction "id"
  return [⟨some prediction.id, prediction.graph_start_time, prediction.start_price, none⟩,
    ⟨some prediction.id, prediction.graph_end_time, some prediction.prediction_end_price, none⟩]

/-- `@prediction.predictionend` -/
def predictionendOf (prediction_id : Nat) : Option Predictionend :=
  (tables.predictionends.filter (·.prediction_id = prediction_id)).getLast?

/-- The symbol of a prediction that goes up, or down. -/
def symbol (prediction : Prediction) : Except Error String :=
  match prediction.start_price with
  | none => .error .argumentError
  | some start_price => .ok (if prediction.prediction_end_price < start_price then "triangle-down" else "triangle")

/-- The point of a prediction, at its end. -/
def endPoint (prediction : Prediction) : Except Error (Chart.Point Int) := do
  let symbol ← symbol prediction
  return ⟨some prediction.id, prediction.graph_end_time, some prediction.prediction_end_price, some symbol⟩

/-- `my_prediction`, in the default scope: the newest first. -/
def myPrediction : Except Error (List (Chart.Point Int)) := do
  let stock ← orRaise self.stock "id"
  let current_user ← orRaise self.current_user "id"
  (tables.predictions.filter fun row => row.stock_id = stock.id ∧ row.active ∧ row.user_id = current_user).reverse.mapM
    endPoint

/-- The active predictions of the others. -/
def others (stock_id current_user : Nat) : List Prediction :=
  tables.predictions.filter fun row => row.stock_id = stock_id ∧ row.active ∧ row.user_id ≠ current_user

/-- `predictions` -/
def predictions : Except Error (List (Chart.Point Int)) := do
  let stock ← orRaise self.stock "id"
  let current_user ← orRaise self.current_user "id"
  ((orders.predictions.reorder (others tables stock.id current_user)).take 1500).reverse.mapM endPoint

/-- A window around the start point, in days before and after it. -/
def inWindow (start_point : Time) (before after : Int) (date : Time) : Bool :=
  start_point - seconds (60 * 60 * 24 * before) < date ∧ date < start_point + seconds (60 * 60 * 24 * after)

/-- The rows `intraday_prices` is about: nine days back, and six days on. -/
def intradayRows (start_point : Time) : List (Nat × IntradayHash ℚ) :=
  tables.intradayprices.filter fun price =>
    price.2.ticker_symbol = self.ticker_symbol ∧ inWindow start_point 9 6 price.2.date

def intradayPoint (price : Nat × IntradayHash ℚ) : Chart.Point Int :=
  ⟨some price.1, price.2.graph_time, some price.2.close_price, none⟩

/-- `intraday_prices` -/
def intradayPrices : Except Error (List (Chart.Point Int)) := do
  let start_point ← orRaise self.start_point "-"
  return (orders.intraday.reorder (self.intradayRows tables start_point)).reverse.map intradayPoint

/-- The rows `daily_prices` is about: five years back, and two and a half on. -/
def dailyRows (start_point : Time) : List (Stockprice ℚ) :=
  tables.stockprices.filter fun price => price.ticker_symbol = self.ticker_symbol ∧ inWindow start_point 1825 950 price.date

def dailyPoint (price : Stockprice ℚ) : Chart.Point Int := ⟨some price.id, price.graph_time, some price.close_price, none⟩

/-- `daily_prices` -/
def dailyPrices : Except Error (List (Chart.Point Int)) := do
  let start_point ← orRaise self.start_point "-"
  return (orders.daily.reorder (self.dailyRows tables start_point)).reverse.map dailyPoint

/-- The point of a future date. -/
def futurePoint (graph_time : Int) : Chart.Point Int := ⟨none, graph_time, none, none⟩

/-- `future_days` -/
def futureDays : Except Error (List (Chart.Point Int)) := do
  let start_point ← orRaise self.start_point "graph_time"
  let start := graphTime start_point
  return ((orders.days.reorder (tables.futuredays.filter (start < ·.graph_time))).take 750).map (futurePoint ·.graph_time)

/-- `future_times` -/
def futureTimes : Except Error (List (Chart.Point Int)) := do
  let start_point ← orRaise self.start_point "graph_time"
  let start := graphTime start_point
  return ((orders.times.reorder (tables.futuretimes.filter (start < ·.graph_time))).take 234).map (futurePoint ·.graph_time)

end Graph

/-! ## The two charts -/

def seriesOf (daily_prices intraday_prices future_days future_times : List (Chart.Point Int)) :
    Chart.Series → List (Chart.Point Int)
  | .daily_prices => daily_prices
  | .intraday_prices => intraday_prices
  | .future_days => future_days
  | .future_times => future_times

/-- `show` of `StockpricesController`, in JSON. -/
def StockpricesController.show (tables : GraphTables) (orders : GraphOrders) (current_user : Option Nat)
    (ticker_symbol : Str) : Except Error Chart.Data := do
  let stock ← orRaise (tables.stocks.find? (·.ticker_symbol = ticker_symbol)) "ticker_symbol"
  let graph ← Graph.new tables stock.ticker_symbol current_user none .stocks
  let daily_prices ← graph.dailyPrices tables orders
  let intraday_prices ← graph.intradayPrices tables orders
  let predictions ← graph.predictions tables orders
  let my_prediction ← graph.myPrediction tables
  let future_days ← graph.futureDays tables orders
  let future_times ← graph.futureTimes tables orders
  return ⟨seriesOf daily_prices intraday_prices future_days future_times, predictions, my_prediction, [], []⟩

end MyStockIQ
