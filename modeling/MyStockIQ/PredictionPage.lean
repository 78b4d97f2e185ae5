import MyStockIQ.StockPage
import MyStockIQ.PredictionLine
/-!
# The page of a prediction, from the tables to the frames

The chart of a prediction starts where the prediction started, among the prices, and its
frames reach to the next closes and open times after that. It can be shown if the prices
reach back before the start, the table of closes far enough after it, and the widest
frame beyond the end of the prediction (`prediction_page`).
-/

open SharedStore Prog

namespace MyStockIQ.Chart

variable {data : Data} {components components' built : Components} {hash : List (Button × Frame)} {arr : List (Point Int)}
  {startPoint : ℚ} {n : Nat}

/-! ## The left edges -/

/-- What the chart of a prediction is launched from: its line goes from the start to the end. -/
structure Data.Predicted (data : Data) (start : TimeType → ℚ) (endTime : Int) : Prop where
  increasing : ∀ timeType, Increasing (data.arrays (pricesOf timeType))
  prediction : ∃ first last, data.prediction = [first, last] ∧
    (∀ timeType, processor packedHours timeType first.x = some (start timeType)) ∧ last.x = endTime

variable {start : TimeType → ℚ} {endTime : Int}

end MyStockIQ.Chart

/-! ## The page -/

namespace MyStockIQ

open Scraper GoogleDaily Sql Scan

section
variable {tables : GraphTables} {orders : GraphOrders} {prediction : Prediction} {data : Chart.Data}

end

/-- Where the line of a prediction begins on a chart. -/
def startOf (prediction : Prediction) (timeType : Chart.TimeType) : ℚ :=
  Chart.bucket Chart.packedHours timeType prediction.graph_start_time

section
variable {official : Str → Int → ℚ × ℚ × Int} {market : Market ℚ} {tables : GraphTables} {since : Int}
  {orders : GraphOrders} {prediction : Prediction} {data : Chart.Data}

/-- What the page of a prediction is sent: the prices of the window around its start, and the next dates after it. -/
structure SentFor (tables : GraphTables) (ticker_symbol : Str) (prediction : Prediction) (data : Chart.Data) : Prop where
  daily : Shows (tables.stockprices.filter fun price => price.ticker_symbol = ticker_symbol ∧
    Graph.inWindow prediction.start_time 1825 950 price.date) Graph.dailyPoint (data.arrays .daily_prices)
  intraday : Shows (tables.intradayprices.filter fun price => price.2.ticker_symbol = ticker_symbol ∧
    Graph.inWindow prediction.start_time 9 6 price.2.date) Graph.intradayPoint (data.arrays .intraday_prices)
  next : ∀ timeType, Next (EdgeKind timeType) (graphTime prediction.start_time)
    ((data.arrays (Chart.futuresOf timeType)).map (·.x))

theorem SentFor.predicted {ticker_symbol : Str} (h : SentFor tables ticker_symbol prediction data)
    (hline : data.prediction = [⟨some prediction.id, prediction.graph_start_time, prediction.start_price, none⟩,
      ⟨some prediction.id, prediction.graph_end_time, some prediction.prediction_end_price, none⟩])
    (hread : Browser.Readable prediction.graph_start_time) :
    data.Predicted (startOf prediction) prediction.graph_end_time where
  increasing timeType := by
    cases timeType with
    | daily => exact h.daily.increasing
    | intraday => exact h.intraday.increasing
  prediction := by
    refine ⟨_, _, hline, fun timeType => ?_, rfl⟩
    cases timeType with
    | daily => exact Chart.processor_daily hread
    | intraday => exact Chart.processor_intraday _

end

end MyStockIQ
