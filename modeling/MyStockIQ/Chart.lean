import MyStockIQ.DailyChart
import MyStockIQ.JavaScript.Arrays
import MyStockIQ.Score
import MyStockIQ.SharedStore.Program
/-!
# The chart (`highcharts/graph-mediator.js`, `highcharts/graph-constructors.js`)

The page keeps what the server sent, the lines of the chart and the frame it
shows in `components`. The arrays of prices and of future dates belong to the
data and to the lines at once: a line has the array, not a copy of it, so what
`framesHash` does to the one it does to the other. What is only handed on to
Highcharts is left out; `setRange` gives the extremes it hands on.
-/

open SharedStore Prog

namespace MyStockIQ.Chart

/-! ## Numbers of a browser -/

/-- `a + b`; infinities of different signs make no number. -/
def add : Number → Number → Number
  | .finite a, .finite b => .finite (a + b)
  | .infinity a, .infinity b => if a = b then .infinity a else .nan
  | .infinity a, .finite _ => .infinity a
  | .finite _, .infinity b => .infinity b
  | _, _ => .nan

def sub (a b : Number) : Number := add a b.neg

/-- `a * factor`, for a factor above zero. -/
def scale (factor : Rat) : Number → Number
  | .finite a => .finite (a * factor)
  | n => n

/-! ## Components -/

inductive TimeType where
  | daily
  | intraday
  deriving DecidableEq

/-- A point of the graph, with its time. -/
structure Point (X : Type) where
  id : Option Nat
  x : X
  y : Option Rat
  /-- The symbol of its `marker`. -/
  marker : Option String
  deriving DecidableEq

/-- The price of a point as a number: `null` counts as zero. -/
def Point.price {X : Type} (p : Point X) : Number := .finite (p.y.getD 0)

/-- The arrays of the data that lines have, too. -/
inductive Series where
  | daily_prices
  | intraday_prices
  | future_days
  | future_times
  deriving DecidableEq

/-- What the server sends. A page is sent the predictions it shows; the others are empty here. -/
structure Data where
  arrays : Series → List (Point Int)
  predictions : List (Point Int)
  my_prediction : List (Point Int)
  prediction : List (Point Int)
  predictionend : List (Point Int)

/-- The array of a line: one of the data, or one made for the line, where `none` is `NaN`. -/
inductive LineArray where
  | shared (series : Series)
  | own (points : List (Point (Option ℚ)))

inductive LineName where
  | prices
  | forward_dates
  | predictions
  | myPrediction
  | prediction
  | predictionend
  deriving DecidableEq

structure Line where
  /-- `none` is `null`. -/
  lineArray : Option LineArray
  index : Nat

/-- The buttons, under the names they show: "1D", "5D", "1M", "3M", "6M", "1Yr" and "5Yr". -/
inductive Button where
  | oneDay
  | fiveDays
  | oneMonth
  | threeMonths
  | sixMonths
  | oneYear
  | fiveYears
  deriving DecidableEq

structure Frame where
  xMin : Int
  xMax : Int
  yMin : Number
  yMax : Number
  deriving DecidableEq

/-- `currentFrame`, with the frames in the order they were added. -/
structure CurrentFrame where
  framesHash : List (Button × Frame)
  timeFrame : Option Button

structure Components where
  data : Data
  /-- `dailyLines` and `intradayLines` -/
  lines : TimeType → LineName → Option Line
  currentFrame : Option CurrentFrame

/-- `TypeError`: this property was read of `undefined` or `null`. -/
structure TypeError where
  property : String
  deriving DecidableEq

inductive Stmt where
  | read
  /-- `splice(start, 1)` of an array of the data. -/
  | splice (series : Series) (start : Nat)
  | myPrediction (points : List (Point Int))
  /-- `defaultProcessor` -/
  | lines (lines : TimeType → LineName → Option Line)
  | line (timeType : TimeType) (name : LineName) (line : Line)
  | currentFrame (framesHash : List (Button × Frame))
  | timeFrame (button : Option Button)

def exec (components : Components) : Stmt → Components
  | .read => components
  | .splice series start =>
    let left := (JavaScript.splice (components.data.arrays series) start 1).2
    { components with data.arrays := Function.update components.data.arrays series left }
  | .myPrediction points => { components with data.my_prediction := points }
  | .lines lines => { components with lines }
  | .line timeType name line =>
    { components with
      lines := Function.update components.lines timeType (Function.update (components.lines timeType) name (some line)) }
  | .currentFrame framesHash => { components with currentFrame := some ⟨framesHash, none⟩ }
  | .timeFrame button =>
    { components with currentFrame := components.currentFrame.map fun frame => { frame with timeFrame := button } }

abbrev Script := Prog Stmt Components TypeError

/-- Reading what may not be there. -/
def read {α : Type} (f : Components → Except TypeError α) : Script α := do
  match ← Prog.query .read f with
  | .ok a => pure a
  | .error e => raise e

/-! ## Lines -/

def pricesOf : TimeType → Series
  | .daily => .daily_prices
  | .intraday => .intraday_prices

def futuresOf : TimeType → Series
  | .daily => .future_days
  | .intraday => .future_times

/-- `defaultProcessor` -/
def defaultProcessor : Script Unit :=
  Prog.exec (.lines fun timeType name =>
    match name with
    | .prices => some ⟨some (.shared (pricesOf timeType)), 0⟩
    | .forward_dates => some ⟨some (.shared (futuresOf timeType)), 1⟩
    | _ => none)

/-- The points of an array. -/
def Components.points (components : Components) : LineArray → List (Point (Option ℚ))
  | .shared series => (components.data.arrays series).map fun p => { p with x := some (p.x : ℚ) }
  | .own points => points

/-- `components[..][name].lineArray` -/
def Components.lineArray (components : Components) (timeType : TimeType) (name : LineName) :
    Except TypeError (Option (List (Point (Option ℚ)))) :=
  match components.lines timeType name with
  | none => .error ⟨"lineArray"⟩
  | some line => .ok (line.lineArray.map components.points)

/-- `intradayProcessor` -/
def intradayProcessor (gT : Int) : Option ℚ :=
  let coeff : ℚ := 1000 * 60 * 5
  some (Browser.round (gT / coeff) * coeff)

/-- `===` of times. -/
def same (a b : Option ℚ) : Bool := a.isSome && a = b

/-- The loop of `createPredictionLine`: a point is left out if its time is that of the last one kept. -/
def predictionsArray (cb : Int → Option ℚ) (predictions : List (Point Int)) : List (Point (Option ℚ)) :=
  predictions.foldl (fun kept p =>
    let timeCompare := cb p.x
    match kept.getLast? with
    | none => kept ++ [{ p with x := timeCompare }]
    | some last => if !same timeCompare last.x then kept ++ [{ p with x := timeCompare }] else kept) []

/-- What a line is made of, and its index. Only prediction lines are made. -/
def Data.predictionLine (data : Data) : LineName → List (Point Int) × Nat
  | .predictions => (data.predictions, 2)
  | .myPrediction => (data.my_prediction, 3)
  | .prediction => (data.prediction, 2)
  | .predictionend => (data.predictionend, 3)
  | .prices | .forward_dates => ([], 0)

/-- `createPredictionLine` -/
def createPredictionLine (timeType : TimeType) (name : LineName) : Script Unit := do
  let (predictions, index) ← Prog.query .read fun components => components.data.predictionLine name
  let cb := match timeType with
    | .daily => Browser.dailyProcessor
    | .intraday => intradayProcessor
  let points := predictionsArray cb predictions
  if points.length ≠ 0 then Prog.exec (.line timeType name ⟨some (.own points), index⟩)
  else Prog.exec (.line timeType name ⟨none, index⟩)

/-- `removeOverlapping`. What it calls the main line is a record without a length, so
it goes through no point. -/
def removeOverlapping : Script Unit :=
  read fun components =>
    if (components.lines .intraday .myPrediction).isNone || (components.lines .daily .myPrediction).isNone then
      .error ⟨"0"⟩
    else .ok ()

end MyStockIQ.Chart
