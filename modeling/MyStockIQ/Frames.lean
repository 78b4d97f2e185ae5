import MyStockIQ.Chart
/-!
# Frames (`framesHash`, `bestRange`, `setRange`)

For each button `framesHash` looks up how far the chart reaches to both sides of
its start point, and between which prices. The right edge is taken out of the
array of future dates with `splice`, which also removes it there.
-/

open SharedStore Prog

namespace MyStockIQ.Chart

inductive Graph where
  | stockGraph
  | predictionGraph
  deriving DecidableEq

/-! ## `xLimit` -/

inductive Direction where
  | backward
  | forward

/-- The processor of `backward`. -/
def backward (arr : List (Point Int)) (intervals : Nat) (startPoint : Option ℚ) : List (Point Int) :=
  let arrTimes := arr.map (·.x)
  let cutOff := JavaScript.indexOf (fun x : Int => same (some (x : ℚ)) startPoint) arrTimes
  let newArr := JavaScript.slice arr 0 cutOff
  (JavaScript.splice newArr (-intervals) 1).1

/-- `limit[0].x` -/
def firstX : List (Point Int) → Script Int
  | [] => raise ⟨"x"⟩
  | p :: _ => pure p.x

def xLimit (timeType : TimeType) (intervals : Nat) (intervalDirection : Direction) (startPoint : Option ℚ) : Script Int := do
  let limit ← match intervalDirection with
    | .forward =>
      Prog.query (.splice (futuresOf timeType) intervals) fun components =>
        (JavaScript.splice (components.data.arrays (futuresOf timeType)) intervals 1).1
    | .backward =>
      Prog.query .read fun components => backward (components.data.arrays (pricesOf timeType)) intervals startPoint
  firstX limit

/-! ## `yLimit` -/

inductive Extreme where
  | min
  | max

/-- Which callback finds the limit of a line: `min` and `max`, `limMin` and `limMax`, or `noLimMin` and `noLimMax`. -/
inductive Callback where
  | plain
  | lim
  | noLim

/-- `obj.y < min`, or `obj.y > max`. -/
def Extreme.beyond : Extreme → Number → Number → Bool
  | .min, y, limit => limit.gt y
  | .max, y, limit => y.gt limit

/-- The limit of no points. -/
def Extreme.start : Extreme → Number
  | .min => .infinity false
  | .max => .finite 0

/-- What `limMin` and `limMax` leave out is too far from the prices shown. -/
def Extreme.near (buttonLimit y : Number) : Extreme → Bool
  | .min => y.gt (scale (1 / 2) buttonLimit)
  | .max => (scale (3 / 2) buttonLimit).gt y

/-- The furthest price of a line, of those to keep. -/
def Extreme.limit (extreme : Extreme) (keep : Number → Bool) (lineArray : List (Point (Option ℚ))) : Number :=
  lineArray.foldl (fun limit p => if extreme.beyond p.price limit && keep p.price then p.price else limit) extreme.start

/-- A callback: the limit of the line, and `buttonMin` or `buttonMax` after it. -/
def Extreme.callback (extreme : Extreme) (buttonLimit : Number) (lineArray : List (Point (Option ℚ))) :
    Callback → Number × Number
  | .plain =>
    let limit := extreme.limit (fun _ => true) lineArray
    (limit, limit)
  | .lim => (extreme.limit (fun y => extreme.near buttonLimit y) lineArray, buttonLimit)
  | .noLim => (extreme.limit (fun _ => true) lineArray, buttonLimit)

def Extreme.comparisonCb (extreme : Extreme) (limit : Option Number) (newLimit : Number) : Number :=
  match limit with
  | none => newLimit
  | some limit => if extreme.beyond newLimit limit then newLimit else limit

def Extreme.bufferMaker (limit buttonLimit : Number) : Extreme → Number
  | .min => sub limit (scale (5 / 100) (sub buttonLimit limit))
  | .max => add limit (scale (5 / 100) (sub limit buttonLimit))

/-- `limitedArray` -/
def limitedArray (graphArray : List (Point (Option ℚ))) (xMin xMax : Int) : List (Point (Option ℚ)) :=
  graphArray.filter fun point => point.x.any fun x => (xMin : ℚ) ≤ x && x ≤ (xMax : ℚ)

/-- What `options` has for a graph and a time type. -/
structure TimeOptions where
  limitLines : List (Option (List (Point (Option ℚ))) × Callback)
  startPoint : Option ℚ

/-- `array.last().x` or `array[0].x`. -/
def pointX (property : String) (pick : List (Point (Option ℚ)) → Option (Point (Option ℚ))) :
    Option (List (Point (Option ℚ))) → Except TypeError (Option ℚ)
  | none => .error ⟨property⟩
  | some points =>
    match pick points with
    | none => .error ⟨"x"⟩
    | some point => .ok point.x

def Components.timeOptions (components : Components) (timeType : TimeType) : Graph → Except TypeError TimeOptions
  | .stockGraph => do
    let prices ← components.lineArray timeType .prices
    let predictions ← components.lineArray timeType .predictions
    let myPrediction ← components.lineArray timeType .myPrediction
    let startPoint ← pointX "last" List.getLast? prices
    return ⟨[(prices, .plain), (predictions, .lim), (myPrediction, .noLim)], startPoint⟩
  | .predictionGraph => do
    let prices ← components.lineArray timeType .prices
    let prediction ← components.lineArray timeType .prediction
    let predictionend ← components.lineArray timeType .predictionend
    let startPoint ← pointX "0" List.head? prediction
    return ⟨[(prices, .plain), (prediction, .noLim), (predictionend, .noLim)], startPoint⟩

/-- `options[graphType]()`: both time types are looked up, whichever is asked for. -/
def Components.options (components : Components) (graphType : Graph) : Except TypeError (TimeType → TimeOptions) := do
  let daily ← components.timeOptions .daily graphType
  let intraday ← components.timeOptions .intraday graphType
  return fun
    | .daily => daily
    | .intraday => intraday

/-- The prices are the first of the lines, so `buttonMin` and `buttonMax` are set before they are used. -/
def yLimit (graphType : Graph) (timeType : TimeType) (xMin xMax : Int) (limitType : Extreme) : Script Number := do
  let options ← read fun components => components.options graphType
  let (limit, buttonLimit) := (options timeType).limitLines.foldl
    (fun (limit, buttonLimit) (line, cb) =>
      match line with
      | none => (limit, buttonLimit)
      | some line =>
        let (newLimit, buttonLimit) := limitType.callback buttonLimit (limitedArray line xMin xMax) cb
        (some (limitType.comparisonCb limit newLimit), buttonLimit))
    ((none : Option Number), Number.nan)
  return limitType.bufferMaker (limit.getD .nan) buttonLimit

/-! ## `framesHash` -/

structure ButtonOptions where
  name : Button
  backInterval : Nat
  forwardInterval : Nat
  timeType : TimeType
  deriving DecidableEq

/-- The buttons of both graphs. -/
def buttons : List ButtonOptions :=
  [⟨.oneDay, 78, 39, .intraday⟩, ⟨.fiveDays, 390, 195, .intraday⟩, ⟨.oneMonth, 20, 10, .daily⟩,
    ⟨.threeMonths, 60, 30, .daily⟩, ⟨.sixMonths, 120, 60, .daily⟩, ⟨.oneYear, 240, 120, .daily⟩,
    ⟨.fiveYears, 1200, 600, .daily⟩]

/-- The frame of a button. -/
def frame (graphType : Graph) (startPoint : TimeType → Option ℚ) (element : ButtonOptions) : Script Frame := do
  let sP := startPoint element.timeType
  let xMin ← xLimit element.timeType element.backInterval .backward sP
  let xMax ← xLimit element.timeType element.forwardInterval .forward sP
  let yMin ← yLimit graphType element.timeType xMin xMax .min
  let yMax ← yLimit graphType element.timeType xMin xMax .max
  return ⟨xMin, xMax, yMin, yMax⟩

/-- The loop of `graphProcessor`. -/
def frames (graphType : Graph) (startPoint : TimeType → Option ℚ) : List ButtonOptions → Script (List (Button × Frame))
  | [] => return []
  | element :: elements => do
    let first ← frame graphType startPoint element
    let rest ← frames graphType startPoint elements
    return (element.name, first) :: rest

/-- `framesHash`, which is `graphProcessor`. -/
def framesHash (graphType : Graph) : Script (List (Button × Frame)) := do
  let processorOptions ← read fun components => components.options graphType
  frames graphType (fun timeType => (processorOptions timeType).startPoint) buttons

/-! ## `bestRange` and `setRange` -/

inductive EndType where
  | myPrediction
  | prediction

/-- What the frame has to reach, if there is a prediction. -/
def Data.endTime (data : Data) : EndType → Option (Point Int)
  | .myPrediction => data.my_prediction[0]?
  | .prediction => data.prediction[1]?

def Components.frame (components : Components) (property : String) : Except TypeError CurrentFrame :=
  match components.currentFrame with
  | none => .error ⟨property⟩
  | some currentFrame => .ok currentFrame

/-- `bestRange`. The loop can end without a button: then it returns `undefined`. -/
def bestRange (endType : EndType) : Script (Option Button) := do
  match ← Prog.query .read fun components => components.data.endTime endType with
  | none => return some .oneYear
  | some endTime =>
    let currentFrame ← read fun components => components.frame "framesHash"
    return (currentFrame.framesHash.find? fun value => endTime.x < value.2.xMax).map (·.1)

/-- `framesHash[button]` -/
def CurrentFrame.frameHash (currentFrame : CurrentFrame) : Option Frame :=
  currentFrame.timeFrame.bind fun button => (currentFrame.framesHash.find? (·.1 = button)).map (·.2)

/-- `setRange`: the extremes the axes are set to. -/
def setRange : Script Frame := do
  let currentFrame ← read fun components => components.frame "timeFrame"
  match currentFrame.frameHash with
  | none => raise ⟨"yMin"⟩
  | some frameHash => return frameHash

/-! ## What the user does -/

/-- What follows the making of the lines, in each of the three functions below. -/
def showFrames (graphType : Graph) (endType : EndType) : Script Frame := do
  let hash ← framesHash graphType
  Prog.exec (.currentFrame hash)
  let best ← bestRange endType
  Prog.exec (.timeFrame best)
  setRange

/-- The lines of the user's own prediction. -/
def myPredictionLines : Script Unit := do
  createPredictionLine .daily .myPrediction
  createPredictionLine .intraday .myPrediction
  removeOverlapping
  removeOverlapping

def endTypeOf : Graph → EndType
  | .stockGraph => .myPrediction
  | .predictionGraph => .prediction

/-- What `launch` does before it asks for the frames. -/
def launchLines : Graph → Script Unit
  | .stockGraph => do
    defaultProcessor
    createPredictionLine .daily .predictions
    createPredictionLine .intraday .predictions
    myPredictionLines
  | .predictionGraph => do
    defaultProcessor
    createPredictionLine .daily .prediction
    createPredictionLine .intraday .prediction
    createPredictionLine .daily .predictionend
    createPredictionLine .intraday .predictionend

/-- `launch` -/
def launch (graphType : Graph) : Script Frame := do
  launchLines graphType
  showFrames graphType (endTypeOf graphType)

/-- What can be done on a page afterwards. Only the stock page has its functions for predictions. -/
inductive Action where
  | inputPrediction (endTime : Int) (endPrice : Option Rat) (predictionId : Option Nat) (marker : Option String)
  | removePrediction
  | buttonClick (button : Button)

/-- What an action does before it asks for the frames, if it does. -/
def Action.lines : Action → Script Unit
  | .inputPrediction endTime endPrice predictionId marker => do
    Prog.exec (.myPrediction [⟨predictionId, endTime, endPrice, marker⟩])
    myPredictionLines
  | .removePrediction => do
    Prog.exec (.myPrediction [])
    myPredictionLines
  | .buttonClick button => Prog.exec (.timeFrame (some button))

/-- `inputPrediction`, `removePrediction` and `buttonClick`. -/
def Action.script (action : Action) : Script Frame := do
  action.lines
  match action with
  | .buttonClick _ => setRange
  | _ => showFrames .stockGraph .myPrediction

/-- What `launch` finds: the data, and nothing else. -/
def page (data : Data) : Components := ⟨data, fun _ _ => none, none⟩

end MyStockIQ.Chart
