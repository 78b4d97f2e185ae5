import MyStockIQ.Schema
import Mathlib.Data.List.Sort
/-!
# Updating and ending a prediction (`app/models/prediction.rb`)

A `Record` is a prediction loaded into memory: the row, and the associations the
object has read so far. Each function sends its statements in the order of the
source and returns the object it leaves.
-/

open SharedStore

namespace MyStockIQ

/-- A Prediction object. A field is `none` until the association has been loaded. -/
structure Record where
  row : Prediction
  stock : Option Stock := none
  user : Option User := none
  predictionend : Option Predictionend := none
  deriving DecidableEq

namespace Record

/-- `self.stock`, on which the code then calls `method`. -/
def loadStock (self : Record) (method : String) : Request (Record × Stock) :=
  match self.stock with
  | some stock => .ret (self, stock)
  | none => do
    let found ← select (.stock self.row.stock_id) (·.stock self.row.stock_id)
    let stock ← orNil found method
    return ({ self with stock := some stock }, stock)

/-- `self.user`, on which the code then calls `method`. -/
def loadUser (self : Record) (method : String) : Request (Record × User) :=
  match self.user with
  | some user => .ret (self, user)
  | none => do
    let found ← select (.user self.row.user_id) (·.user self.row.user_id)
    let user ← orNil found method
    return ({ self with user := some user }, user)

/-- `self.predictionend` -/
def loadPredictionend (self : Record) : Request (Option Predictionend) :=
  match self.predictionend with
  | some predictionend => .ret (some predictionend)
  | none => select (.predictionendOf self.row.id) (·.predictionendOf self.row.id)

end Record

/-! ## Saving -/

/-- The validations of `Stock`: both names, and a ticker symbol nobody else has in any case. -/
def Stock.valid (self : Stock) (db : Db) : Bool :=
  !blank self.stock && !blank self.ticker_symbol &&
    !db.stocks.any fun other => other.id ≠ self.id ∧ other.ticker_symbol.toLower = self.ticker_symbol.toLower

/-- `Stock#save` after `assigned`, which writes nothing if the stock is not valid. -/
def Stock.save (self : Stock) (assigned : StockChanges) : Request Stock := do
  let changes := assigned.dirty self
  let valid ← select (.stockTicker self.ticker_symbol) (self.valid ·)
  if valid then
    write (.updateStock self.id changes)
    return changes.set self
  else return self

/-- `update_stock_prediction_count`, after every save. -/
def updateStockPredictionCount (stock : Stock) : Request Stock := do
  let count ← select (.predictionCount stock.id) fun db => (db.predictions.filter (·.stock_id = stock.id)).length
  stock.save { active_predictions := some count }

/-- `Prediction#update`. The callback runs in the transaction of the `UPDATE`, so
a missing stock undoes it: the row is written once the stock is there. -/
def Record.update (self : Record) (assigned : PredictionChanges) : Request Record := do
  let changes := assigned.dirty self.row
  let (self, stock) ← self.loadStock "active_predictions="
  write (.updatePrediction self.row.id changes)
  let stock ← updateStockPredictionCount stock
  return { self with row := changes.set self.row, stock := some stock }

/-- `streams.build(..).save`, false if the stream is there already. -/
def Stream.save (self : Stream) : Request Bool := do
  let taken ← select (.streamExists self) (·.streams.contains self)
  if taken then return false
  else
    write (.insertStream self)
    return true

/-- `streams.create!` -/
def Stream.create! (self : Stream) : Request Unit := do
  let saved ← self.save
  if saved then return () else .raise .recordInvalid

/-! ## Scores -/

/-- `percent_change`, where either price may be `nil`. -/
def percent (new_score base_score : Option Rat) : Request Number :=
  match new_score, base_score with
  | none, _ => .raise (.noMethodError "-")
  | some _, none => .raise .typeError
  | some new_score, some base_score => .ret (percentChange new_score base_score)

/-- `update_score` -/
def Record.updateScore (self : Record) : Request Record := do
  let prediction_percentage ← percent (some self.row.prediction_end_price) self.row.start_price
  let (self, stock) ← self.loadStock "daily_stock_price"
  let actual_percentage ← percent stock.daily_stock_price self.row.start_price
  self.update { score := some (calculateScore prediction_percentage actual_percentage) }

/-- `final_update_score` -/
def Record.finalUpdateScore (self : Record) : Request Record := do
  let prediction_percentage ← percent (some self.row.prediction_end_price) self.row.start_price
  let found ← self.loadPredictionend
  let predictionend ← orNil found "actual_end_price"
  let actual_percentage ← percent predictionend.actual_end_price self.row.start_price
  self.update { score := some (calculateScore prediction_percentage actual_percentage) }

/-! ## Endings -/

/-- `build_predictionend`, which destroys the Predictionend the prediction has. -/
def Record.buildPredictionend (self : Record) : Request Unit := do
  let target ← self.loadPredictionend
  match target with
  | some predictionend => write (.destroyPredictionend self.row.id predictionend.id)
  | none => return ()

/-- `save` on a built Predictionend. -/
def insertPredictionend (row : Predictionend) : Request Predictionend :=
  .step (.insertPredictionend row) fun db => .ret { row with id := db.predictionend_seq }

/-- The popularity and the streams of a new Predictionend. -/
def Record.announce (self : Record) (predictionend : Predictionend) : Request Record := do
  let streamable : Ref := ⟨.predictionend, predictionend.id⟩
  write (.insertPopularity ⟨streamable, 0⟩)
  let (self, user) ← self.loadUser "id"
  let _ ← Stream.save ⟨streamable, ⟨.user, user.id⟩⟩
  let (self, stock) ← self.loadStock "id"
  let _ ← Stream.save ⟨streamable, ⟨.stock, stock.id⟩⟩
  return self

/-- The body both ways of ending share: deactivate, build and save the Predictionend, announce it. -/
def Record.endAt (self : Record) (actual_end_time : Time) (actual_end_price : Option Rat) : Request Record := do
  let self ← self.update { active := some false }
  self.buildPredictionend
  let predictionend ← insertPredictionend
    { id := 0
      prediction_id := self.row.id
      actual_end_time := actual_end_time
      actual_end_price := actual_end_price
      end_price_verified := false
      content := none
      graph_end_time := graphTime actual_end_time }
  { self with predictionend := some predictionend }.announce predictionend

/-- The bars `exceeds_end_price` looks at: the latest 80 after the start time,
the earliest first. -/
def Db.window (db : Db) (ticker_symbol : String) (start_time : Time) : List Intradayprice :=
  (((db.intradayprices.filter fun price => price.ticker_symbol = ticker_symbol ∧ start_time < price.date).insertionSort
    fun a b => b.date ≤ a.date).take 80).reverse

/-- The loop of `exceeds_end_price`: end at the first bar that surpasses the prediction. -/
def Record.scan (self : Record) : List Intradayprice → Request Record
  | [] => .ret self
  | price :: prices =>
    match self.row.start_price with
    | none => .raise .typeError
    | some start_price =>
      if surpasses self.row.prediction_end_price start_price price.close_price then
        self.endAt price.date (some price.close_price)
      else self.scan prices

/-- `exceeds_end_price` -/
def Record.exceedsEndPrice (self : Record) : Request Record := do
  let found ← select (.stock self.row.stock_id) (·.stock self.row.stock_id)
  match found with
  | none => .raise .recordNotFound
  | some stock =>
    let intraday_prices ← select (.intradayprices stock.ticker_symbol)
      (·.window stock.ticker_symbol self.row.start_time)
    self.scan intraday_prices

/-- `exceeds_end_time` -/
def Record.exceedsEndTime (self : Record) : Request Record := do
  let (self, stock) ← self.loadStock "date"
  let date ← orNil stock.date ">="
  if self.row.prediction_end_time ≤ date then
    self.endAt self.row.prediction_end_time stock.daily_stock_price
  else return self

end MyStockIQ
