import MyStockIQ.Customdate
import MyStockIQ.Score
import MyStockIQ.SharedStore.Interleaving
import MyStockIQ.Whitespace
/-!
# The tables and the statements on them (`db/schema.rb`, `app/models`)

A table is the list of its rows, in the order they were created, so the default
scope (`created_at` descending) reads it from the end. Ids come from a sequence
for each table. A statement is what one request sends to the database at once.
-/

open SharedStore

namespace MyStockIQ

/-- The classes a polymorphic association can point to. -/
inductive ClassName where
  | user | stock | prediction | predictionend | comment | newsarticle | reply
  deriving DecidableEq

/-- A polymorphic reference: the `_type` and the `_id` column. -/
structure Ref where
  type : ClassName
  id : Nat
  deriving DecidableEq

structure User where
  id : Nat
  username : String
  deriving DecidableEq

structure Stock where
  id : Nat
  stock : String
  ticker_symbol : String
  date : Option Time
  daily_stock_price : Option Rat
  viewed : Option Bool
  active_predictions : Nat
  deriving DecidableEq

structure Intradayprice where
  ticker_symbol : String
  date : Time
  close_price : Rat
  deriving DecidableEq

structure Prediction where
  id : Nat
  user_id : Nat
  stock_id : Nat
  content : String
  score : Number
  active : Bool
  start_price_verified : Bool
  start_price : Option Rat
  start_time : Time
  prediction_end_price : Rat
  prediction_end_time : Time
  graph_start_time : Int
  graph_end_time : Int
  deriving DecidableEq

structure Predictionend where
  id : Nat
  prediction_id : Nat
  actual_end_time : Time
  actual_end_price : Option Rat
  end_price_verified : Bool
  content : Option String
  graph_end_time : Int
  deriving DecidableEq

structure Stream where
  streamable : Ref
  targetable : Ref
  deriving DecidableEq

structure Popularity where
  popularable : Ref
  score : Rat
  deriving DecidableEq

structure Tag where
  id : Nat
  content : String
  tagable_type : ClassName
  tagable_id : Option Nat
  deriving DecidableEq

structure Db where
  users : List User
  stocks : List Stock
  intradayprices : List Intradayprice
  predictions : List Prediction
  predictionends : List Predictionend
  streams : List Stream
  popularities : List Popularity
  tags : List Tag
  prediction_seq : Nat
  predictionend_seq : Nat
  tag_seq : Nat
  deriving DecidableEq

/-! ## Changed columns

An `UPDATE` sets the columns whose value in memory differs from the one loaded. -/

/-- The new value of a column, if it is new. -/
def dirty {α : Type} [DecidableEq α] (loaded : α) (assigned : Option α) : Option α :=
  assigned.filter (· ≠ loaded)

structure PredictionChanges where
  active : Option Bool := none
  score : Option Number := none
  start_time : Option Time := none
  start_price : Option Rat := none
  start_price_verified : Option Bool := none

def PredictionChanges.dirty (assigned : PredictionChanges) (loaded : Prediction) : PredictionChanges where
  active := MyStockIQ.dirty loaded.active assigned.active
  score := MyStockIQ.dirty loaded.score assigned.score
  start_time := MyStockIQ.dirty loaded.start_time assigned.start_time
  start_price := assigned.start_price.filter (some · ≠ loaded.start_price)
  start_price_verified := MyStockIQ.dirty loaded.start_price_verified assigned.start_price_verified

def PredictionChanges.set (changes : PredictionChanges) (row : Prediction) : Prediction :=
  { row with
    active := changes.active.getD row.active
    score := changes.score.getD row.score
    start_time := changes.start_time.getD row.start_time
    start_price := changes.start_price.or row.start_price
    start_price_verified := changes.start_price_verified.getD row.start_price_verified }

structure PredictionendChanges where
  actual_end_time : Option Time := none
  actual_end_price : Option Rat := none
  end_price_verified : Option Bool := none

def PredictionendChanges.dirty (assigned : PredictionendChanges) (loaded : Predictionend) :
    PredictionendChanges where
  actual_end_time := MyStockIQ.dirty loaded.actual_end_time assigned.actual_end_time
  actual_end_price := assigned.actual_end_price.filter (some · ≠ loaded.actual_end_price)
  end_price_verified := MyStockIQ.dirty loaded.end_price_verified assigned.end_price_verified

def PredictionendChanges.set (changes : PredictionendChanges) (row : Predictionend) : Predictionend :=
  { row with
    actual_end_time := changes.actual_end_time.getD row.actual_end_time
    actual_end_price := changes.actual_end_price.or row.actual_end_price
    end_price_verified := changes.end_price_verified.getD row.end_price_verified }

structure StockChanges where
  date : Option Time := none
  daily_stock_price : Option Rat := none
  viewed : Option Bool := none
  active_predictions : Option Nat := none

def StockChanges.dirty (assigned : StockChanges) (loaded : Stock) : StockChanges where
  date := assigned.date.filter (some · ≠ loaded.date)
  daily_stock_price := assigned.daily_stock_price.filter (some · ≠ loaded.daily_stock_price)
  viewed := assigned.viewed.filter (some · ≠ loaded.viewed)
  active_predictions := MyStockIQ.dirty loaded.active_predictions assigned.active_predictions

def StockChanges.set (changes : StockChanges) (row : Stock) : Stock :=
  { row with
    date := changes.date.or row.date
    daily_stock_price := changes.daily_stock_price.or row.daily_stock_price
    viewed := changes.viewed.or row.viewed
    active_predictions := changes.active_predictions.getD row.active_predictions }

/-! ## Statements -/

/-- What a `SELECT` is about. -/
inductive Query where
  | user (id : Nat)
  | userNamed (username : String)
  | stock (id : Nat)
  | stockTicker (ticker_symbol : String)
  | intradayprices (ticker_symbol : String)
  | predictionExists (id : Nat)
  | prediction (id : Nat)
  | activePredictions
  | activePredictionExists (user_id stock_id : Nat)
  | activePrediction (user_id stock_id : Nat)
  | predictionCount (stock_id : Nat)
  | activePredictionCount (stock_id : Nat)
  | predictionend (id : Nat)
  | predictionendExists (prediction_id : Nat)
  | predictionendOf (prediction_id : Nat)
  | streams (targetable : Ref)
  | streamExists (stream : Stream)

/-- Destroying a row takes its `dependent: :destroy` rows along, but for the
Predictionend of a prediction, which is loaded and destroyed on its own. -/
inductive Stmt where
  | select (query : Query)
  | insertPrediction (row : Prediction)
  | updatePrediction (id : Nat) (changes : PredictionChanges)
  | destroyPrediction (id : Nat)
  | insertPredictionend (row : Predictionend)
  | updatePredictionend (id : Nat) (changes : PredictionendChanges)
  | destroyPredictionend (prediction_id id : Nat)
  | updateStock (id : Nat) (changes : StockChanges)
  | insertIntradayprices (rows : List Intradayprice)
  | insertStream (row : Stream)
  | insertPopularity (row : Popularity)
  | insertTag (row : Tag)
  | attachTag (id tagable_id : Nat)

/-- The rows that depend on `owner` through `streams`, `popularity` and `tag`. -/
def Db.destroyDependents (db : Db) (owner : Ref) : Db :=
  { db with
    streams := db.streams.filter (·.streamable ≠ owner)
    popularities := db.popularities.eraseP (·.popularable = owner)
    tags := db.tags.eraseP fun tag => tag.tagable_type = owner.type ∧ tag.tagable_id = some owner.id }

def Db.exec (db : Db) : Stmt → Db
  | .select _ => db
  | .insertPrediction row =>
    { db with
      predictions := db.predictions ++ [{ row with id := db.prediction_seq }]
      prediction_seq := db.prediction_seq + 1 }
  | .updatePrediction id changes =>
    { db with predictions := db.predictions.map fun row => if row.id = id then changes.set row else row }
  | .destroyPrediction id =>
    { db.destroyDependents ⟨.prediction, id⟩ with predictions := db.predictions.filter (·.id ≠ id) }
  | .insertPredictionend row =>
    { db with
      predictionends := db.predictionends ++ [{ row with id := db.predictionend_seq }]
      predictionend_seq := db.predictionend_seq + 1 }
  | .updatePredictionend id changes =>
    { db with predictionends := db.predictionends.map fun row => if row.id = id then changes.set row else row }
  | .destroyPredictionend _ id =>
    { db.destroyDependents ⟨.predictionend, id⟩ with predictionends := db.predictionends.filter (·.id ≠ id) }
  | .updateStock id changes =>
    { db with stocks := db.stocks.map fun row => if row.id = id then changes.set row else row }
  | .insertIntradayprices rows => { db with intradayprices := db.intradayprices ++ rows }
  | .insertStream row => { db with streams := db.streams ++ [row] }
  | .insertPopularity row =>
    -- `build_popularity` destroys the popularity the owner had.
    { db with popularities := db.popularities.eraseP (·.popularable = row.popularable) ++ [row] }
  | .insertTag row =>
    { db with tags := db.tags ++ [{ row with id := db.tag_seq }], tag_seq := db.tag_seq + 1 }
  | .attachTag id tagable_id =>
    { db with tags := db.tags.map fun row => if row.id = id then { row with tagable_id := some tagable_id } else row }

@[simp] theorem exec_select (db : Db) (query : Query) : db.exec (.select query) = db := rfl

/-- The exceptions a request can end with. -/
inductive Error where
  | recordNotFound
  | recordInvalid
  | noMethodError (method : String)
  | typeError
  | argumentError
  deriving DecidableEq

/-- A request or a job: statements, and what the code makes of their answers. -/
abbrev Request := Prog Stmt Db Error

def select {α : Type} (query : Query) (answer : Db → α) : Request α := Prog.query (.select query) answer

def write (stmt : Stmt) : Request Unit := Prog.exec stmt

/-- `value`, or the exception of calling `method` on `nil`. -/
def orNil {α : Type} (value : Option α) (method : String) : Request α :=
  match value with
  | some a => .ret a
  | none => .raise (.noMethodError method)

/-! ## Reading the tables -/

def Db.user (db : Db) (id : Nat) : Option User := db.users.find? (·.id = id)

def Db.userNamed (db : Db) (username : String) : Option User := db.users.find? (·.username = username)

def Db.stock (db : Db) (id : Nat) : Option Stock := db.stocks.find? (·.id = id)

def Db.stockTicker (db : Db) (ticker_symbol : String) : Option Stock :=
  db.stocks.find? (·.ticker_symbol = ticker_symbol)

def Db.prediction (db : Db) (id : Nat) : Option Prediction := db.predictions.find? (·.id = id)

/-- `Prediction.where(active:true)`, the newest first. -/
def Db.activePredictions (db : Db) : List Prediction := (db.predictions.filter (·.active)).reverse

def Db.activePrediction (db : Db) (user_id stock_id : Nat) : Option Prediction :=
  db.activePredictions.find? fun row => row.user_id = user_id ∧ row.stock_id = stock_id

def Db.predictionend (db : Db) (id : Nat) : Option Predictionend := db.predictionends.find? (·.id = id)

/-- The rows that belong to a prediction, in the order they were created. -/
def Db.endings (db : Db) (prediction_id : Nat) : List Predictionend :=
  db.predictionends.filter (·.prediction_id = prediction_id)

/-- `prediction.predictionend`: the newest that belongs to it. -/
def Db.predictionendOf (db : Db) (prediction_id : Nat) : Option Predictionend :=
  (db.endings prediction_id).getLast?

end MyStockIQ
