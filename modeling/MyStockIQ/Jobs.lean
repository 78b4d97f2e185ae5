import MyStockIQ.Controllers
/-!
# Jobs (`app/workers`, `lib/tasks/scheduler.rake`)

A `Job` is any request or job of the application that touches predictions.
-/

open SharedStore

namespace MyStockIQ

/-- `min_by {|item| item["date"]}`: the first of the earliest. -/
def minByDate : List Intradayprice → Option Intradayprice
  | [] => none
  | item :: rest =>
    match minByDate rest with
    | none => some item
    | some other => if other.date < item.date then some other else some item

/-- Of the minutes not before `time`, the earliest. -/
def minMinute (minute_array : List Intradayprice) (time : Time) : Option Intradayprice :=
  minByDate (minute_array.filter (time ≤ ·.date))

/-- `PredictionstartWorker#perform`, where `minute_array` is what the scraper has read. -/
def PredictionstartWorker.perform (prediction_id : Nat) (minute_array : List Intradayprice) : Request Unit := do
  let found ← select (.prediction prediction_id) (·.prediction prediction_id)
  match found with
  | none => .raise .recordNotFound
  | some row =>
    let (prediction, _) ← Record.loadStock { row := row } "ticker_symbol"
    match minMinute minute_array row.start_time with
    | none => return ()
    | some min_minute =>
      let _ ← prediction.update
        { start_time := some min_minute.date
          start_price := some (roundCents min_minute.close_price)
          start_price_verified := some true }
      return ()

/-- `PredictionendWorker#perform`. The mail it sends at the end is left out. -/
def PredictionendWorker.perform (predictionend_id : Nat) (now : Time) (minute_array : List Intradayprice) :
    Request Unit := do
  let found ← select (.predictionend predictionend_id) (·.predictionend predictionend_id)
  match found with
  | none => .raise .recordNotFound
  | some predictionend =>
    if predictionend.actual_end_time + 1800 * 1000000000 ≤ now then
      let found ← select (.prediction predictionend.prediction_id) (·.prediction predictionend.prediction_id)
      let row ← orNil found "stock"
      let (prediction, _) ← Record.loadStock { row := row } "ticker_symbol"
      match minMinute minute_array predictionend.actual_end_time with
      | none => return ()
      | some min_minute =>
        let changes := PredictionendChanges.dirty
          { actual_end_time := some min_minute.date
            actual_end_price := some (roundCents min_minute.close_price)
            end_price_verified := some true } predictionend
        write (.updatePredictionend predictionend_id changes)
        let _ ← Record.finalUpdateScore { prediction with predictionend := some (changes.set predictionend) }
        return ()
    else return ()

/-- `ten_minute_updates:prediction_end`, without the workers it enqueues. -/
def predictionEnd : Request Unit := do
  let predictions ← select .activePredictions (·.activePredictions)
  Prog.each (fun row => do
    let _ ← Record.bringUpToDate { row := row }
    return ()) predictions

inductive Job where
  | createPrediction (now : Time) (session : Option Nat) (params : PredictionParams)
  | showPrediction (session : Option Nat) (id : Nat)
  | showStock (session : Option Nat) (ticker_symbol : String) (feed : List Intradayprice)
  | createPredictionend (now : Time) (session : Option Nat) (prediction_id : Nat) (content : Option String)
  | predictionEnd
  | verifyStart (prediction_id : Nat) (minute_array : List Intradayprice)
  | verifyEnd (predictionend_id : Nat) (now : Time) (minute_array : List Intradayprice)
  | googleIntraday (ticker_symbol : String) (feed : List Intradayprice)

/-- A request, without its reply. -/
def unanswered (request : Request Reply) : Request Unit := do
  let _ ← request
  return ()

/-- What a job runs. `parse` is `DateTime.parse`. -/
def Job.request (parse : String → Option Int) : Job → Request Unit
  | .createPrediction now session params => unanswered (PredictionsController.create parse now session params)
  | .showPrediction session id => unanswered (PredictionsController.show session id)
  | .showStock session ticker_symbol feed => unanswered (StocksController.show session ticker_symbol feed)
  | .createPredictionend now session prediction_id content =>
    unanswered (PredictionendsController.create now session prediction_id content)
  | .predictionEnd => MyStockIQ.predictionEnd
  | .verifyStart prediction_id minute_array => PredictionstartWorker.perform prediction_id minute_array
  | .verifyEnd predictionend_id now minute_array => PredictionendWorker.perform predictionend_id now minute_array
  | .googleIntraday ticker_symbol feed => MyStockIQ.googleIntraday ticker_symbol feed

/-- The request or job run alone: how it ends, and the tables it leaves. -/
def Job.run (parse : String → Option Int) (job : Job) (db : Db) : Except Error Unit × Db :=
  (job.request parse).run Db.exec db

/-- A request or job of the application. -/
def Requested (parse : String → Option Int) (p : Request Unit) : Prop := ∃ job : Job, p = job.request parse

/-- The tables with one user, one stock at a price of 100, and nothing predicted. -/
def oneStock : Db where
  users := [⟨1, "analyst"⟩]
  stocks := [⟨1, "A stock", "ABC", some (1436189400 * 1000000000), some 100, some true, 0⟩]
  intradayprices := []
  predictions := []
  predictionends := []
  streams := []
  popularities := []
  tags := []
  prediction_seq := 1
  predictionend_seq := 1
  tag_seq := 1

/-- A prediction created on Monday, 6 July 2015, 14:00 UTC, for a day later. -/
def mondayForm : Job :=
  .createPrediction (1436191200 * 1000000000) (some 1) ⟨1, some "110", some "up", some "7 July, 2015", some "2:00 PM"⟩

/-- `DateTime.parse` on the one string of `mondayForm`. -/
def tuesdayAfternoon (_ : String) : Option Int := some 1436277600

end MyStockIQ
