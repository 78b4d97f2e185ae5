import MyStockIQ.Tags
/-!
# Requests (`app/controllers`)

`session` is the user id of the session. What a request only reads to render
its page is left out.
-/

open SharedStore

namespace MyStockIQ

inductive Reply where
  | ok
  /-- Redirected to the front page. -/
  | redirected
  /-- The messages shown over the form. -/
  | messages (errors : List String)
  deriving DecidableEq

/-- `current_user` -/
def currentUser (session : Option Nat) : Request (Option User) :=
  match session with
  | none => .ret none
  | some id => select (.user id) (·.user id)

/-! ## Reading a price -/

/-- The value of a digit. -/
def digit (c : Char) : Nat := c.toNat - '0'.toNat

/-- The digits a number starts with, which may have single underscores between them. -/
def digits : List Char → List Nat × List Char
  | [] => ([], [])
  | c :: cs =>
    if c.isDigit then
      match cs with
      | '_' :: d :: rest =>
        let (ds, left) := digits (d :: rest)
        if d.isDigit then (digit c :: ds, left) else ([digit c], cs)
      | cs =>
        let (ds, left) := digits cs
        (digit c :: ds, left)
    else ([], c :: cs)

def number (ds : List Nat) : Nat := ds.foldl (fun n d => n * 10 + d) 0

/-- A sign, and what follows it. -/
def sign : List Char → Bool × List Char
  | '-' :: cs => (true, cs)
  | '+' :: cs => (false, cs)
  | cs => (false, cs)

def signed (negative : Bool) (q : Rat) : Rat := if negative then -q else q

/-- The power of ten an exponent stands for. -/
def exponent : List Char → Rat
  | c :: cs =>
    if c = 'e' ∨ c = 'E' then
      let n := number (digits (sign cs).2).1
      if (sign cs).1 then 1 / 10 ^ n else 10 ^ n
    else 1
  | [] => 1

/-- The number `String#to_f` converts to a Float: the one the string starts with, 0 if there is none. -/
def toF (s : String) : Rat :=
  let (negative, cs) := sign (s.toList.dropWhile isSpace)
  let (whole, cs) := digits cs
  let (fraction, cs) := match cs with
    | '.' :: rest => if (digits rest).1 = [] then ([], []) else digits rest
    | cs => ([], cs)
  signed negative ((number whole + number fraction / 10 ^ fraction.length) * exponent cs)

/-! ## `PredictionsController` -/

/-- The parameters of the prediction form. -/
structure PredictionParams where
  stock_id : Nat
  prediction_end_price : Option String
  content : Option String
  end_day : Option String
  end_time : Option String

/-- `params[:end_day] + " " + params[:end_time]` -/
def endString (params : PredictionParams) : Request String :=
  match params.end_day, params.end_time with
  | none, _ => .raise (.noMethodError "+")
  | some _, none => .raise .typeError
  | some end_day, some end_time => .ret (end_day ++ " " ++ end_time)

/-- The `prediction_end_time` of the form, `none` if it is left empty. `parse` is
`DateTime.parse`, to the second. -/
def endTime (parse : String → Option Int) (params : PredictionParams) : Request (Option Time) :=
  if params.end_day = some "" ∨ params.end_time = some "" then .ret none
  else do
    let prediction_end_str ← endString params
    match parse prediction_end_str with
    | none => .raise .argumentError
    | some unix =>
      let prediction_end_time ← orNil (closestStartTime (unix * 1000)) "graph_time"
      return some prediction_end_time

/-- The `prediction_end_price` of the form. `toPrice` is `to_f.round(2)`. -/
def endPrice (toPrice : String → Rat) (params : PredictionParams) : Request (Option Rat) := do
  let prediction_end_price ← orNil params.prediction_end_price "empty?"
  return if prediction_end_price = "" then none else some (toPrice prediction_end_price)

/-- `to_f.round(2)` in exact numbers. -/
def exactPrice (s : String) : Rat := roundCents (toF s)

/-- The message if the condition holds. -/
def messageIf (condition : Bool) (message : String) : List String := if condition then [message] else []

/-- The messages on an invalid prediction. -/
def invalidMessages (params : PredictionParams) (prediction_end_price : Option Rat) : List String :=
  messageIf prediction_end_price.isNone "Make sure to include a prediction price!" ++
    messageIf (params.end_day = some "") "Please select an end date" ++
    messageIf (params.end_time = some "") "Please select an end time"

/-- The messages on a valid prediction that is not to be saved. -/
def refusals (exists_ : Bool) (ticker_symbol : String) (params : PredictionParams) (start_time end_time : Time) :
    List String :=
  messageIf exists_ ("You already have an active prediction on " ++ ticker_symbol) ++
    messageIf (params.end_day = some "") "Please select an end date" ++
    messageIf (params.end_time = some "") "Please select an end time" ++
    messageIf (end_time ≤ start_time)
      "Your prediction starts and ends at the same time. Please increase your prediction end time."

/-- `@prediction.save` on a new prediction, which takes the Tag of its text along. -/
def savePrediction (row : Prediction) (tag_id : Nat) : Request Prediction := do
  let found ← select (.stock row.stock_id) (·.stock row.stock_id)
  let stock ← orNil found "active_predictions="
  let id ← .step (.insertPrediction row) fun db => .ret db.prediction_seq
  write (.attachTag tag_id id)
  let _ ← updateStockPredictionCount stock
  return { row with id := id }

/-- What `create` does once the prediction is saved. -/
def announcePrediction (prediction : Prediction) (user : User) (stock : Stock) (tags : List (Option Ref)) :
    Request Unit := do
  let count ← select (.activePredictionCount stock.id) fun db =>
    (db.predictions.filter fun row => row.stock_id = stock.id ∧ row.active).length
  let _ ← stock.save { active_predictions := some count }
  let _ ← orNil prediction.start_price ">"
  let streamable : Ref := ⟨.prediction, prediction.id⟩
  Stream.create! ⟨streamable, ⟨.user, user.id⟩⟩
  Stream.create! ⟨streamable, ⟨.stock, stock.id⟩⟩
  targetTags streamable tags
  write (.insertPopularity ⟨streamable, 0⟩)

/-- `create`, with `to_f.round(2)` as a parameter. -/
def PredictionsController.createWith (toPrice : String → Rat) (parse : String → Option Int) (now : Time)
    (session : Option Nat) (params : PredictionParams) : Request Reply := do
  let user ← currentUser session
  let found ← select (.stock params.stock_id) (·.stock params.stock_id)
  match found with
  | none => .raise .recordNotFound
  | some stock =>
    let prediction_start_time ← orNil (closestStartTime (graphTime now)) "graph_time"
    let user ← orNil user "predictions"
    let prediction_end_time ← endTime parse params
    let prediction_end_price ← endPrice toPrice params
    let (tag_id, tags) ← addTags params.content stock.ticker_symbol .prediction none
    match prediction_end_price, prediction_end_time with
    | some prediction_end_price, some prediction_end_time =>
      let exists_ ← select (.activePredictionExists user.id stock.id) fun db =>
        (db.activePrediction user.id stock.id).isSome
      match refusals exists_ stock.ticker_symbol params prediction_start_time prediction_end_time with
      | [] =>
        let prediction ← savePrediction
          { id := 0
            user_id := user.id
            stock_id := stock.id
            content := params.content.getD ""
            score := .finite 0
            active := true
            start_price_verified := false
            start_price := stock.daily_stock_price
            start_time := prediction_start_time
            prediction_end_price := prediction_end_price
            prediction_end_time := prediction_end_time
            graph_start_time := graphTime prediction_start_time
            graph_end_time := graphTime prediction_end_time } tag_id
        announcePrediction prediction user stock tags
        return .ok
      | errors => return .messages errors
    | _, _ => return .messages (invalidMessages params prediction_end_price)

def PredictionsController.create (parse : String → Option Int) (now : Time) (session : Option Nat)
    (params : PredictionParams) : Request Reply := createWith exactPrice parse now session params

/-- The updates a page view makes on an active prediction. -/
def Record.bringUpToDate (self : Record) : Request Record := do
  let self ← self.exceedsEndPrice
  let self ← self.exceedsEndTime
  self.updateScore

/-- `redirect_non_user`, then the action. -/
def redirectNonUser (session : Option Nat) (action : User → Request Reply) : Request Reply := do
  let current_user ← currentUser session
  match current_user with
  | none => return .redirected
  | some user => action user

/-- An active prediction is brought up to date when it is shown. -/
def showPrediction (row : Prediction) (stock : Option Stock) : Request Unit :=
  if row.active then do
    let _ ← Record.bringUpToDate { row := row, stock := stock }
    return ()
  else .ret ()

def PredictionsController.show (session : Option Nat) (id : Nat) : Request Reply :=
  redirectNonUser session fun _ => do
    let found ← select (.prediction id) (·.prediction id)
    let row ← orNil found "stock"
    let stock ← select (.stock row.stock_id) (·.stock row.stock_id)
    showPrediction row stock
    let _ ← orNil stock "ticker_symbol"
    return .ok

/-! ## `StocksController` -/

/-- `Scraper#update_stock`: the date and price of the latest bar not before the stock's date. -/
def latestPrice (prices : List Intradayprice) (date : Option Time) : Option Intradayprice :=
  prices.foldl (fun latest price =>
    let latest_date := (latest.map (·.date)).or date
    if latest_date.all (· ≤ price.date) then some price else latest) none

def updateStock (ticker_symbol : String) : Request Unit := do
  let price_list ← select (.intradayprices ticker_symbol) fun db =>
    db.intradayprices.filter (·.ticker_symbol = ticker_symbol)
  let found ← select (.stockTicker ticker_symbol) (·.stockTicker ticker_symbol)
  let stock ← orNil found "date"
  match latestPrice price_list stock.date with
  | none => return ()
  | some latest =>
    let found ← select (.stockTicker ticker_symbol) (·.stockTicker ticker_symbol)
    let stock_to_update ← orNil found "update"
    let _ ← stock_to_update.save { date := some latest.date, daily_stock_price := some latest.close_price }
    return ()

/-- `ScraperPublic.google_intraday`, where `feed` is what the scraper has read:
the bars not stored yet are inserted, and the stock is updated. -/
def googleIntraday (ticker_symbol : String) (feed : List Intradayprice) : Request Unit := do
  let daily_hash_array ← select (.intradayprices ticker_symbol) fun db =>
    feed.filter fun item => !db.intradayprices.any fun price =>
      price.ticker_symbol = item.ticker_symbol ∧ price.date = item.date
  if daily_hash_array = [] then return ()
  else
    write (.insertIntradayprices daily_hash_array)
    updateStock ticker_symbol

/-- A stock that is viewed for the first time gets its current prices. -/
def viewStock (stock : Stock) (feed : List Intradayprice) : Request Unit :=
  if stock.viewed = some false then do
    googleIntraday stock.ticker_symbol feed
    let _ ← stock.save { viewed := some true }
    return ()
  else .ret ()

/-- The user's active prediction on the page of a stock, brought up to date. -/
def showActivePrediction (current_user : User) (stock : Stock) : Request Unit := do
  let exists_ ← select (.activePredictionExists current_user.id stock.id) fun db =>
    (db.activePrediction current_user.id stock.id).isSome
  if exists_ then
    let found ← select (.activePrediction current_user.id stock.id) (·.activePrediction current_user.id stock.id)
    let row ← orNil found "exceeds_end_price"
    let prediction ← Record.bringUpToDate { row := row }
    -- The Predictionend of the page's form: it is never saved.
    prediction.buildPredictionend
  else return ()

/-- `StocksController#show`, as a page. -/
def StocksController.show (session : Option Nat) (ticker_symbol : String) (feed : List Intradayprice) :
    Request Reply :=
  redirectNonUser session fun current_user => do
    let found ← select (.stockTicker ticker_symbol) (·.stockTicker ticker_symbol)
    let stock ← orNil found "streams"
    viewStock stock feed
    showActivePrediction current_user stock
    return .ok

/-! ## `PredictionendsController` -/

/-- `destroy`, with the Predictionend of the prediction. -/
def Record.destroy (self : Record) : Request Unit := do
  self.buildPredictionend
  write (.destroyPrediction self.row.id)

/-- The prediction is ended by its user. -/
def endByHand (self : Record) (stock : Stock) (current_user : User) (now : Time) (content : Option String) :
    Request Unit := do
  let self ← self.update { active := some false }
  self.buildPredictionend
  let actual_end_time ← orNil (closestStartTime (graphTime now)) "graph_time"
  let predictionend ← insertPredictionend
    { id := 0
      prediction_id := self.row.id
      actual_end_time := actual_end_time
      actual_end_price := stock.daily_stock_price
      end_price_verified := false
      content := content
      graph_end_time := graphTime actual_end_time }
  let streamable : Ref := ⟨.predictionend, predictionend.id⟩
  write (.insertPopularity ⟨streamable, 0⟩)
  let (_, tags) ← addTags content stock.ticker_symbol .predictionend (some predictionend.id)
  Stream.create! ⟨streamable, ⟨.stock, stock.id⟩⟩
  Stream.create! ⟨streamable, ⟨.user, current_user.id⟩⟩
  targetTags streamable tags

/-- The prediction has started, or a stream targets it. -/
def startedOrChildren (row : Prediction) (now : Time) : Request Bool :=
  if row.start_time < now then .ret true
  else select (.streams ⟨.prediction, row.id⟩) fun db => db.streams.any (·.targetable = ⟨.prediction, row.id⟩)

/-- `create`, once the prediction is known not to be gone. -/
def closePrediction (row : Prediction) (now : Time) (session : Option Nat) (content : Option String) :
    Request Reply := do
  let found ← currentUser session
  let current_user ← orNil found "predictions"
  let (self, stock) ← Record.loadStock { row := row } "id"
  let prediction_ended ← startedOrChildren row now
  if prediction_ended then
    endByHand self stock current_user now content
    return .messages ["prediction ended."]
  else
    self.destroy
    return .messages ["prediction removed."]

def PredictionendsController.create (now : Time) (session : Option Nat) (prediction_id : Nat)
    (content : Option String) : Request Reply := do
  let exists_ ← select (.predictionExists prediction_id) fun db => (db.prediction prediction_id).isSome
  if exists_ then
    let found ← select (.prediction prediction_id) (·.prediction prediction_id)
    let row ← orNil found "id"
    let ended ← select (.predictionendExists row.id) fun db => (db.predictionendOf row.id).isSome
    if ended then return .messages ["prediction has already been ended."]
    else closePrediction row now session content
  else return .messages ["prediction has already been canceled"]

end MyStockIQ
