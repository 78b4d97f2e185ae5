import MyStockIQ.Effects
import MyStockIQ.GraphArrays
import MyStockIQ.MarketHours
import MyStockIQ.PredictionLine
import MyStockIQ.SharedStore.Interleaving
/-!
# The predictions of the others, on the chart of a stock

The server sends the active predictions of the other users, at most 1500 of them and the
latest to end, in the order of their ends; the browser draws one point for each close, or
each five minutes, in which some of them end. What a point shows is the prediction that ends
first among those (`crowd_line`). Predictions are made with ends in sessions of the market,
and nothing writes the end of one again.
-/

namespace MyStockIQ

open Scraper Sql SharedStore

/-! ## When predictions end -/

/-- The end of a prediction as it is made: a time of the market, and the same in both columns. -/
structure EndsInSession (row : Prediction) : Prop where
  mirror : row.graph_end_time = graphTime row.prediction_end_time
  valid : validStockTime row.graph_end_time = true

/-- A prediction that the statement inserts ends in a session. -/
def Stmt.InSession : Stmt → Prop
  | .insertPrediction row => EndsInSession row
  | _ => True

theorem Stmt.Regular.inSession {stmt : Stmt} (h : stmt.Regular) : stmt.InSession := by
  cases stmt with
  | insertPrediction row => exact h.elim
  | _ => trivial

theorem endsInSession_exec {db : Db} {stmt : Stmt} (hs : stmt.InSession) (h : ∀ row ∈ db.predictions, EndsInSession row) :
    ∀ row ∈ (db.exec stmt).predictions, EndsInSession row := by
  intro row hrow
  cases stmt with
  | insertPrediction inserted =>
    rcases mem_inserted hrow with hrow | rfl
    · exact h row hrow
    · exact ⟨hs.mirror, hs.valid⟩
  | updatePrediction id changes =>
    rcases mem_updated hrow with ⟨hrow, -⟩ | ⟨before, hbefore, -, rfl⟩
    · exact h row hrow
    · exact ⟨(h before hbefore).mirror, (h before hbefore).valid⟩
  | destroyPrediction id => exact h row (List.mem_of_mem_filter hrow)
  | _ => exact h row hrow

/-- The end time of the form goes through `closest_start_time`. -/
theorem inSession_request (parse : String → Option Int) (job : Job) : (job.request parse).Only Stmt.InSession := by
  have hregular : ∀ stmt : Stmt, stmt.Regular → stmt.InSession := fun _ => Stmt.Regular.inSession
  have hmild : ∀ stmt : Stmt, stmt.Mild → stmt.InSession := fun stmt hs => hregular stmt hs.1.plain.regular
  cases job with
  | createPrediction now session params =>
    refine only_unanswered (only_createPrediction parse now session params hmild (fun _ => trivial) ?_)
    intro row hcreated _
    obtain ⟨_, _, _, -, -, -, hclosest⟩ := hcreated.end_time
    refine ⟨hcreated.graph_end_time, ?_⟩
    rw [hcreated.graph_end_time]
    exact closest_valid hclosest
  | showPrediction session id => exact (only_unanswered (gentle_showPrediction session id).plain.regular).mono hregular
  | showStock session ticker_symbol feed =>
    exact (only_unanswered (plain_showStock session ticker_symbol feed).regular).mono hregular
  | createPredictionend now session id content =>
    exact (only_unanswered (tame_createPredictionend now session id content).plain.regular).mono hregular
  | predictionEnd => exact gentle_predictionEnd.plain.regular.mono hregular
  | verifyStart id minute_array =>
    exact only_verifyStart id minute_array hmild (fun _ => trivial) fun _ _ _ => trivial
  | verifyEnd id now minute_array =>
    exact only_verifyEnd id now minute_array hmild (fun _ => trivial) (fun _ _ _ _ => trivial) fun _ _ => trivial
  | googleIntraday ticker_symbol feed => exact (mild_googleIntraday ticker_symbol feed).mono hmild

/-- Whatever requests and jobs made the predictions, and however they ran into each other. -/
theorem endsInSession_reach {parse : String → Option Int} {watch : Watch Stmt} {init : Db} {c : Config Stmt Db Error}
    (hinit : init.predictions = []) (h : Reach Db.exec watch (Requested parse) Anytime (.idle init) c) :
    ∀ row ∈ c.store.predictions, EndsInSession row := by
  have hadm : ∀ p, Requested parse p → p.Only Stmt.InSession := by
    rintro _ ⟨job, rfl⟩
    exact inSession_request parse job
  have hinv := h.only_inv (I := fun db : Db => ∀ row ∈ db.predictions, EndsInSession row) hadm
    (fun _ _ hs hdb => endsInSession_exec hs hdb) ?_
  · exact hinv.1
  · constructor
    · intro row hrow
      rw [Config.idle, hinit] at hrow
      cases hrow
    · intro thread hthread
      cases hthread

/-! ## What the server sends -/

/-- The latest of the rows, 1500 at most, in the order of their ends. -/
structure LastToEnd (rows top : List Prediction) : Prop where
  length : top.length = min 1500 rows.length
  sorted : top.Pairwise fun earlier later => earlier.prediction_end_time ≤ later.prediction_end_time
  rest : ∃ rest, (top ++ rest).Perm rows ∧ ∀ row ∈ rest, ∀ kept ∈ top, row.prediction_end_time ≤ kept.prediction_end_time

theorem LastToEnd.mem {rows top : List Prediction} (h : LastToEnd rows top) {row : Prediction} (hrow : row ∈ top) :
    row ∈ rows := by
  obtain ⟨rest, hperm, -⟩ := h.rest
  exact hperm.subset (List.mem_append_left rest hrow)

theorem lastToEnd_of_order
    (order : OrderBy fun later earlier : Prediction => earlier.prediction_end_time ≤ later.prediction_end_time)
    (rows : List Prediction) : LastToEnd rows ((order.reorder rows).take 1500).reverse where
  length := by rw [List.length_reverse, List.length_take, (order.perm rows).length_eq]
  sorted := by
    rw [List.pairwise_reverse]
    exact (order.sorted rows).sublist (List.take_sublist 1500 _)
  rest := by
    refine ⟨(order.reorder rows).drop 1500, ?_, ?_⟩
    · have hperm := order.perm rows
      rw [← List.take_append_drop 1500 (order.reorder rows)] at hperm
      exact ((List.reverse_perm _).append_right _).trans hperm
    · intro row hrow kept hkept
      exact order.before_rest 1500 kept (List.mem_reverse.1 hkept) row hrow

/-- The point of a prediction. One without a start price has none. -/
def drawn (row : Prediction) : Chart.Point Int :=
  ⟨some row.id, row.graph_end_time, some row.prediction_end_price,
    row.start_price.map fun start_price => if row.prediction_end_price < start_price then "triangle-down" else "triangle"⟩

theorem drawn_of_endPoint {row : Prediction} {point : Chart.Point Int} (h : Graph.endPoint row = .ok point) :
    point = drawn row := by
  obtain ⟨symbol, hsymbol, h⟩ := bind_eq_ok h
  cases h
  unfold Graph.symbol at hsymbol
  unfold drawn
  cases hstart : row.start_price with
  | none =>
    rw [hstart] at hsymbol
    cases hsymbol
  | some start_price =>
    rw [hstart] at hsymbol
    cases hsymbol
    rfl

theorem mapM_endPoint {rows : List Prediction} {points : List (Chart.Point Int)}
    (h : rows.mapM Graph.endPoint = .ok points) :
    points = rows.map drawn := by
  induction rows generalizing points with
  | nil =>
    cases h
    rfl
  | cons row rows ih =>
    rw [List.mapM_cons] at h
    obtain ⟨point, hpoint, h⟩ := bind_eq_ok h
    obtain ⟨others, hothers, h⟩ := bind_eq_ok h
    cases h
    rw [drawn_of_endPoint hpoint, ih hothers]
    rfl

/-! ## What the browser draws -/

open Chart

/-- A line of predictions: its times go up, each prediction has a point at its time, and each point is that of the
prediction that ends first among those of its time. -/
structure LineOf (time : Int → Option ℚ) (rows : List Prediction) (points : List (Point (Option ℚ))) : Prop where
  increasing : ∃ times : List ℚ, points.map Point.x = times.map some ∧ times.Pairwise (· < ·)
  each : ∀ row ∈ rows, ∃ point ∈ points, point.x = time row.graph_end_time
  first : ∀ point ∈ points, ∃ row ∈ rows, point = pointOf time (drawn row) ∧
    ∀ other ∈ rows, time other.graph_end_time = time row.graph_end_time → row.prediction_end_time ≤ other.prediction_end_time

theorem lineOf_isLine {time : Int → Option ℚ} {rows : List Prediction} {points : List (Point (Option ℚ))}
    (hline : IsLine time (rows.map drawn) points)
    (hsorted : rows.Pairwise fun earlier later => earlier.prediction_end_time ≤ later.prediction_end_time) :
    LineOf time rows points where
  increasing := hline.increasing
  each row hrow := by
    have htime : time row.graph_end_time ∈ (rows.map drawn).map fun p => time p.x := by
      rw [List.map_map]
      exact List.mem_map.2 ⟨row, hrow, rfl⟩
    exact List.mem_map.1 ((hline.buckets _).2 htime)
  first point hpoint := by
    obtain ⟨before, p, after, hrows, hpoint, hbefore⟩ := hline.first point hpoint
    obtain ⟨front, back, rfl, rfl, hback⟩ := List.map_eq_append_iff.1 hrows
    obtain ⟨row, rest, rfl, rfl, rfl⟩ := List.map_eq_cons_iff.1 hback
    refine ⟨row, by simp, hpoint, ?_⟩
    intro other hother hsame
    obtain ⟨-, hlater, -⟩ := List.pairwise_append.1 hsorted
    rcases List.mem_append.1 hother with hfront | hback
    · exact absurd hsame (hbefore (drawn other) (List.mem_map_of_mem hfront))
    · rcases List.mem_cons.1 hback with rfl | hrest
      · exact le_refl _
      · exact (List.pairwise_cons.1 hlater).1 other hrest

theorem graphTime_le {a b : Time} (h : a ≤ b) : graphTime a ≤ graphTime b := by
  unfold graphTime toI
  unfold Time at *
  omega

/-- Predictions that end in sessions are drawn as a line, of closes or of five minutes. -/
theorem lineOf_predictions {rows : List Prediction} (hends : ∀ row ∈ rows, EndsInSession row)
    (hreadable : ∀ row ∈ rows, Browser.Readable row.graph_end_time)
    (hsorted : rows.Pairwise fun earlier later => earlier.prediction_end_time ≤ later.prediction_end_time)
    (timeType : TimeType) :
    LineOf (processor packedHours timeType) rows (predictionsArray (processor packedHours timeType) (rows.map drawn)) := by
  refine lineOf_isLine (isLine_of_mono (b := bucket packedHours timeType) ?_ ?_) hsorted
  · intro p hp
    obtain ⟨row, hrow, rfl⟩ := List.mem_map.1 hp
    cases timeType with
    | daily => exact processor_daily (hreadable row hrow)
    | intraday => exact processor_intraday _
  · rw [List.pairwise_map]
    refine hsorted.imp_of_mem ?_
    intro row later hrow hlater hle
    refine bucket_mono sessionOffset_packed (hends row hrow).valid (hends later hlater).valid ?_
    have hmirrored := graphTime_le hle
    rwa [← (hends row hrow).mirror, ← (hends later hlater).mirror] at hmirrored

/-- The line of the others' predictions on the chart of a stock, when requests and jobs have made the predictions. -/
theorem crowd_line {parse : String → Option Int} {watch : Watch Stmt} {init : Db} {c : Config Stmt Db Error}
    (hinit : init.predictions = []) (hrun : Reach Db.exec watch (Requested parse) Anytime (.idle init) c)
    {tables : GraphTables} (htables : tables.predictions = c.store.predictions)
    (hreadable : ∀ row ∈ tables.predictions, row.active = true → Browser.Readable row.graph_end_time)
    {orders : GraphOrders} {current_user : Nat} {ticker_symbol : Str} {data : Chart.Data}
    (hshow : StockpricesController.show tables orders (some current_user) ticker_symbol = .ok data) (timeType : TimeType) :
    ∃ stock top, tables.stocks.find? (·.ticker_symbol = ticker_symbol) = some stock ∧
      LastToEnd (Graph.others tables stock.id current_user) top ∧
      LineOf (processor packedHours timeType) top (predictionsArray (processor packedHours timeType) (top.map drawn)) ∧
      ∀ components : Components, components.data = data →
        (createPredictionLine timeType .predictions).run exec components =
          (.ok (), exec components (.line timeType .predictions
            ⟨if top = [] then none
              else some (.own (predictionsArray (processor packedHours timeType) (top.map drawn))), 2⟩)) := by
  obtain ⟨stock, start_point, hfound, hdate, -, hpredictions, -⟩ := show_eq_ok hshow
  have hlatest := lastToEnd_of_order orders.predictions (Graph.others tables stock.id current_user)
  have hsent : data.predictions =
      ((orders.predictions.reorder (Graph.others tables stock.id current_user)).take 1500).reverse.map drawn :=
    mapM_endPoint hpredictions
  have hrows : ∀ row ∈ ((orders.predictions.reorder (Graph.others tables stock.id current_user)).take 1500).reverse,
      row ∈ tables.predictions ∧ row.active = true := by
    intro row hrow
    obtain ⟨hmem, hcond⟩ := List.mem_filter.1 (hlatest.mem hrow)
    exact ⟨hmem, (of_decide_eq_true hcond).2.1⟩
  have hends : ∀ row ∈ tables.predictions, EndsInSession row := by
    rw [htables]
    exact endsInSession_reach hinit hrun
  refine ⟨stock, _, hfound, hlatest, lineOf_predictions (fun row hrow => hends row (hrows row hrow).1)
    (fun row hrow => hreadable row (hrows row hrow).1 (hrows row hrow).2) hlatest.sorted timeType, ?_⟩
  rintro components rfl
  have hdata : components.data.predictionLine .predictions = (_, 2) := congrArg (·, 2) hsent
  simpa using run_line hdata timeType

/-- Two users who predict, and a third who looks. -/
def crowd : Db :=
  { oneStock with
    users := [⟨1, "analyst"⟩, ⟨2, "reader"⟩, ⟨3, "trader"⟩]
    stocks := [⟨1, "Agilent", "A", some (1436189400 * 1000000000), some 100, some true, 0⟩] }

def wednesdayAfternoon (end_string : String) : Option Int :=
  some (if end_string = "8 July, 2015 2:00 PM" then 1436364000 else 1436277600)

/-- Both predict at once. -/
def crowdRun : Config Stmt Db Error :=
  (started crowd ([(1, "7 July, 2015"), (3, "8 July, 2015")].map fun form =>
    Job.request wednesdayAfternoon (.createPrediction (1436191200 * 1000000000) (some form.1)
      ⟨1, some "110", some "up", some form.2, some "2:00 PM"⟩))).turns Db.exec
    ⟨fun _ => false, fun _ => false, fun _ => false⟩ ((List.range 60).map (· % 2))

def crowdTables : GraphTables := { tablesA with predictions := crowdRun.store.predictions }

theorem crowdTables_predictions : ∀ row ∈ crowdTables.predictions,
    row.start_price ≠ none ∧ Browser.Readable row.graph_end_time := by decide +kernel

theorem crowd_line_july : ∃ data, StockpricesController.show crowdTables stableOrders (some 2) "A".toList = .ok data ∧
    ∃ stock top, crowdTables.stocks.find? (·.ticker_symbol = "A".toList) = some stock ∧
      LastToEnd (Graph.others crowdTables stock.id 2) top ∧
      LineOf (processor packedHours .daily) top (predictionsArray (processor packedHours .daily) (top.map drawn)) ∧
      ∀ components : Components, components.data = data →
        (createPredictionLine .daily .predictions).run exec components =
          (.ok (), exec components (.line .daily .predictions
            ⟨if top = [] then none
              else some (.own (predictionsArray (processor packedHours .daily) (top.map drawn))), 2⟩)) := by
  obtain ⟨data, hshow⟩ : ∃ data, StockpricesController.show crowdTables stableOrders (some 2) "A".toList = .ok data :=
    @show_ok crowdTables _ _ _ _ stockOf_withBars rfl (fun row hrow _ _ => (crowdTables_predictions row hrow).1) 2
  have hrun : Reach Db.exec ⟨fun _ => false, fun _ => false, fun _ => false⟩ (Requested wednesdayAfternoon) Anytime
      (.idle crowd) crowdRun := by
    refine (reach_started crowd ?_).turns _
    intro p hp
    obtain ⟨form, -, rfl⟩ := List.mem_map.1 hp
    exact ⟨.createPrediction _ _ _, rfl⟩
  have hreadable : ∀ row ∈ crowdTables.predictions, row.active = true → Browser.Readable row.graph_end_time :=
    fun row hrow _ => (crowdTables_predictions row hrow).2
  have htables : crowdTables.predictions = crowdRun.store.predictions := by rw [crowdTables]
  have hempty : crowd.predictions = [] := rfl
  have hline := crowd_line hempty hrun htables hreadable hshow .daily
  exact ⟨data, hshow, hline⟩

end MyStockIQ
