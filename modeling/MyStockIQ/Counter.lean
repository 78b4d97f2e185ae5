import MyStockIQ.Closing
/-!
# The counter of a stock

`update_stock_prediction_count` counts every prediction of the stock, where
`count_active_predictions` counts the active ones. The two agree as long as all
predictions are active. The first ending or cancelling makes the counter wrong:
an ending counts the prediction that ended, and cancelling counts nothing.
-/

open SharedStore Prog

namespace MyStockIQ

/-- `stock.predictions.active.count` -/
def Db.activeOn (db : Db) (stock_id : Nat) : Nat :=
  (db.predictions.filter fun row => row.stock_id = stock_id ∧ row.active).length

/-- Every prediction is active, and every stock counts its predictions. -/
structure Counted (db : Db) : Prop where
  active : ∀ p ∈ db.predictions, p.active = true
  stock_inj : db.stocks.Pairwise fun s t => s.id ≠ t.id
  counter : ∀ stock ∈ db.stocks, stock.active_predictions = db.predictionCount stock.id

theorem Counted.activeOn {db : Db} (h : Counted db) (stock_id : Nat) :
    db.activeOn stock_id = db.predictionCount stock_id := by
  unfold Db.activeOn Db.predictionCount
  congr 1
  refine List.filter_congr fun p hp => ?_
  simp [h.active p hp]

theorem Counted.stock {db : Db} (h : Counted db) {stock : Stock} (hs : stock ∈ db.stocks) :
    db.stock stock.id = some stock := by
  have hkeys : UniqueKeys Stock.id db.stocks := h.stock_inj
  exact hkeys.lookup_eq hs

/-! ## Statements -/

/-- The statement adds, ends and removes no prediction, and a counter it sets counts the predictions. -/
def Stmt.Truthful (db : Db) : Stmt → Prop
  | .insertPrediction _ | .destroyPrediction _ => False
  | .updatePrediction _ changes => changes.active = none
  | .updateStock id changes => ∀ n, changes.active_predictions = some n → n = db.predictionCount id
  | _ => True

theorem predictionCount_update (db : Db) (id : Nat) (changes : PredictionChanges) (stock_id : Nat) :
    (db.exec (.updatePrediction id changes)).predictionCount stock_id = db.predictionCount stock_id := by
  unfold Db.predictionCount
  simp only [Db.exec, List.filter_map, List.length_map]
  congr 1
  refine List.filter_congr fun row _ => ?_
  dsimp only [Function.comp]
  split <;> rfl

theorem stock_inj_updateStock {db : Db} (h : db.stocks.Pairwise fun s t => s.id ≠ t.id) (id : Nat)
    (changes : StockChanges) : (db.exec (.updateStock id changes)).stocks.Pairwise fun s t => s.id ≠ t.id := by
  have hid := updated_key Stock.id changes.set (fun _ => rfl) id
  refine List.pairwise_map.2 (h.imp ?_)
  intro s t hne
  rwa [hid, hid]

/-- The counters after one is set: right if it is set to the right number, and the others were right. -/
theorem counter_updateStock {db : Db} {id : Nat} {changes : StockChanges} (count : Nat → Nat)
    (hset : ∀ s ∈ db.stocks, s.id = id → changes.active_predictions.getD s.active_predictions = count id)
    (hrest : ∀ s ∈ db.stocks, s.id ≠ id → s.active_predictions = count s.id) :
    ∀ s ∈ (db.exec (.updateStock id changes)).stocks, s.active_predictions = count s.id := by
  intro s' hs'
  obtain ⟨s, hs, rfl⟩ := List.mem_map.1 hs'
  rw [updated_key Stock.id changes.set (fun _ => rfl) id]
  by_cases hid : s.id = id
  · rw [if_pos hid, hid]
    exact hset s hs hid
  · rw [if_neg hid]
    exact hrest s hs hid

theorem Counted.exec {db : Db} (h : Counted db) {stmt : Stmt} (hs : stmt.Truthful db) : Counted (db.exec stmt) := by
  cases stmt with
  | insertPrediction row => exact hs.elim
  | destroyPrediction id => exact hs.elim
  | updatePrediction id changes =>
    refine ⟨?_, h.stock_inj, ?_⟩
    · intro p hp
      rcases mem_updated hp with ⟨hp, -⟩ | ⟨q, hq, -, rfl⟩
      · exact h.active p hp
      · simpa [PredictionChanges.set, show changes.active = none from hs] using h.active q hq
    · intro stock hstock
      rw [predictionCount_update]
      exact h.counter stock hstock
  | updateStock id changes =>
    refine ⟨h.active, stock_inj_updateStock h.stock_inj id changes, ?_⟩
    refine counter_updateStock db.predictionCount ?_ fun s hmem _ => h.counter s hmem
    intro s hmem hid
    cases hn : changes.active_predictions with
    | none => rw [Option.getD_none, h.counter s hmem, hid]
    | some n => exact hs n hn
  | _ => exact ⟨h.active, h.stock_inj, h.counter⟩

/-- Counting a stock keeps the counters right. -/
theorem Counted.recount {db : Db} (h : Counted db) (stock : Stock) : Counted (db.counted stock) := by
  unfold Db.counted
  split
  · refine h.exec ?_
    intro n hn
    have hn : dirty stock.active_predictions (some (db.predictionCount stock.id)) = some n := hn
    exact (Option.some.inj (dirty_some hn)).symm
  · exact h

theorem Counted.saved {db : Db} (h : Counted db) (id : Nat) {changes : PredictionChanges} (hc : changes.active = none)
    (stock : Stock) : Counted (db.saved id changes stock) := by
  have hupdated : Counted (db.exec (.updatePrediction id changes)) := h.exec hc
  exact hupdated.recount stock

/-- A new active prediction is counted by the save, if its stock is valid. -/
theorem Counted.created {db : Db} (h : Counted db) {row : Prediction} {stock : Stock} (tag_id : Nat)
    (ha : row.active = true) (hrow : row.stock_id = stock.id) (hstock : stock ∈ db.stocks)
    (hv : stock.valid db = true) :
    Counted (((db.exec (.insertPrediction row)).exec (.attachTag tag_id db.prediction_seq)).counted stock) := by
  let db₂ := (db.exec (.insertPrediction row)).exec (.attachTag tag_id db.prediction_seq)
  have hcount : ∀ id, db₂.predictionCount id = db.predictionCount id + if id = stock.id then 1 else 0 := by
    intro id
    unfold Db.predictionCount
    simp only [db₂, Db.exec, List.filter_append, List.length_append, List.filter_singleton, hrow]
    by_cases hid : id = stock.id
    · simp [hid]
    · simp [hid, Ne.symm hid]
  have hrecount : (db₂.recount stock).active_predictions = some (db₂.predictionCount stock.id) := by
    have hold := h.counter stock hstock
    simp [Db.recount, StockChanges.dirty, dirty, Option.filter, hold, hcount]
  have hset : db₂.counted stock = db₂.exec (.updateStock stock.id (db₂.recount stock)) := if_pos hv
  change Counted (db₂.counted stock)
  rw [hset]
  refine ⟨?_, stock_inj_updateStock h.stock_inj stock.id _, ?_⟩
  · intro p hp
    rcases mem_inserted hp with hp | rfl
    · exact h.active p hp
    · exact ha
  · refine counter_updateStock db₂.predictionCount ?_ ?_
    · intro s _ _
      rw [hrecount, Option.getD_some]
    · intro s hmem hne
      rw [hcount, if_neg hne]
      exact h.counter s hmem

/-! ## Programs -/

section
variable {α : Type} {I : Db → Prop} {self : Record}

theorem outcome_percent (a b : Option Rat) : Outcome Db.exec I (percent a b) (fun _ => I) I := by
  cases a with
  | none => exact .raise fun _ h => h
  | some a =>
    cases b with
    | none => exact .raise fun _ h => h
    | some b => exact .ret fun _ h => h

theorem outcome_select (query : Query) (f : Db → α) :
    Outcome Db.exec I (select query f) (fun a db => a = f db ∧ I db) I := by
  constructor
  · rintro db _ _ hI ⟨⟩
    exact ⟨rfl, hI⟩
  · rintro db _ _ _ ⟨⟩

theorem outcome_orNil (a : Option α) (method : String) :
    Outcome Db.exec I (orNil a method) (fun b db => a = some b ∧ I db) I := by
  cases a with
  | none => exact .raise fun _ h => h
  | some a => exact .ret fun _ h => ⟨rfl, h⟩

theorem outcome_loadStock (method : String) :
    Outcome Db.exec I (self.loadStock method) (fun a db => a.1.row = self.row ∧ I db) I := by
  refine .of_each fun db hI => ?_
  rcases run_loadStock self method db with ⟨self', stock, hrun, -, -, hrow, -⟩ | ⟨hrun, -⟩
  · refine .of_run hrun ?_ (by simp)
    rintro _ ⟨⟩
    exact ⟨hrow, hI⟩
  · exact .of_run hrun (by simp) fun _ _ => hI

theorem outcome_update {assigned : PredictionChanges}
    (h : ∀ db stock, I db → I (db.saved self.row.id (assigned.dirty self.row) stock)) :
    Outcome Db.exec I (self.update assigned) (fun _ => I) I := by
  refine .of_each fun db hI => ?_
  cases hin : self.stockIn db with
  | none => exact .of_run (run_save_missing hin assigned) (by simp) fun _ _ => hI
  | some stock => exact .of_run (run_save hin assigned) (fun _ _ => h db stock hI) (by simp)

/-- What every save of a score keeps, `update_score` keeps. -/
theorem outcome_updateScore
    (h : ∀ db changes stock, changes.active = none → I db → I (db.saved self.row.id changes stock)) :
    Outcome Db.exec I self.updateScore (fun _ => I) I := by
  refine .bind (outcome_percent _ _) fun _ => .bind (outcome_loadStock _) fun loaded => .of_each fun db₀ hI => ?_
  obtain ⟨hrow, hI⟩ := hI
  refine Outcome.at_store (P := I) ?_ hI
  refine .bind (outcome_percent _ _) fun _ => outcome_update fun db stock hI => ?_
  rw [hrow]
  exact h db _ stock rfl hI

theorem outcome_finalUpdateScore
    (h : ∀ db changes stock, changes.active = none → I db → I (db.saved self.row.id changes stock)) :
    Outcome Db.exec I self.finalUpdateScore (fun _ => I) I := by
  refine .bind (outcome_percent _ _) fun _ => .bind (Q := fun _ => I) ?_ fun found =>
    .bind ((outcome_orNil _ _).post fun _ _ h => h.2) fun e =>
      .bind (outcome_percent _ _) fun _ => outcome_update fun db stock hI => h db _ stock rfl hI
  unfold Record.loadPredictionend
  split
  · exact .ret fun _ h => h
  · exact (outcome_select _ _).post fun _ _ h => h.2

/-- A prediction that is not due only has its score saved. -/
theorem outcome_bringUpToDate {db₀ : Db} (hI : I db₀) (hst : self.stockIn db₀ = db₀.stock self.row.stock_id)
    (hdue : NotDue db₀ self.row)
    (h : ∀ db changes stock, changes.active = none → I db → I (db.saved self.row.id changes stock)) :
    Outcome Db.exec (fun db => db = db₀) self.bringUpToDate (fun _ => I) I := by
  have hkept : ∀ db, db = db₀ → I db := fun db hdb => hdb ▸ hI
  refine .bind ((unended_exceedsEndPrice self hdue).conseq (fun _ h => h) (fun _ _ h => h) hkept) fun self' =>
    .of_each fun db hdb => ?_
  obtain ⟨rfl, rfl⟩ := hdb
  refine .bind ((unended_exceedsEndTime hst hdue).conseq (fun _ h => h) (fun _ _ h => h) hkept)
    fun self' => .of_each fun db' hdb' => ?_
  obtain ⟨hkeeps, rfl⟩ := hdb'
  refine (outcome_updateScore ?_).pre hkept
  rw [hkeeps.1]
  exact h

end

/-- Truthful on any tables. -/
def Stmt.Uncounted (stmt : Stmt) : Prop := ∀ db, stmt.Truthful db

theorem uncounted_select (query : Query) : (Stmt.select query).Uncounted := fun _ => trivial

section
variable {α : Type}

theorem Counted.outcome {p : Request α} (hp : p.Only Stmt.Uncounted) :
    Outcome Db.exec Counted p (fun _ => Counted) Counted :=
  hp.outcome fun _ _ hs h => h.exec (hs _)

theorem uncounted_stockSave (self : Stock) {assigned : StockChanges} (h : assigned.active_predictions = none) :
    (self.save assigned).Only Stmt.Uncounted := by
  refine only_stockSave (uncounted_select _) ?_
  intro db n hn
  simp [StockChanges.dirty, dirty, h] at hn

theorem uncounted_create! (self : Stream) : self.create!.Only Stmt.Uncounted :=
  only_streamCreate! (uncounted_select _) fun _ => trivial

theorem uncounted_targetTags (streamable : Ref) (tags : List (Option Ref)) :
    (targetTags streamable tags).Only Stmt.Uncounted :=
  only_targetTags (fun _ => uncounted_select _) (fun _ _ => trivial) tags

theorem uncounted_googleIntraday (ticker_symbol : String) (feed : List Intradayprice) :
    (googleIntraday ticker_symbol feed).Only Stmt.Uncounted := by
  refine .bind ((only_query _ _).2 (uncounted_select _)) fun rows => ?_
  split
  · trivial
  · refine .bind ((only_exec _).2 fun _ => trivial) fun _ => .bind ((only_query _ _).2 (uncounted_select _)) fun _ =>
      .bind ((only_query _ _).2 (uncounted_select _)) fun _ => .bind (only_orNil _ _) fun _ => ?_
    split
    · trivial
    · exact .bind ((only_query _ _).2 (uncounted_select _)) fun _ => .bind (only_orNil _ _) fun _ =>
        .bind (uncounted_stockSave _ rfl) fun _ => trivial

theorem uncounted_viewStock (stock : Stock) (feed : List Intradayprice) :
    (viewStock stock feed).Only Stmt.Uncounted := by
  unfold viewStock
  split
  · exact .bind (uncounted_googleIntraday _ _) fun _ => .bind (uncounted_stockSave _ rfl) fun _ => trivial
  · trivial

theorem uncounted_buildPredictionend (self : Record) : self.buildPredictionend.Only Stmt.Uncounted := by
  refine .bind ?_ fun target => ?_
  · unfold Record.loadPredictionend
    split
    · trivial
    · exact (only_query _ _).2 (uncounted_select _)
  · cases target with
    | none => trivial
    | some e => exact (only_exec _).2 fun _ => trivial

end

/-! ## Requests and jobs -/

/-- No prediction is ended or cancelled, and the stock of a new one passes its validations. -/
def EndsNone (db : Db) : Job → Prop
  | .createPrediction _ _ params => ∀ stock, db.stock params.stock_id = some stock → stock.valid db = true
  | .showPrediction session id => ∀ p, db.sessionUser session ≠ none → db.prediction id = some p → NotDue db p
  | .createPredictionend _ session id _ => ∀ p, db.sessionUser session ≠ none → db.prediction id = some p →
      db.predictionendOf id ≠ none ∨ db.stock p.stock_id = none
  | .predictionEnd => ∀ p ∈ db.activePredictions, NotDue db p
  | job => NothingDue db job

theorem NotDue.saved {db : Db} {p : Prediction} (h : NotDue db p) (id : Nat) (changes : PredictionChanges)
    (stock : Stock) : NotDue (db.saved id changes stock) p := by
  intro found hfound
  obtain ⟨s, hs, hdate, -, hticker⟩ := stock_saved hfound
  have hwindow : ∀ start_time, (db.saved id changes stock).window s.ticker_symbol start_time =
      db.window s.ticker_symbol start_time := by
    intro start_time
    unfold Db.window Db.saved
    rw [counted_intradayprices]
    rfl
  rw [hdate, hticker, hwindow]
  exact h s hs

section
variable {db : Db}

theorem counted_createPrediction (h : Counted db) (parse : String → Option Int) (now : Time) (session : Option Nat)
    (params : PredictionParams) (hv : ∀ stock, db.stock params.stock_id = some stock → stock.valid db = true) :
    Counted ((PredictionsController.create parse now session params).run Db.exec db).2 := by
  have htag : ∀ tag, Counted (db.exec (.insertTag tag)) := fun tag => h.exec trivial
  rcases run_create parse now session params db with
    ⟨e, hrun⟩ | ⟨errors, tag, hrun⟩ | ⟨user, stock, row, tag, refs, -, hstock, -, hrow, ha, -, -, hrun⟩
  · rw [hrun]
    exact h
  · rw [hrun]
    exact htag tag
  · rw [hrun]
    have hmem := List.mem_of_find?_eq_some hstock
    have hfound : (db.exec (.insertTag tag)).stock row.stock_id = some stock := by
      rw [hrow]
      exact h.stock hmem
    have hcreated := (htag tag).created db.tag_seq ha hrow hmem (hv stock hstock)
    refine (Outcome.ok_bind (run_savePrediction hfound db.tag_seq) ?_).store (I := Counted) rfl
    -- All predictions are active, so the second count is the first.
    refine Outcome.at_store (P := Counted) ?_ hcreated
    refine .bind (Q := fun _ => Counted) ?_ fun _ => .ret fun _ h => h
    refine .bind (outcome_select _ _) fun count => ?_
    refine .bind (Q := fun _ => Counted) ?_ fun _ => Counted.outcome ?_
    · refine .of_each fun db₁ hcount => ?_
      obtain ⟨rfl, hdb₁⟩ := hcount
      refine .ok_bind rfl ?_
      split
      · refine .ok_bind rfl (.ret ?_)
        rintro _ rfl
        refine hdb₁.exec ?_
        intro n hn
        have hn : dirty stock.active_predictions (some (db₁.activeOn stock.id)) = some n := hn
        rw [← Option.some.inj (dirty_some hn)]
        exact hdb₁.activeOn stock.id
      · refine .ret ?_
        rintro _ rfl
        exact hdb₁
    · exact .bind (only_orNil _ _) fun _ => .bind (uncounted_create! _) fun _ => .bind (uncounted_create! _) fun _ =>
        .bind (uncounted_targetTags _ _) fun _ => (only_exec _).2 fun _ => trivial

theorem counted_showPrediction (h : Counted db) {session : Option Nat} {id : Nat}
    (hdue : EndsNone db (.showPrediction session id)) :
    Counted ((PredictionsController.show session id).run Db.exec db).2 := by
  refine Outcome.store (P := fun d => d = db) (I := Counted) ?_ rfl
  have hkept : ∀ d, d = db → Counted d := fun d hd => hd ▸ h
  refine .ok_bind (run_currentUser session db) ?_
  cases huser : db.sessionUser session with
  | none => exact .ret hkept
  | some user =>
    refine .ok_bind (a := db.prediction id) rfl ?_
    cases hp : db.prediction id with
    | none => exact .raise hkept
    | some p =>
      refine .ok_bind (a := db.stock p.stock_id) rfl ?_
      refine .bind (Q := fun _ => Counted) ?_ fun _ => .bind (outcome_orNil _ _) fun _ => .ret fun _ h => h.2
      unfold showPrediction
      split
      · have hst : Record.stockIn { row := p, stock := db.stock p.stock_id } db = db.stock p.stock_id := by
          simp [Record.stockIn]
        refine .bind (outcome_bringUpToDate h hst (hdue p (by simp [huser]) hp) ?_) fun _ => .ret fun _ h => h
        intro db' changes stock hc h
        exact h.saved _ hc stock
      · exact .ret hkept

theorem counted_showActivePrediction (h : Counted db) {user : User} {stock : Stock}
    (hdue : ∀ p, db.activePrediction user.id stock.id = some p → NotDue db p) :
    Outcome Db.exec (fun d => d = db) (showActivePrediction user stock) (fun _ => Counted) Counted := by
  have hkept : ∀ d, d = db → Counted d := fun d hd => hd ▸ h
  refine .ok_bind (a := (db.activePrediction user.id stock.id).isSome) rfl ?_
  cases hp : db.activePrediction user.id stock.id with
  | none => exact .ret hkept
  | some p =>
    refine .ok_bind (a := db.activePrediction user.id stock.id) rfl ?_
    rw [hp]
    refine .ok_bind (rfl : (orNil (some p) "exceeds_end_price").run Db.exec db = (.ok p, db)) ?_
    refine .bind (outcome_bringUpToDate (I := Counted) h rfl (hdue p hp) ?_) fun self =>
      Counted.outcome (uncounted_buildPredictionend self)
    intro db' changes stock hc h
    exact h.saved _ hc stock

theorem counted_showStock (h : Counted db) {session : Option Nat} {ticker_symbol : String} {feed : List Intradayprice}
    (hdue : NothingDue db (.showStock session ticker_symbol feed)) :
    Counted ((StocksController.show session ticker_symbol feed).run Db.exec db).2 := by
  refine Outcome.store (P := fun d => d = db) (I := Counted) ?_ rfl
  have hkept : ∀ d, d = db → Counted d := fun d hd => hd ▸ h
  refine .ok_bind (run_currentUser session db) ?_
  cases session with
  | none => exact .ret hkept
  | some id =>
    cases huser : db.sessionUser (some id) with
    | none => exact .ret hkept
    | some user =>
      refine .ok_bind (a := db.stockTicker ticker_symbol) rfl ?_
      cases hstock : db.stockTicker ticker_symbol with
      | none => exact .raise hkept
      | some stock =>
        have hnot := hdue id user stock rfl huser hstock
        refine .ok_bind (rfl : (orNil (some stock) "streams").run Db.exec db = (.ok stock, db)) ?_
        have hview := Counted.outcome (uncounted_viewStock stock feed)
        rcases hrun : (viewStock stock feed).run Db.exec db with ⟨e | _, db₁⟩
        · refine .of_run (run_bind_error Db.exec hrun _) (by simp) ?_
          exact fun _ _ => hview.raised db e db₁ h hrun
        · refine .ok_bind hrun ?_
          rw [hrun] at hnot
          have h₁ := hview.completed db _ db₁ h hrun
          exact .bind (counted_showActivePrediction h₁ hnot) fun _ => .ret fun _ h => h

theorem counted_createPredictionend (h : Counted db) (now : Time) {session : Option Nat} {id : Nat}
    (content : Option String) (hnone : EndsNone db (.createPredictionend now session id content)) :
    Counted ((PredictionendsController.create now session id content).run Db.exec db).2 := by
  cases hp : db.prediction id with
  | none =>
    have hrun : (PredictionendsController.create now session id content).run Db.exec db =
        (.ok (.messages ["prediction has already been canceled"]), db) := by
      simp [PredictionendsController.create, select, hp]
    rw [hrun]
    exact h
  | some p =>
    rw [run_createPredictionend hp]
    split
    · exact h
    · next hended =>
      cases huser : db.sessionUser session with
      | none => exact h
      | some user =>
        have hgone : db.stock p.stock_id = none := by
          rcases hnone p (by simp [huser]) hp with hsome | hgone
          · exact absurd (Option.isSome_iff_ne_none.2 hsome) hended
          · exact hgone
        rw [hgone]
        exact h

theorem counted_predictionEnd (h : Counted db) (hdue : ∀ p ∈ db.activePredictions, NotDue db p) :
    Counted (predictionEnd.run Db.exec db).2 := by
  refine Outcome.store (P := fun d => d = db) (I := Counted) ?_ rfl
  refine .ok_bind (a := db.activePredictions) rfl ?_
  let I (d : Db) : Prop := Counted d ∧ ∀ p ∈ db.activePredictions, NotDue d p
  have hbody : ∀ p ∈ db.activePredictions, Outcome Db.exec I
      (Record.bringUpToDate { row := p } >>= fun _ => return ()) (fun _ => I) I := by
    intro p hp
    refine .bind (.of_each fun d hd => outcome_bringUpToDate hd rfl (hd.2 p hp) ?_) fun _ => .ret fun _ h => h
    intro d' changes stock hc hd'
    exact ⟨hd'.1.saved _ hc stock, fun q hq => (hd'.2 q hq).saved _ _ stock⟩
  exact (Outcome.each _ hbody).conseq (fun d hd => hd ▸ ⟨h, hdue⟩) (fun _ _ h => h.1) fun _ h => h.1

theorem counted_verifyStart (h : Counted db) (prediction_id : Nat) (minute_array : List Intradayprice) :
    Counted ((PredictionstartWorker.perform prediction_id minute_array).run Db.exec db).2 := by
  refine Outcome.store (P := Counted) (I := Counted) ?_ h
  refine .bind (outcome_select _ _) fun found => ?_
  cases found with
  | none => exact .raise fun _ h => h.2
  | some row =>
    refine .bind ((outcome_loadStock _).conseq (fun _ h => h.2) (fun _ _ h => h.2) fun _ h => h) fun ⟨loaded, _⟩ => ?_
    cases minMinute minute_array row.start_time with
    | none => exact .ret fun _ h => h
    | some min_minute =>
      refine .bind (outcome_update ?_) fun _ => .ret fun _ h => h
      intro db' stock h
      exact h.saved _ rfl stock

theorem counted_verifyEnd (h : Counted db) (predictionend_id : Nat) (now : Time) (minute_array : List Intradayprice) :
    Counted ((PredictionendWorker.perform predictionend_id now minute_array).run Db.exec db).2 := by
  refine Outcome.store (P := Counted) (I := Counted) ?_ h
  refine .bind ((outcome_select _ _).post fun _ _ h => h.2) fun found => ?_
  cases found with
  | none => exact .raise fun _ h => h
  | some predictionend =>
    dsimp only
    split
    · refine .bind ((outcome_select _ _).post fun _ _ h => h.2) fun found =>
        .bind ((outcome_orNil _ _).post fun _ _ h => h.2) fun row =>
          .bind ((outcome_loadStock _).post fun _ _ h => h.2) fun ⟨loaded, _⟩ => ?_
      cases minMinute minute_array predictionend.actual_end_time with
      | none => exact .ret fun _ h => h
      | some min_minute =>
        refine .bind (Counted.outcome ((only_exec _).2 fun _ => trivial)) fun _ =>
          .bind (outcome_finalUpdateScore ?_) fun _ => .ret fun _ h => h
        intro db' changes stock hc h
        exact h.saved _ hc stock
    · exact .ret fun _ h => h

end

/-! ## Runs -/

theorem Counted.job {parse : String → Option Int} {db : Db} (h : Counted db) {job : Job} (hj : EndsNone db job) :
    Counted (job.run parse db).2 := by
  have hunanswered : ∀ request : Request Reply, Counted (request.run Db.exec db).2 →
      Counted ((unanswered request).run Db.exec db).2 := by
    intro request hr
    have hrun := run_bind_ret Db.exec request (fun _ => ()) db
    exact hrun ▸ hr
  cases job with
  | createPrediction now session params => exact hunanswered _ (counted_createPrediction h parse now session params hj)
  | showPrediction session id => exact hunanswered _ (counted_showPrediction h hj)
  | showStock session ticker_symbol feed => exact hunanswered _ (counted_showStock h hj)
  | createPredictionend now session prediction_id content =>
    exact hunanswered _ (counted_createPredictionend h now content hj)
  | predictionEnd => exact counted_predictionEnd h hj
  | verifyStart prediction_id minute_array => exact counted_verifyStart h prediction_id minute_array
  | verifyEnd predictionend_id now minute_array => exact counted_verifyEnd h predictionend_id now minute_array
  | googleIntraday ticker_symbol feed =>
    exact (Counted.outcome (uncounted_googleIntraday ticker_symbol feed)).store h

/-- In every state reached from tables without predictions, if no request or job
ends or cancels a prediction, every stock counts its active predictions. A
request or job that raises may be among them. -/
theorem counter_eq_active (parse : String → Option Int) {init db : Db} (hp : init.predictions = [])
    (hkey : init.stocks.Pairwise fun s t => s.id ≠ t.id) (h0 : ∀ stock ∈ init.stocks, stock.active_predictions = 0)
    (h : Serial (fun job db => (Job.run parse job db).2) EndsNone init db) :
    ∀ stock ∈ db.stocks, stock.active_predictions = db.activeOn stock.id := by
  have hinit : Counted init := by
    refine ⟨by simp [hp], hkey, ?_⟩
    intro stock hstock
    rw [h0 stock hstock]
    simp [Db.predictionCount, hp]
  have hcounted : Counted db := h.inv hinit fun _ _ hj hc => hc.job hj
  intro stock hstock
  rw [hcounted.activeOn]
  exact hcounted.counter stock hstock

/-- The stock of `oneStock` after one prediction was made on it. -/
def predictedStock : Stock := ⟨1, "A stock", "ABC", some (1436189400 * 1000000000), some 100, some true, 1⟩

theorem counter_eq_active_predicted :
    predictedStock.active_predictions =
      (Job.predictionEnd.run tuesdayAfternoon predicted).2.activeOn predictedStock.id := by
  have hvalid : EndsNone oneStock mondayForm := by
    intro stock hstock
    obtain rfl := Option.some.inj hstock
    rfl
  have hdue : EndsNone predicted .predictionEnd := fun p hp => notDue_predicted p (mem_activePredictions.1 hp).1
  have hrun : Serial (fun job db => (Job.run tuesdayAfternoon job db).2) EndsNone oneStock
      (Job.predictionEnd.run tuesdayAfternoon predicted).2 :=
    .run (j := .predictionEnd) (.run (j := mondayForm) .init hvalid) hdue
  have hmem : predictedStock ∈ (Job.predictionEnd.run tuesdayAfternoon predicted).2.stocks := by decide
  exact counter_eq_active tuesdayAfternoon rfl (by decide) (by decide) hrun predictedStock hmem

/-- Once the prediction is ended the stock still counts it. -/
theorem counter_counts_ended :
    ¬∀ parse init db, init.predictions = [] → init.stocks.Pairwise (fun s t => s.id ≠ t.id) →
      (∀ stock ∈ init.stocks, stock.active_predictions = 0) →
      Serial (fun job db => (Job.run parse job db).2) (fun _ _ => True) init db →
      ∀ stock ∈ db.stocks, stock.active_predictions = db.activeOn stock.id := by
  intro h
  have hrun := h tuesdayAfternoon oneStock _ rfl (by decide) (by decide)
    (.run (j := giveUp) (.run (j := mondayForm) .init trivial) trivial)
  revert hrun
  decide

end MyStockIQ
