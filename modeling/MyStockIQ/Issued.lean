import MyStockIQ.FanOut
/-!
# No stream is ahead of its item

A new item has no stream yet, because every stream there is belongs to an item
whose id was handed out before. Every request keeps this, but `streams#new`: it
saves whatever stream it is sent, and so a stream may be there before its item.
-/

open SharedStore Prog

namespace MyStockIQ

/-- The id of `row` has been handed out, if it is one of a prediction, a Predictionend or a comment. -/
def Db.Issued (comment_seq : Nat) (db : Db) (row : Ref) : Prop :=
  match row.type with
  | .prediction => row.id < db.prediction_seq
  | .predictionend => row.id < db.predictionend_seq
  | .comment => row.id < comment_seq
  | _ => True

/-- Every stream is of an item whose id has been handed out. -/
def Fed (comment_seq : Nat) (db : Db) : Prop := ∀ stream ∈ db.streams, db.Issued comment_seq stream.streamable

/-! ## One statement -/

section
variable {n : Nat} {db db' : Db}

theorem issued_mono {row : Ref} (hp : db.prediction_seq ≤ db'.prediction_seq)
    (he : db.predictionend_seq ≤ db'.predictionend_seq) (h : db.Issued n row) : db'.Issued n row := by
  obtain ⟨type, id⟩ := row
  cases type with
  | prediction => exact lt_of_lt_of_le h hp
  | predictionend => exact lt_of_lt_of_le h he
  | _ => exact h

theorem issued_exec {row : Ref} (h : db.Issued n row) (stmt : Stmt) : (db.exec stmt).Issued n row := by
  cases stmt with
  | insertPrediction inserted => exact issued_mono (Nat.le_succ db.prediction_seq) le_rfl h
  | insertPredictionend inserted =>
    exact issued_mono (le_refl db.prediction_seq) (Nat.le_succ db.predictionend_seq) h
  | _ => exact issued_mono le_rfl le_rfl h

theorem streams_exec_subset {stmt : Stmt} {stream : Stream} (h : stream ∈ (db.exec stmt).streams) :
    stream ∈ db.streams ∨ stmt = .insertStream stream := by
  cases stmt with
  | insertStream inserted =>
    rcases mem_inserted h with h | rfl
    · exact .inl h
    · exact .inr rfl
  | destroyPrediction id => exact .inl (List.mem_of_mem_filter h)
  | destroyPredictionend prediction_id id => exact .inl (List.mem_of_mem_filter h)
  | _ => exact .inl h

theorem Fed.exec (h : Fed n db) {stmt : Stmt} (hs : ∀ stream, stmt = .insertStream stream → db.Issued n stream.streamable) :
    Fed n (db.exec stmt) := by
  intro stream hmem
  rcases streams_exec_subset hmem with hmem | rfl
  · exact issued_exec (h stream hmem) stmt
  · exact issued_exec (hs stream rfl) _

end

/-! ## Programs -/

/-- The statement inserts no stream, or one of `row`. -/
def Stmt.From (row : Ref) : Stmt → Prop
  | .insertStream stream => stream.streamable = row
  | _ => True

/-- The statement inserts no stream. -/
def Stmt.NoStream : Stmt → Prop
  | .insertStream _ => False
  | _ => True

section
variable {α : Type} {n : Nat} {row : Ref}

theorem Fed.outcome_from {p : Request α} (h : p.Only (Stmt.From row)) :
    Outcome Db.exec (fun db => Fed n db ∧ db.Issued n row) p (fun _ db => Fed n db ∧ db.Issued n row)
      (fun db => Fed n db ∧ db.Issued n row) := by
  refine h.outcome fun db stmt hs ⟨hfed, hrow⟩ => ⟨hfed.exec ?_, issued_exec hrow stmt⟩
  rintro stream rfl
  obtain rfl : stream.streamable = row := hs
  exact hrow

/-- However it ends, the program puts no stream ahead of its item. -/
abbrev Feeds (n : Nat) (p : Request α) : Prop := Outcome Db.exec (Fed n) p (fun _ => Fed n) (Fed n)

theorem feeds_noStream {p : Request α} (h : p.Only Stmt.NoStream) : Feeds n p := by
  refine h.outcome fun db stmt hs hfed => hfed.exec ?_
  rintro stream rfl
  exact hs.elim

theorem Stmt.NoStream.from {stmt : Stmt} (h : stmt.NoStream) : stmt.From row := by
  cases stmt with
  | insertStream stream => exact h.elim
  | _ => trivial

theorem BaseGrows.from {p : Request α} (h : p.Only (Posts.BaseGrows row)) : p.Only (Stmt.From row) := by
  refine h.mono fun stmt hs => ?_
  cases stmt with
  | insertStream stream => exact hs
  | _ => trivial

theorem noStream_loadStock (self : Record) (method : String) : (self.loadStock method).Only Stmt.NoStream := by
  unfold Record.loadStock
  split
  · trivial
  · exact .bind ((only_query _ _).2 trivial) fun found => .bind (only_orNil _ _) fun _ => trivial

theorem noStream_stockSave (stock : Stock) (assigned : StockChanges) : (stock.save assigned).Only Stmt.NoStream :=
  only_stockSave trivial trivial

theorem noStream_loadPredictionend (self : Record) : self.loadPredictionend.Only Stmt.NoStream := by
  unfold Record.loadPredictionend
  split
  · trivial
  · exact (only_query _ _).2 trivial

theorem noStream_buildPredictionend (self : Record) : self.buildPredictionend.Only Stmt.NoStream := by
  refine .bind (noStream_loadPredictionend self) fun target => ?_
  cases target with
  | none => trivial
  | some predictionend => exact (only_exec _).2 trivial

theorem noStream_googleIntraday (ticker_symbol : String) (feed : List Intradayprice) :
    (googleIntraday ticker_symbol feed).Only Stmt.NoStream := by
  refine .bind ((only_query _ _).2 trivial) fun rows => ?_
  split
  · trivial
  · refine .bind ((only_exec _).2 trivial) fun _ => .bind ((only_query _ _).2 trivial) fun _ =>
      .bind ((only_query _ _).2 trivial) fun _ => .bind (only_orNil _ _) fun _ => ?_
    split
    · trivial
    · exact .bind ((only_query _ _).2 trivial) fun _ => .bind (only_orNil _ _) fun _ =>
        .bind (noStream_stockSave _ _) fun _ => trivial

theorem noStream_viewStock (stock : Stock) (feed : List Intradayprice) : (viewStock stock feed).Only Stmt.NoStream := by
  unfold viewStock
  split
  · exact .bind (noStream_googleIntraday _ _) fun _ => .bind (noStream_stockSave _ _) fun _ => trivial
  · trivial

theorem noStream_currentUser (session : Option Nat) : (currentUser session).Only Stmt.NoStream := by
  cases session with
  | none => trivial
  | some id => exact (only_query _ _).2 trivial

theorem noStream_addTags (content : Option String) (ticker_symbol : String) (tagable_type : ClassName)
    (tagable_id : Option Nat) : (addTags content ticker_symbol tagable_type tagable_id).Only Stmt.NoStream :=
  only_addTags (fun _ => trivial) (fun _ => trivial) (fun _ => trivial) _ _ _ _

theorem feeds_redirectNonUser {session : Option Nat} {action : User → Request Reply} (h : ∀ user, Feeds n (action user)) :
    Feeds n (redirectNonUser session action) := by
  refine .bind (feeds_noStream (noStream_currentUser session)) fun current_user => ?_
  cases current_user with
  | none => exact .ret fun _ h => h
  | some user => exact h user

theorem from_announce (self : Record) (predictionend : Predictionend) :
    (self.announce predictionend).Only (Stmt.From ⟨.predictionend, predictionend.id⟩) := by
  have hstock (self : Record) (method : String) : (self.loadStock method).Only (Stmt.From ⟨.predictionend, predictionend.id⟩) :=
    (noStream_loadStock self method).mono fun _ => Stmt.NoStream.from
  have huser : (self.loadUser "id").Only (Stmt.From ⟨.predictionend, predictionend.id⟩) := by
    unfold Record.loadUser
    split
    · trivial
    · exact .bind ((only_query _ _).2 trivial) fun found => .bind (only_orNil _ _) fun _ => trivial
  exact .bind ((only_exec _).2 trivial) fun _ => .bind huser fun _ => .bind (only_streamSave trivial rfl) fun _ =>
    .bind (hstock _ _) fun _ => .bind (only_streamSave trivial rfl) fun _ => trivial

end

/-! ## Endings and updates -/

section
variable {n : Nat} {self : Record}

theorem noStream_update (self : Record) (assigned : PredictionChanges) : (self.update assigned).Only Stmt.NoStream :=
  .bind (noStream_loadStock _ _) fun _ => .bind ((only_exec _).2 trivial) fun _ =>
    .bind (.bind ((only_query _ _).2 trivial) fun _ => noStream_stockSave _ _) fun _ => trivial

theorem noStream_updateScore (self : Record) : self.updateScore.Only Stmt.NoStream :=
  .bind (only_percent _ _) fun _ => .bind (noStream_loadStock _ _) fun _ => .bind (only_percent _ _) fun _ =>
    noStream_update _ _

theorem noStream_finalUpdateScore (self : Record) : self.finalUpdateScore.Only Stmt.NoStream :=
  .bind (only_percent _ _) fun _ => .bind (noStream_loadPredictionend _) fun _ => .bind (only_orNil _ _) fun _ =>
    .bind (only_percent _ _) fun _ => noStream_update _ _

/-- The Predictionend that is inserted gets an id that was not handed out before, and is now. -/
theorem outcome_insertPredictionend (row : Predictionend) :
    Outcome Db.exec (Fed n) (insertPredictionend row) (fun predictionend db =>
      Fed n db ∧ db.Issued n ⟨.predictionend, predictionend.id⟩) (Fed n) := by
  refine .of_each fun db h => .of_run rfl ?_ (by simp)
  rintro _ ⟨⟩
  exact ⟨h.exec (by simp), Nat.lt_succ_self db.predictionend_seq⟩

/-- An ending, whatever is announced of it. -/
theorem outcome_ending {α : Type} (row : Predictionend) {f : Predictionend → Request α}
    (hf : ∀ predictionend, (f predictionend).Only (Stmt.From ⟨.predictionend, predictionend.id⟩)) :
    Feeds n ((insertPredictionend row).bind f) :=
  .bind (outcome_insertPredictionend row) fun predictionend =>
    (Fed.outcome_from (hf predictionend)).conseq (fun _ h => h) (fun _ _ h => h.1) fun _ h => h.1

theorem feeds_endAt (self : Record) (time : Time) (price : Option Rat) :
    Feeds n (self.endAt time price) :=
  .bind (feeds_noStream (noStream_update _ _)) fun _ => .bind (feeds_noStream (noStream_buildPredictionend _)) fun _ =>
    outcome_ending _ fun _ => from_announce _ _

theorem feeds_scan (prices : List Intradayprice) :
    Feeds n (self.scan prices) := by
  induction prices with
  | nil => exact .ret fun _ h => h
  | cons price prices ih =>
    unfold Record.scan
    split
    · exact .raise fun _ h => h
    · split
      · exact feeds_endAt _ _ _
      · exact ih

theorem feeds_bringUpToDate (self : Record) : Feeds n self.bringUpToDate := by
  have hprice (self : Record) : Feeds n self.exceedsEndPrice := by
    refine .bind (feeds_noStream ((only_query _ _).2 trivial)) fun found => ?_
    cases found with
    | none => exact .raise fun _ h => h
    | some stock => exact .bind (feeds_noStream ((only_query _ _).2 trivial)) fun _ => feeds_scan _
  have htime (self : Record) : Feeds n self.exceedsEndTime := by
    refine .bind (feeds_noStream (noStream_loadStock _ _)) fun _ => .bind (feeds_noStream (only_orNil _ _)) fun _ => ?_
    split
    · exact feeds_endAt _ _ _
    · exact .ret fun _ h => h
  exact .bind (hprice self) fun _ => .bind (htime _) fun _ => feeds_noStream (noStream_updateScore _)

theorem feeds_endByHand (self : Record) (stock : Stock) (current_user : User) (now : Time) (content : Option String) :
    Feeds n (endByHand self stock current_user now content) := by
  refine .bind (feeds_noStream (noStream_update _ _)) fun _ => .bind (feeds_noStream (noStream_buildPredictionend _)) fun _ =>
    .bind (feeds_noStream (only_orNil _ _)) fun _ => outcome_ending _ fun predictionend => ?_
  have htags := noStream_addTags content stock.ticker_symbol .predictionend (some predictionend.id)
  exact .bind ((only_exec _).2 trivial) fun _ => .bind (htags.mono fun _ => Stmt.NoStream.from) fun _ =>
    .bind (only_streamCreate! trivial rfl) fun _ => .bind (only_streamCreate! trivial rfl) fun _ =>
      only_targetTags (fun _ => trivial) (fun _ => rfl) _

end

/-! ## Requests and jobs -/

section
variable {n : Nat}

theorem feeds_predictionsShow (session : Option Nat) (id : Nat) : Feeds n (PredictionsController.show session id) := by
  refine feeds_redirectNonUser fun _ => .bind (feeds_noStream ((only_query _ _).2 trivial)) fun _ =>
    .bind (feeds_noStream (only_orNil _ _)) fun row => .bind (feeds_noStream ((only_query _ _).2 trivial)) fun _ =>
      .bind ?_ fun _ => .bind (feeds_noStream (only_orNil _ _)) fun _ => .ret fun _ h => h
  unfold showPrediction
  split
  · exact .bind (feeds_bringUpToDate _) fun _ => .ret fun _ h => h
  · exact .ret fun _ h => h

theorem feeds_showActivePrediction (current_user : User) (stock : Stock) :
    Feeds n (showActivePrediction current_user stock) := by
  refine .bind (feeds_noStream ((only_query _ _).2 trivial)) fun exists_ => ?_
  cases exists_ with
  | false => exact .ret fun _ h => h
  | true =>
    exact .bind (feeds_noStream ((only_query _ _).2 trivial)) fun _ => .bind (feeds_noStream (only_orNil _ _)) fun _ =>
      .bind (feeds_bringUpToDate _) fun _ => feeds_noStream (noStream_buildPredictionend _)

theorem feeds_stocksShow (session : Option Nat) (ticker_symbol : String) (feed : List Intradayprice) :
    Feeds n (StocksController.show session ticker_symbol feed) :=
  feeds_redirectNonUser fun _ => .bind (feeds_noStream ((only_query _ _).2 trivial)) fun _ =>
    .bind (feeds_noStream (only_orNil _ _)) fun _ => .bind (feeds_noStream (noStream_viewStock _ _)) fun _ =>
      .bind (feeds_showActivePrediction _ _) fun _ => .ret fun _ h => h

theorem feeds_closePrediction (row : Prediction) (now : Time) (session : Option Nat) (content : Option String) :
    Feeds n (closePrediction row now session content) := by
  refine .bind (feeds_noStream (noStream_currentUser _)) fun _ => .bind (feeds_noStream (only_orNil _ _)) fun _ =>
    .bind (feeds_noStream (noStream_loadStock _ _)) fun loaded => .bind (feeds_noStream ?_) fun ended => ?_
  · unfold startedOrChildren
    split
    · trivial
    · exact (only_query _ _).2 trivial
  · cases ended with
    | true => exact .bind (feeds_endByHand _ _ _ _ _) fun _ => .ret fun _ h => h
    | false =>
      exact .bind (feeds_noStream (.bind (noStream_buildPredictionend _) fun _ => (only_exec _).2 trivial)) fun _ =>
        .ret fun _ h => h

theorem feeds_predictionendsCreate (now : Time) (session : Option Nat) (prediction_id : Nat) (content : Option String) :
    Feeds n (PredictionendsController.create now session prediction_id content) := by
  refine .bind (feeds_noStream ((only_query _ _).2 trivial)) fun exists_ => ?_
  cases exists_ with
  | false => exact .ret fun _ h => h
  | true =>
    refine .bind (feeds_noStream ((only_query _ _).2 trivial)) fun _ => .bind (feeds_noStream (only_orNil _ _)) fun row =>
      .bind (feeds_noStream ((only_query _ _).2 trivial)) fun ended => ?_
    cases ended with
    | true => exact .ret fun _ h => h
    | false => exact feeds_closePrediction _ _ _ _

/-- The prediction that is saved gets an id that was not handed out before, and is now. -/
theorem outcome_savePrediction (row : Prediction) (tag_id : Nat) :
    Outcome Db.exec (Fed n) (savePrediction row tag_id) (fun prediction db =>
      Fed n db ∧ db.Issued n ⟨.prediction, prediction.id⟩) (Fed n) := by
  refine .bind (feeds_noStream ((only_query _ _).2 trivial)) fun found => .bind (feeds_noStream (only_orNil _ _)) fun stock =>
    .bind (Q := fun id db => Fed n db ∧ db.Issued n ⟨.prediction, id⟩) ?_ fun id => ?_
  · refine .of_each fun db h => .of_run rfl ?_ (by simp)
    rintro _ ⟨⟩
    exact ⟨h.exec (by simp), Nat.lt_succ_self db.prediction_seq⟩
  · have hrest : (updateStockPredictionCount stock).Only Stmt.NoStream :=
      .bind ((only_query _ _).2 trivial) fun _ => noStream_stockSave _ _
    have hkept {α : Type} {p : Request α} (hp : p.Only Stmt.NoStream) : Outcome Db.exec
        (fun db => Fed n db ∧ db.Issued n ⟨.prediction, id⟩) p (fun _ db => Fed n db ∧ db.Issued n ⟨.prediction, id⟩) (Fed n) :=
      (Fed.outcome_from (hp.mono fun _ => Stmt.NoStream.from)).conseq (fun _ h => h) (fun _ _ h => h) fun _ h => h.1
    exact .bind (hkept ((only_exec _).2 trivial)) fun _ => .bind (hkept hrest) fun _ => .ret fun _ h => h

theorem Fed.create {db : Db} (h : Fed n db) (parse : String → Option Int) (now : Time) (session : Option Nat)
    (params : PredictionParams) : Fed n ((PredictionsController.create parse now session params).run Db.exec db).2 := by
  rcases run_create parse now session params db with
    ⟨e, hrun⟩ | ⟨errors, tag, hrun⟩ | ⟨user, stock, row, tag, refs, -, -, -, -, -, -, -, hrun⟩
  · rw [hrun]
    exact h
  · rw [hrun]
    exact h.exec (by simp)
  · rw [hrun]
    refine Outcome.store (.bind (outcome_savePrediction row db.tag_seq) fun prediction => ?_) (h.exec (by simp))
    refine .bind (Q := fun _ => Fed n) ?_ fun _ => .ret fun _ h => h
    exact (Fed.outcome_from (BaseGrows.from (Posts.grows_announcePrediction _ _ _ _))).conseq (fun _ h => h)
      (fun _ _ h => h.1) fun _ h => h.1

theorem feeds_predictionEnd : Feeds n predictionEnd := by
  refine .bind (feeds_noStream ((only_query _ _).2 trivial)) fun rows => ?_
  exact .each rows fun row _ => .bind (feeds_bringUpToDate _) fun _ => .ret fun _ h => h

theorem noStream_verifyStart (prediction_id : Nat) (minute_array : List Intradayprice) :
    (PredictionstartWorker.perform prediction_id minute_array).Only Stmt.NoStream := by
  refine .bind ((only_query _ _).2 trivial) fun found => ?_
  cases found with
  | none => trivial
  | some row =>
    refine .bind (noStream_loadStock _ _) fun ⟨loaded, _⟩ => ?_
    dsimp only
    cases minMinute minute_array row.start_time with
    | none => trivial
    | some minute => exact .bind (noStream_update _ _) fun _ => trivial

theorem noStream_verifyEnd (predictionend_id : Nat) (now : Time) (minute_array : List Intradayprice) :
    (PredictionendWorker.perform predictionend_id now minute_array).Only Stmt.NoStream := by
  refine .bind ((only_query _ _).2 trivial) fun found => ?_
  cases found with
  | none => trivial
  | some predictionend =>
    dsimp only
    split
    · refine .bind ((only_query _ _).2 trivial) fun _ => .bind (only_orNil _ _) fun _ =>
        .bind (noStream_loadStock _ _) fun ⟨loaded, _⟩ => ?_
      dsimp only
      cases minMinute minute_array predictionend.actual_end_time with
      | none => trivial
      | some minute => exact .bind ((only_exec _).2 trivial) fun _ => .bind (noStream_finalUpdateScore _) fun _ => trivial
    · trivial

theorem Fed.job {parse : String → Option Int} {db : Db} (h : Fed n db) (job : Job) : Fed n (job.run parse db).2 := by
  have hanswered {request : Request Reply} (hr : Feeds n request) : Feeds n (unanswered request) :=
    .bind hr fun _ => .ret fun _ h => h
  cases job with
  | createPrediction now session params =>
    have hrun := run_bind_ret Db.exec (PredictionsController.create parse now session params) (fun _ => ()) db
    exact hrun ▸ h.create parse now session params
  | showPrediction session id => exact (hanswered (feeds_predictionsShow session id)).store h
  | showStock session ticker_symbol feed => exact (hanswered (feeds_stocksShow session ticker_symbol feed)).store h
  | createPredictionend now session prediction_id content =>
    exact (hanswered (feeds_predictionendsCreate now session prediction_id content)).store h
  | predictionEnd => exact feeds_predictionEnd.store h
  | verifyStart prediction_id minute_array => exact (feeds_noStream (noStream_verifyStart prediction_id minute_array)).store h
  | verifyEnd predictionend_id now minute_array =>
    exact (feeds_noStream (noStream_verifyEnd predictionend_id now minute_array)).store h
  | googleIntraday ticker_symbol feed => exact (feeds_noStream (noStream_googleIntraday ticker_symbol feed)).store h

theorem Fed.action {parse : String → Option Int} {db : Db} (h : Fed n db) (action : Action) : Fed n (action.run parse db) := by
  cases action with
  | request job => exact h.job job
  | createUser row => exact h
  | destroyUser username =>
    simp only [Action.run, Db.destroyUser]
    cases db.userNamed username with
    | none => exact h
    | some user => exact fun stream hmem => h stream (List.mem_of_mem_filter hmem)
  | quandlAllstocks rows => exact h
  | googleDaily ticker_symbol date close_price =>
    refine (feeds_noStream ?_).store h
    exact .bind ((only_query _ _).2 trivial) fun _ => .bind (only_orNil _ _) fun _ => .bind (noStream_stockSave _ _) fun _ =>
      trivial

end

end MyStockIQ
