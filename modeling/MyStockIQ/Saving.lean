import MyStockIQ.Endings
/-!
# What a request writes, on all tables

`Db.core` leaves the stocks and the streams out. Here a save is followed through:
the row of the prediction, then the counter of its stock as
`update_stock_prediction_count` leaves it. A stock that does not pass its own
validations is not written. The tags of a text and the streams of a row are
followed through too.
-/

open SharedStore Prog

namespace MyStockIQ

/-- `stock.predictions.count` -/
def Db.predictionCount (db : Db) (stock_id : Nat) : Nat := (db.predictions.filter (·.stock_id = stock_id)).length

/-- What `update_stock_prediction_count` assigns. -/
def Db.recount (db : Db) (stock : Stock) : StockChanges :=
  StockChanges.dirty { active_predictions := some (db.predictionCount stock.id) } stock

/-- The tables after `update_stock_prediction_count` on a stock object. -/
def Db.counted (db : Db) (stock : Stock) : Db :=
  if stock.valid db then db.exec (.updateStock stock.id (db.recount stock)) else db

/-- The stock object after that. -/
def Stock.counted (stock : Stock) (db : Db) : Stock :=
  if stock.valid db then (db.recount stock).set stock else stock

theorem run_counted (stock : Stock) (db : Db) :
    (updateStockPredictionCount stock).run Db.exec db = (.ok (stock.counted db), db.counted stock) := by
  unfold Stock.counted Db.counted
  simp only [updateStockPredictionCount, Stock.save, select, bind_eq, query_bind, run_step, exec_select]
  split
  · rfl
  · rfl

section
variable (db : Db) (stock : Stock)

@[simp] theorem counted_intradayprices : (db.counted stock).intradayprices = db.intradayprices := by
  unfold Db.counted; split <;> rfl

@[simp] theorem counted_predictions : (db.counted stock).predictions = db.predictions := by
  unfold Db.counted; split <;> rfl

@[simp] theorem counted_predictionends : (db.counted stock).predictionends = db.predictionends := by
  unfold Db.counted; split <;> rfl

@[simp] theorem counted_streams : (db.counted stock).streams = db.streams := by unfold Db.counted; split <;> rfl

@[simp] theorem counted_popularities : (db.counted stock).popularities = db.popularities := by
  unfold Db.counted; split <;> rfl

@[simp] theorem counted_tags : (db.counted stock).tags = db.tags := by unfold Db.counted; split <;> rfl

@[simp] theorem counted_predictionend_seq : (db.counted stock).predictionend_seq = db.predictionend_seq := by
  unfold Db.counted; split <;> rfl

end

theorem stock_update (db : Db) (id : Nat) (changes : StockChanges) :
    (db.exec (.updateStock id changes)).stock id = (db.stock id).map changes.set :=
  find_updated_self Stock.id changes.set (fun _ => rfl) id db.stocks

/-- An `UPDATE` that changes nothing. -/
theorem updated_eq_self {α κ : Type} [DecidableEq κ] (key : α → κ) (set : α → α) (id : κ) (rows : List α)
    (h : ∀ row, set row = row) : (rows.map fun row => if key row = id then set row else row) = rows := by
  simp [h]

/-- Counting changes nothing if the stock is not valid, or the counter is what it counts already. -/
theorem counted_eq_self {db : Db} {stock : Stock} {id : Nat} (h : db.stock id = some stock) :
    db.counted stock = db ↔ stock.valid db = false ∨ stock.active_predictions = db.predictionCount stock.id := by
  obtain rfl : stock.id = id := by simpa using List.find?_some h
  unfold Db.counted
  cases hv : stock.valid db with
  | false => simp
  | true =>
    simp only [if_true, reduceCtorEq, false_or]
    constructor
    · intro heq
      have hstock := stock_update db stock.id (db.recount stock)
      rw [heq, h, Option.map_some, Option.some.injEq] at hstock
      have hcount := congrArg Stock.active_predictions hstock
      simpa [StockChanges.set, Db.recount, StockChanges.dirty] using hcount
    · intro heq
      have hnone : db.recount stock = {} := by
        simp [Db.recount, StockChanges.dirty, dirty, heq]
      rw [hnone]
      simp only [Db.exec]
      rw [updated_eq_self Stock.id _ _ _ fun row => ?_]
      simp [StockChanges.set]

/-- The tables after a save of a prediction on a stock. -/
def Db.saved (db : Db) (id : Nat) (changes : PredictionChanges) (stock : Stock) : Db :=
  (db.exec (.updatePrediction id changes)).counted stock

/-- A stock read back after a save differs by its counter only. -/
theorem stock_saved {db : Db} {id other : Nat} {changes : PredictionChanges} {stock found : Stock}
    (h : (db.saved id changes stock).stock other = some found) : ∃ s, db.stock other = some s ∧
      found.date = s.date ∧ found.daily_stock_price = s.daily_stock_price ∧ found.ticker_symbol = s.ticker_symbol := by
  unfold Db.saved Db.counted at h
  split at h
  · rw [Db.stock] at h
    have hfind := find_updated Stock.id ((db.exec (.updatePrediction id changes)).recount stock).set (fun _ => rfl)
      stock.id other db.stocks
    obtain ⟨s, hs, rfl⟩ := Option.map_eq_some_iff.1 (hfind.symm.trans h)
    refine ⟨s, hs, ?_⟩
    split
    · exact ⟨rfl, rfl, rfl⟩
    · exact ⟨rfl, rfl, rfl⟩
  · exact ⟨found, h, rfl, rfl, rfl⟩

theorem run_loadStock_eq {self : Record} {stock : Stock} {db : Db} (h : self.stockIn db = some stock) (method : String) :
    (self.loadStock method).run Db.exec db = (.ok ({ self with stock := some stock }, stock), db) := by
  unfold Record.stockIn at h
  unfold Record.loadStock
  cases hs : self.stock with
  | some loaded =>
    rw [hs, Option.some_or] at h
    obtain rfl := Option.some.inj h
    simp [← hs]
  | none =>
    rw [hs, Option.none_or] at h
    simp [select, h, orNil]

/-- A save with its stock there: what it returns, and the tables it leaves. -/
theorem run_save {self : Record} {stock : Stock} {db : Db} (h : self.stockIn db = some stock)
    (assigned : PredictionChanges) :
    (self.update assigned).run Db.exec db =
      (.ok { self with
          row := assigned.set self.row
          stock := some (stock.counted (db.exec (.updatePrediction self.row.id (assigned.dirty self.row)))) },
        db.saved self.row.id (assigned.dirty self.row) stock) := by
  refine (run_bind_ok Db.exec (run_loadStock_eq h _) _).trans ?_
  simp only [write, bind_eq, exec_bind, run_step]
  rw [run_bind_ok Db.exec (run_counted _ _)]
  simp [PredictionChanges.set_dirty, Db.saved]

theorem run_save_missing {self : Record} {db : Db} (h : self.stockIn db = none) (assigned : PredictionChanges) :
    (self.update assigned).run Db.exec db = (.error (.noMethodError "active_predictions="), db) := by
  rcases run_update self assigned db with ⟨_, stock, _, _, -, hin, -⟩ | ⟨hrun, -⟩
  · rw [h] at hin
    cases hin
  · exact hrun

/-! ## Streams -/

theorem run_saveStream (self : Stream) (db : Db) :
    self.save.run Db.exec db = if self ∈ db.streams then (.ok false, db) else (.ok true, db.exec (.insertStream self)) := by
  simp only [Stream.save, select, write, bind_eq, query_bind, run_step, exec_select, List.contains_eq_mem,
    decide_eq_true_eq]
  split
  · rfl
  · rfl

/-- `streams.create!` raises on a stream that is there, and saves any other. -/
theorem run_create! (self : Stream) (db : Db) :
    self.create!.run Db.exec db =
      if self ∈ db.streams then (.error .recordInvalid, db) else (.ok (), db.exec (.insertStream self)) := by
  have hsave := run_saveStream self db
  unfold Stream.create!
  split
  · next hmem =>
    rw [if_pos hmem] at hsave
    exact run_bind_ok Db.exec hsave _
  · next hmem =>
    rw [if_neg hmem] at hsave
    exact run_bind_ok Db.exec hsave _

/-- The tables with more streams. -/
def Db.withStreams (db : Db) (more : List Stream) : Db := { db with streams := db.streams ++ more }

theorem run_streamSave (self : Stream) (db : Db) :
    ∃ saved more, self.save.run Db.exec db = (.ok saved, db.withStreams more) := by
  rw [run_saveStream]
  split
  · exact ⟨false, [], by simp [Db.withStreams]⟩
  · exact ⟨true, [self], rfl⟩

/-- Targets that were found only add streams. -/
theorem run_targetTags (streamable : Ref) (refs : List Ref) (db : Db) :
    ∃ more, (targetTags streamable (refs.map some)).run Db.exec db = (.ok (), db.withStreams more) := by
  induction refs generalizing db with
  | nil => exact ⟨[], by simp [targetTags, Prog.each, Db.withStreams]⟩
  | cons ref refs ih =>
    obtain ⟨saved, more, hsave⟩ := run_streamSave ⟨streamable, ref⟩ db
    obtain ⟨rest, hrest⟩ := ih (db.withStreams more)
    refine ⟨more ++ rest, ?_⟩
    have hbody : ((orNil (some ref) "id") >>= fun targetable => Stream.save ⟨streamable, targetable⟩ >>= fun _ =>
        (return () : Request Unit)).run Db.exec db = (.ok (), db.withStreams more) := by
      simp only [orNil, bind_eq, ret_bind]
      exact run_bind_ok Db.exec hsave _
    refine (run_bind_ok Db.exec hbody _).trans (hrest.trans ?_)
    simp [Db.withStreams]

/-! ## Tags -/

theorem run_lookup (kind : TagKind) (name : String) (db : Db) :
    (kind.lookup name).run Db.exec db = (.ok ((kind.find db name).map fun id => some ⟨kind.type, id⟩), db) := by
  simp only [TagKind.lookup, select, bind_eq, query_bind, run_step, exec_select]
  cases hfind : kind.find db name with
  | none => rfl
  | some id => simp [hfind]

/-- What a word after its sign names. -/
def TagKind.targets (kind : TagKind) (db : Db) (word : String) : List Ref :=
  match kind.find db word with
  | some id => [⟨kind.type, id⟩]
  | none => ((kind.find db (withoutLast word)).map (⟨kind.type, ·⟩)).toList

def Db.wordTargets (db : Db) (word : String) : List Ref :=
  match word.toList with
  | '$' :: rest => stockTag.targets db (String.ofList rest)
  | '@' :: rest => userTag.targets db (String.ofList rest)
  | _ => []

theorem run_tag (kind : TagKind) (word : String) (db : Db) :
    ∃ tagged : String, (kind.tag word).run Db.exec db = (.ok (tagged, (kind.targets db word).map some), db) := by
  unfold TagKind.tag TagKind.targets
  rw [bind_eq, run_bind_ok Db.exec (run_lookup kind word db)]
  cases kind.find db word with
  | some id => exact ⟨_, rfl⟩
  | none =>
    rw [Option.map_none, bind_eq, run_bind_ok Db.exec (run_lookup kind (withoutLast word) db)]
    cases kind.find db (withoutLast word) with
    | some id => exact ⟨_, rfl⟩
    | none => exact ⟨_, rfl⟩

theorem wordTargets_stock {word : String} {rest : List Char} (h : word.toList = '$' :: rest) (db : Db) :
    db.wordTargets word = stockTag.targets db (String.ofList rest) := by
  simp [Db.wordTargets, h]

theorem wordTargets_user {word : String} {rest : List Char} (h : word.toList = '@' :: rest) (db : Db) :
    db.wordTargets word = userTag.targets db (String.ofList rest) := by
  simp [Db.wordTargets, h]

theorem wordTargets_none {word : String} (hstock : ∀ rest, word.toList = '$' :: rest → False)
    (huser : ∀ rest, word.toList = '@' :: rest → False) (db : Db) : db.wordTargets word = [] := by
  unfold Db.wordTargets
  split
  · next rest h => exact (hstock rest h).elim
  · next rest h => exact (huser rest h).elim
  · rfl

theorem run_tagWord (word : String) (db : Db) :
    ∃ tagged : String, (tagWord word).run Db.exec db = (.ok (tagged, (db.wordTargets word).map some), db) := by
  unfold tagWord
  split
  · next rest h =>
    rw [wordTargets_stock h]
    exact run_tag stockTag _ db
  · next rest h =>
    rw [wordTargets_user h]
    exact run_tag userTag _ db
  · next hstock huser =>
    rw [wordTargets_none hstock huser]
    exact ⟨word, rfl⟩

/-- Run alone, every word that is looked up and found is found again. -/
theorem run_tagWords (words : List String) (db : Db) : ∃ tagged : List String,
    (tagWords words).run Db.exec db = (.ok (tagged, (words.flatMap db.wordTargets).map some), db) := by
  induction words with
  | nil => exact ⟨[], rfl⟩
  | cons word rest ih =>
    obtain ⟨tagged, hword⟩ := run_tagWord word db
    obtain ⟨taggedRest, hrest⟩ := ih
    refine ⟨tagged :: taggedRest, ?_⟩
    refine (run_bind_ok Db.exec hword _).trans ((run_bind_ok Db.exec hrest _).trans ?_)
    rw [List.flatMap_cons, List.map_append]
    rfl

/-- What a text targets, after the ticker symbol that is put first. -/
def Db.targets (db : Db) (ticker_symbol content : String) : List Ref :=
  (("$" ++ ticker_symbol) :: words content).flatMap db.wordTargets

/-- `add_tags` on a text saves one Tag, and what it targets is there. -/
theorem run_addTags (content ticker_symbol : String) (tagable_type : ClassName) (tagable_id : Option Nat) (db : Db) :
    ∃ text : String, (addTags (some content) ticker_symbol tagable_type tagable_id).run Db.exec db =
      (.ok (db.tag_seq, (db.targets ticker_symbol content).map some),
        db.exec (.insertTag ⟨0, text, tagable_type, tagable_id⟩)) := by
  obtain ⟨tagged, hwords⟩ := run_tagWords (("$" ++ ticker_symbol) :: words content) db
  refine ⟨String.intercalate " " tagged, ?_⟩
  simp only [addTags, orNil, bind_eq, ret_bind]
  exact run_bind_ok Db.exec hwords _

/-! ## Creating a prediction -/

/-- The user of the session. -/
def Db.sessionUser (db : Db) (session : Option Nat) : Option User := session.bind db.user

theorem run_currentUser (session : Option Nat) (db : Db) :
    (currentUser session).run Db.exec db = (.ok (db.sessionUser session), db) := by
  cases session with
  | none => rfl
  | some id => rfl

theorem run_savePrediction {row : Prediction} {stock : Stock} {db : Db} (h : db.stock row.stock_id = some stock)
    (tag_id : Nat) : (savePrediction row tag_id).run Db.exec db =
      (.ok { row with id := db.prediction_seq },
        ((db.exec (.insertPrediction row)).exec (.attachTag tag_id db.prediction_seq)).counted stock) := by
  simp only [savePrediction, select, write, bind_eq, query_bind, exec_bind, step_bind, run_step, exec_select, h, orNil,
    ret_bind]
  exact run_bind_ok Db.exec (run_counted _ _) _

/-- A program without statements returns or raises. -/
theorem ret_or_raise {α : Type} {p : Request α} (h : p.Only fun _ => False) : (∃ a, p = .ret a) ∨ ∃ e, p = .raise e := by
  cases p with
  | ret a => exact .inl ⟨a, rfl⟩
  | raise e => exact .inr ⟨e, rfl⟩
  | step l k => exact h.1.elim

/-- `create` raises and writes nothing, or saves the Tag and ends, or goes on to save a
prediction of the session's user at the price the stock has, and to announce it to all it targets.
It only does so if the user has none that is active. -/
theorem run_create_unpredicted (parse : String → Option Int) (now : Time) (session : Option Nat) (params : PredictionParams)
    (db : Db) :
    (∃ e, (PredictionsController.create parse now session params).run Db.exec db = (.error e, db)) ∨
    (∃ errors tag, (PredictionsController.create parse now session params).run Db.exec db =
      (.ok (.messages errors), db.exec (.insertTag tag))) ∨
    ∃ user stock row tag refs, db.sessionUser session = some user ∧ db.stock params.stock_id = some stock ∧
      row.user_id = user.id ∧ row.stock_id = stock.id ∧ row.active = true ∧ row.start_price = stock.daily_stock_price ∧
      (∃ content, params.content = some content ∧ refs = db.targets stock.ticker_symbol content) ∧
      db.activePrediction user.id stock.id = none ∧
      (PredictionsController.create parse now session params).run Db.exec db =
        (savePrediction row db.tag_seq >>= fun prediction =>
          announcePrediction prediction user stock (List.map some refs) >>= fun _ => return .ok).run Db.exec
            (db.exec (.insertTag tag)) := by
  unfold PredictionsController.create PredictionsController.createWith
  rw [bind_eq, run_bind_ok Db.exec (run_currentUser session db)]
  simp only [select, bind_eq, query_bind, run_step, exec_select]
  cases hstock : db.stock params.stock_id with
  | none => exact .inl ⟨_, rfl⟩
  | some stock =>
    cases closestStartTime (graphTime now) with
    | none => exact .inl ⟨_, rfl⟩
    | some start_time =>
      cases huser : db.sessionUser session with
      | none => exact .inl ⟨_, rfl⟩
      | some user =>
        simp only [orNil, ret_bind]
        rcases ret_or_raise (only_endTime parse params) with ⟨end_time, hend⟩ | ⟨e, hend⟩
        · rcases ret_or_raise (only_endPrice exactPrice params) with ⟨end_price, hprice⟩ | ⟨e, hprice⟩
          · simp only [hend, hprice, ret_bind]
            cases hcontent : params.content with
            | none => exact .inl ⟨_, rfl⟩
            | some content =>
              obtain ⟨text, htags⟩ := run_addTags content stock.ticker_symbol .prediction none db
              rw [run_bind_ok Db.exec htags]
              cases end_price with
              | none => exact .inr (.inl ⟨_, _, rfl⟩)
              | some end_price =>
                cases end_time with
                | none => exact .inr (.inl ⟨_, _, rfl⟩)
                | some end_time =>
                  simp only [run_step, exec_select]
                  split
                  · next hnone =>
                    have hactive : db.activePrediction user.id stock.id = none := by
                      have hfound := (refusals_nil hnone).1
                      rwa [Option.isSome_eq_false_iff, Option.isNone_iff_eq_none] at hfound
                    exact .inr (.inr ⟨user, stock, _, _, _, rfl, rfl, rfl, rfl, rfl, rfl, ⟨content, rfl, rfl⟩, hactive, rfl⟩)
                  · exact .inr (.inl ⟨_, _, rfl⟩)
          · simp only [hend, hprice, ret_bind, raise_bind, run_raise]
            exact .inl ⟨_, rfl⟩
        · simp only [hend, raise_bind, run_raise]
          exact .inl ⟨_, rfl⟩

theorem run_create (parse : String → Option Int) (now : Time) (session : Option Nat) (params : PredictionParams)
    (db : Db) :
    (∃ e, (PredictionsController.create parse now session params).run Db.exec db = (.error e, db)) ∨
    (∃ errors tag, (PredictionsController.create parse now session params).run Db.exec db =
      (.ok (.messages errors), db.exec (.insertTag tag))) ∨
    ∃ user stock row tag refs, db.sessionUser session = some user ∧ db.stock params.stock_id = some stock ∧
      row.user_id = user.id ∧ row.stock_id = stock.id ∧ row.active = true ∧ row.start_price = stock.daily_stock_price ∧
      (∃ content, params.content = some content ∧ refs = db.targets stock.ticker_symbol content) ∧
      (PredictionsController.create parse now session params).run Db.exec db =
        (savePrediction row db.tag_seq >>= fun prediction =>
          announcePrediction prediction user stock (List.map some refs) >>= fun _ => return .ok).run Db.exec
            (db.exec (.insertTag tag)) := by
  rcases run_create_unpredicted parse now session params db with
    hraised | hrefused | ⟨user, stock, row, tag, refs, huser, hstock, hu, hs, ha, hp, hrefs, -, hrun⟩
  · exact .inl hraised
  · exact .inr (.inl hrefused)
  · exact .inr (.inr ⟨user, stock, row, tag, refs, huser, hstock, hu, hs, ha, hp, hrefs, hrun⟩)

end MyStockIQ
