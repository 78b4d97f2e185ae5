import MyStockIQ.LifeCycle
import MyStockIQ.Saving
/-!
# The ten-minute pass

An exception in the pass over the active predictions leaves the rest of them
alone. A prediction that has a start price, a user, and a stock with a date and a
price never raises, and no statement takes these from it. What does are two
requests: `create` on a stock without a price, and deleting a user.
-/

open SharedStore Prog

namespace MyStockIQ

/-- The program never raises, and ends with `Q`. -/
abbrev Smooth {α : Type} (P : Db → Prop) (p : Request α) (Q : α → Db → Prop) : Prop :=
  Outcome Db.exec P p Q fun _ => False

/-- The stock has a date and a price. -/
def Stock.Priced (stock : Stock) : Prop :=
  (∃ date, stock.date = some date) ∧ ∃ price, stock.daily_stock_price = some price

/-- There is such a stock. -/
def Db.Offers (db : Db) (stock_id : Nat) : Prop := ∃ stock, db.stock stock_id = some stock ∧ stock.Priced

theorem Stock.Priced.set {stock : Stock} (h : stock.Priced) (changes : StockChanges) : (changes.set stock).Priced := by
  obtain ⟨⟨date, hdate⟩, price, hprice⟩ := h
  constructor
  · cases hd : changes.date with
    | none => exact ⟨date, by simp [StockChanges.set, hd, hdate]⟩
    | some d => exact ⟨d, by simp [StockChanges.set, hd]⟩
  · cases hp : changes.daily_stock_price with
    | none => exact ⟨price, by simp [StockChanges.set, hp, hprice]⟩
    | some p => exact ⟨p, by simp [StockChanges.set, hp]⟩

theorem Db.Offers.exec {db : Db} {stock_id : Nat} (h : db.Offers stock_id) (stmt : Stmt) :
    (db.exec stmt).Offers stock_id := by
  cases stmt with
  | updateStock id changes =>
    obtain ⟨stock, hstock, hpriced⟩ := h
    refine ⟨if stock.id = id then changes.set stock else stock, ?_, ?_⟩
    · have hfind := find_updated Stock.id changes.set (fun _ => rfl) id stock_id db.stocks
      exact hfind.trans (by rw [show db.stocks.find? (·.id = stock_id) = some stock from hstock]; rfl)
    · split
      · exact hpriced.set changes
      · exact hpriced
  | _ => exact h

theorem user_exec (db : Db) (stmt : Stmt) (id : Nat) : (db.exec stmt).user id = db.user id := by
  cases stmt <;> rfl

/-- Nothing the pass needs of the prediction is `nil`. -/
structure Fit (r : Record) (db : Db) : Prop where
  start_price : ∃ price, r.row.start_price = some price
  stock : db.Offers r.row.stock_id
  loaded : ∀ stock, r.stock = some stock → stock.Priced
  user : ∃ user, db.user r.row.user_id = some user

theorem Fit.exec {self : Record} {db : Db} (h : Fit self db) (stmt : Stmt) : Fit self (db.exec stmt) := by
  refine ⟨h.start_price, h.stock.exec stmt, h.loaded, ?_⟩
  rw [user_exec]
  exact h.user

theorem Fit.stockIn {self : Record} {db : Db} (h : Fit self db) :
    ∃ stock, self.stockIn db = some stock ∧ stock.Priced := by
  unfold Record.stockIn
  cases hs : self.stock with
  | some stock => exact ⟨stock, rfl, h.loaded stock hs⟩
  | none =>
    obtain ⟨stock, hstock, hpriced⟩ := h.stock
    exact ⟨stock, hstock, hpriced⟩

section
variable {α : Type} {self : Record}

/-- A program that never raises, whatever it finds. -/
theorem smooth_total {p : Request α} (h : ∀ db, ∃ a db', p.run Db.exec db = (.ok a, db')) :
    Smooth (Fit self) p fun _ => Fit self := by
  refine ⟨(only_true p).triple fun _ stmt _ h => h.exec stmt, ?_⟩
  intro db e db' _ hr
  obtain ⟨a, db'', hok⟩ := h db
  cases hok.symm.trans hr

theorem smooth_streamSave (stream : Stream) : Smooth (Fit self) stream.save fun _ => Fit self := by
  refine smooth_total fun db => ?_
  obtain ⟨saved, more, hrun⟩ := run_streamSave stream db
  exact ⟨_, _, hrun⟩

theorem smooth_loadStock (method : String) : Smooth (Fit self) (self.loadStock method) fun a db =>
    Fit a.1 db ∧ a.1.row = self.row ∧ a.2.Priced := by
  refine .of_each fun db hfit => ?_
  obtain ⟨stock, hin, hpriced⟩ := hfit.stockIn
  refine .of_run (run_loadStock_eq hin method) ?_ (by simp)
  rintro _ ⟨⟩
  refine ⟨⟨hfit.start_price, hfit.stock, ?_, hfit.user⟩, rfl, hpriced⟩
  rintro _ ⟨⟩
  exact hpriced

theorem smooth_loadUser (method : String) : Smooth (Fit self) (self.loadUser method) fun a db =>
    Fit a.1 db ∧ a.1.row = self.row := by
  refine .of_each fun db hfit => ?_
  obtain ⟨user, huser⟩ := hfit.user
  have hrun : ∃ loaded user', (self.loadUser method).run Db.exec db = (.ok (loaded, user'), db) ∧
      loaded.row = self.row ∧ loaded.stock = self.stock := by
    unfold Record.loadUser
    cases hu : self.user with
    | some user' => exact ⟨self, user', rfl, rfl, rfl⟩
    | none =>
      refine ⟨{ self with user := some user }, user, ?_, rfl, rfl⟩
      simp [select, huser, orNil]
  obtain ⟨loaded, user', hrun, hrow, hstock⟩ := hrun
  refine .of_run hrun ?_ (by simp)
  rintro _ ⟨⟩
  refine ⟨⟨?_, ?_, ?_, ?_⟩, hrow⟩
  · rw [hrow]; exact hfit.start_price
  · rw [hrow]; exact hfit.stock
  · rw [hstock]; exact hfit.loaded
  · rw [hrow]; exact hfit.user

theorem smooth_announce (predictionend : Predictionend) :
    Smooth (Fit self) (self.announce predictionend) Fit := by
  refine .bind (smooth_total fun db => ⟨_, _, rfl⟩) fun _ => .bind (smooth_loadUser _) fun ⟨byUser, user⟩ => ?_
  refine .bind ((smooth_streamSave _).pre fun _ h => h.1) fun _ =>
    .bind (smooth_loadStock _) fun ⟨byStock, stock⟩ => ?_
  refine .bind ((smooth_streamSave _).pre fun _ h => h.1) fun _ => ?_
  exact .ret fun _ h => h

/-- A save that does not assign the start price. -/
theorem smooth_update {assigned : PredictionChanges} (h : assigned.start_price = none) :
    Smooth (Fit self) (self.update assigned) Fit := by
  refine .of_each fun db hfit => ?_
  obtain ⟨stock, hin, hpriced⟩ := hfit.stockIn
  refine .of_run (run_save hin assigned) ?_ (by simp)
  rintro _ ⟨⟩
  have hsaved : Fit self (db.saved self.row.id (assigned.dirty self.row) stock) := by
    unfold Db.saved Db.counted
    split
    · exact (hfit.exec _).exec _
    · exact hfit.exec _
  refine ⟨?_, hsaved.stock, ?_, hsaved.user⟩
  · simpa [PredictionChanges.set, h] using hfit.start_price
  · rintro _ ⟨⟩
    unfold Stock.counted
    split
    · exact hpriced.set _
    · exact hpriced

theorem smooth_endAt (time : Time) (price : Option Rat) : Smooth (Fit self) (self.endAt time price) Fit := by
  refine .bind (smooth_update rfl) fun self' => .bind (smooth_total fun db => ⟨_, _, run_buildPredictionend self' db⟩)
    fun _ => .bind (smooth_total fun db => ⟨_, _, rfl⟩) fun predictionend => ?_
  exact (smooth_announce predictionend).pre fun _ h => ⟨h.start_price, h.stock, h.loaded, h.user⟩

theorem smooth_scan (prices : List Intradayprice) : Smooth (Fit self) (self.scan prices) Fit := by
  induction prices with
  | nil => exact .ret fun _ h => h
  | cons price prices ih =>
    refine .of_each fun db hfit => ?_
    obtain ⟨start_price, hstart⟩ := hfit.start_price
    unfold Record.scan
    rw [hstart]
    dsimp only
    split
    · exact (smooth_endAt _ _).at_store hfit
    · exact ih.at_store hfit

theorem smooth_exceedsEndPrice : Smooth (Fit self) self.exceedsEndPrice Fit := by
  refine .of_each fun db hfit => ?_
  obtain ⟨stock, hstock, -⟩ := hfit.stock
  refine .ok_bind (a := some stock) (by rw [← hstock]; rfl) ?_
  refine .ok_bind (a := db.window stock.ticker_symbol self.row.start_time) rfl ?_
  exact (smooth_scan _).at_store hfit

theorem smooth_exceedsEndTime : Smooth (Fit self) self.exceedsEndTime Fit := by
  refine .bind (smooth_loadStock "date") fun ⟨loaded, stock⟩ => .of_each fun db h => ?_
  obtain ⟨hfit, -, ⟨date, hdate⟩, -⟩ := h
  dsimp only at hfit hdate ⊢
  rw [hdate]
  refine .ok_bind (rfl : (orNil (some date) ">=").run Db.exec db = (.ok date, db)) ?_
  split
  · exact (smooth_endAt _ _).at_store hfit
  · exact .ret fun _ hdb => hdb ▸ hfit

theorem smooth_updateScore : Smooth (Fit self) self.updateScore Fit := by
  refine .of_each fun db hfit => ?_
  obtain ⟨start_price, hstart⟩ := hfit.start_price
  unfold Record.updateScore
  rw [hstart]
  refine .ok_bind rfl (.bind ((smooth_loadStock _).at_store hfit) fun ⟨loaded, stock⟩ => .of_each fun db' h => ?_)
  obtain ⟨hfit', hrow, -, price, hprice⟩ := h
  dsimp only at hfit' hrow hprice ⊢
  rw [hrow, hstart, hprice]
  refine .ok_bind rfl ?_
  exact (smooth_update rfl).at_store hfit'

theorem smooth_bringUpToDate : Smooth (Fit self) self.bringUpToDate Fit :=
  .bind smooth_exceedsEndPrice fun _ => .bind smooth_exceedsEndTime fun _ => smooth_updateScore

end

/-! ## The pass -/

/-- The loop of the pass over some predictions. -/
def passOver (predictions : List Prediction) : Request Unit :=
  Prog.each (fun row => do
    let _ ← Record.bringUpToDate { row := row }
    return ()) predictions

theorem predictionEnd_eq : predictionEnd = select .activePredictions (·.activePredictions) >>= passOver := rfl

/-- One prediction after another: each leaves the others fit. -/
theorem smooth_passOver {all : List Prediction} {rows : List Prediction} (hrows : ∀ p ∈ rows, p ∈ all) :
    Smooth (fun db => ∀ p ∈ all, Fit { row := p } db) (passOver rows) fun _ db => ∀ p ∈ all, Fit { row := p } db := by
  refine .each rows fun p hp => ?_
  let I (db : Db) : Prop := ∀ p ∈ all, Fit { row := p } db
  have hkept : Outcome Db.exec I (Record.bringUpToDate { row := p }) (fun _ => I) I :=
    (only_true _).outcome fun _ stmt _ h q hq => (h q hq).exec stmt
  refine .bind ((smooth_bringUpToDate.and hkept).conseq (fun db h => ⟨h p (hrows p hp), h⟩) (fun _ _ h => h.2)
    fun _ h => h.1) fun _ => .ret fun _ h => h

/-- The pass completes, having brought every active prediction up to date. -/
structure Processes (db : Db) : Prop where
  completes : (predictionEnd.run Db.exec db).1 = .ok ()
  everyone : ∀ before p after, db.activePredictions = before ++ p :: after → ∃ db₁ r db₂,
    (passOver before).run Db.exec db = (.ok (), db₁) ∧
      (Record.bringUpToDate { row := p }).run Db.exec db₁ = (.ok r, db₂)
  start_price : ∀ p ∈ db.predictions, ∃ price, p.start_price = some price ∧ price ≠ 0

/-- Every prediction has a start price, and every active one a user, and a stock with a date and a price. -/
structure Processable (db : Db) : Prop where
  start_price : ∀ p ∈ db.predictions, ∃ price, p.start_price = some price ∧ price ≠ 0
  stock : ∀ p ∈ db.predictions, p.active = true → db.Offers p.stock_id
  user : ∀ p ∈ db.predictions, p.active = true → ∃ user, db.user p.user_id = some user

theorem Processable.fit {db : Db} (h : Processable db) : ∀ p ∈ db.activePredictions, Fit { row := p } db := by
  intro p hp
  obtain ⟨hmem, ha⟩ := mem_activePredictions.1 hp
  obtain ⟨price, hprice, -⟩ := h.start_price p hmem
  exact ⟨⟨price, hprice⟩, h.stock p hmem ha, by simp, h.user p hmem ha⟩

theorem Processable.processes {db : Db} (h : Processable db) : Processes db := by
  refine ⟨?_, ?_, h.start_price⟩
  · obtain ⟨_, db', hrun, -⟩ := (smooth_passOver fun p hp => hp).completes h.fit
    have hselect : (select .activePredictions (·.activePredictions) : Request (List Prediction)).run Db.exec db =
        (.ok db.activePredictions, db) := rfl
    rw [predictionEnd_eq, bind_eq, run_bind_ok Db.exec hselect, hrun]
  · intro before p after hall
    have hbefore : ∀ q ∈ before, q ∈ db.activePredictions := by
      intro q hq
      simp [hall, hq]
    obtain ⟨_, db₁, hrun, hfit⟩ := (smooth_passOver hbefore).completes h.fit
    obtain ⟨r, db₂, hrun₂, -⟩ := smooth_bringUpToDate.completes (hfit p (by simp [hall]))
    exact ⟨db₁, r, db₂, hrun, hrun₂⟩

/-! ## What keeps the tables processable -/

/-- The statement adds and activates no prediction, and sets no start price to zero. -/
def Stmt.KeepsFit : Stmt → Prop
  | .insertPrediction _ => False
  | .updatePrediction _ changes => changes.active ≠ some true ∧ changes.start_price ≠ some 0
  | _ => True

theorem Stmt.Plain.keepsFit {stmt : Stmt} (h : stmt.Plain) : stmt.KeepsFit := by
  cases stmt with
  | insertPrediction row => exact h.elim
  | updatePrediction id changes => exact ⟨h.1, by simp [h.2.2]⟩
  | _ => trivial

theorem Stmt.Quiet.keepsFit {stmt : Stmt} (h : stmt.Quiet) : stmt.KeepsFit := h.plain.keepsFit

/-- The prediction and what it refers to are there for the pass. -/
structure Backed (db : Db) (p : Prediction) : Prop where
  start_price : ∃ price, p.start_price = some price ∧ price ≠ 0
  stock : db.Offers p.stock_id
  user : ∃ user, db.user p.user_id = some user

theorem Backed.exec {db : Db} {p : Prediction} (h : Backed db p) (stmt : Stmt) : Backed (db.exec stmt) p := by
  refine ⟨h.start_price, h.stock.exec stmt, ?_⟩
  rw [user_exec]
  exact h.user

theorem Processable.insert {db : Db} (h : Processable db) {row : Prediction} (hrow : Backed db row) :
    Processable (db.exec (.insertPrediction row)) := by
  refine ⟨?_, ?_, ?_⟩
  · intro p hp
    rcases mem_inserted hp with hp | rfl
    · exact h.start_price p hp
    · exact hrow.start_price
  · intro p hp ha
    rcases mem_inserted hp with hp | rfl
    · exact h.stock p hp ha
    · exact hrow.stock
  · intro p hp ha
    rcases mem_inserted hp with hp | rfl
    · exact h.user p hp ha
    · exact hrow.user

theorem Processable.exec {db : Db} (h : Processable db) {stmt : Stmt} (hs : stmt.KeepsFit) :
    Processable (db.exec stmt) := by
  have hstock : ∀ p ∈ db.predictions, p.active = true → (db.exec stmt).Offers p.stock_id :=
    fun p hp ha => (h.stock p hp ha).exec stmt
  have huser : ∀ p ∈ db.predictions, p.active = true → ∃ user, (db.exec stmt).user p.user_id = some user := by
    intro p hp ha
    rw [user_exec]
    exact h.user p hp ha
  cases stmt with
  | insertPrediction row => exact hs.elim
  | updatePrediction id changes =>
    obtain ⟨hactive, hprice⟩ := hs
    refine ⟨fun p hp => ?_, fun p hp ha => ?_, fun p hp ha => ?_⟩
    · rcases mem_updated hp with ⟨hp, -⟩ | ⟨q, hq, -, rfl⟩
      · exact h.start_price p hp
      · cases hc : changes.start_price with
        | none => simpa [PredictionChanges.set, hc] using h.start_price q hq
        | some price =>
          refine ⟨price, by simp [PredictionChanges.set, hc], ?_⟩
          rintro rfl
          exact hprice hc
    · rcases mem_updated hp with ⟨hp, -⟩ | ⟨q, hq, -, rfl⟩
      · exact hstock p hp ha
      · exact hstock q hq (changes.active_of_set hactive ha)
    · rcases mem_updated hp with ⟨hp, -⟩ | ⟨q, hq, -, rfl⟩
      · exact huser p hp ha
      · exact huser q hq (changes.active_of_set hactive ha)
  | destroyPrediction id =>
    exact ⟨fun p hp => h.start_price p (List.mem_of_mem_filter hp),
      fun p hp => hstock p (List.mem_of_mem_filter hp), fun p hp => huser p (List.mem_of_mem_filter hp)⟩
  | _ => exact ⟨h.start_price, hstock, huser⟩

theorem Processable.run {α : Type} {db : Db} (h : Processable db) {p : Request α} (hp : p.Only Stmt.KeepsFit) :
    Processable (p.run Db.exec db).2 := hp.run_inv (I := Processable) (fun _ _ hs h => h.exec hs) h

/-! ## The application's actions -/

/-- A request or job, or one of the other actions that write users or stocks. -/
inductive Action where
  | request (job : Job)
  | createUser (row : User)
  | destroyUser (username : String)
  | quandlAllstocks (rows : List Stock)
  | googleDaily (ticker_symbol : String) (date : Time) (close_price : Rat)

/-- `ScraperPublic.google_daily`, of which the stock keeps the date and price of the latest day. -/
def googleDaily (ticker_symbol : String) (date : Time) (close_price : Rat) : Request Unit := do
  let found ← select (.stockTicker ticker_symbol) (·.stockTicker ticker_symbol)
  let stock_to_update ← orNil found "update"
  let _ ← stock_to_update.save { date := some date, daily_stock_price := some close_price }
  return ()

/-- `UsersController#destroy`. The streams that target the user go along, the predictions stay. -/
def Db.destroyUser (db : Db) (username : String) : Db :=
  match db.userNamed username with
  | none => db
  | some user =>
    { db with
      users := db.users.filter (·.id ≠ user.id)
      streams := db.streams.filter (·.targetable ≠ ⟨.user, user.id⟩) }

/-- The tables an action leaves. -/
def Action.run (parse : String → Option Int) : Action → Db → Db
  | .request job, db => (job.run parse db).2
  | .createUser row, db => { db with users := db.users ++ [row] }
  | .destroyUser username, db => db.destroyUser username
  | .quandlAllstocks rows, db => { db with stocks := db.stocks ++ rows }
  | .googleDaily ticker_symbol date close_price, db =>
    ((MyStockIQ.googleDaily ticker_symbol date close_price).run Db.exec db).2

/-- Predictions are only made on a stock with a date and a price that is not
zero, none gets a price of zero when its start is verified, and no user with an
active prediction is deleted. -/
def Harmless (db : Db) : Action → Prop
  | .request (.createPrediction _ _ params) => ∀ stock, db.stock params.stock_id = some stock →
      (∃ date, stock.date = some date) ∧ ∃ price, stock.daily_stock_price = some price ∧ price ≠ 0
  | .request (.verifyStart prediction_id minute_array) => ∀ p m, db.prediction prediction_id = some p →
      minMinute minute_array p.start_time = some m → roundCents m.close_price ≠ 0
  | .destroyUser username => ∀ user, db.userNamed username = some user → ∀ p ∈ db.predictions, p.active = true →
      p.user_id ≠ user.id
  | _ => True

theorem Processable.create {db : Db} (h : Processable db) (parse : String → Option Int) (now : Time)
    (session : Option Nat) (params : PredictionParams) (hprice : ∀ stock, db.stock params.stock_id = some stock →
      (∃ date, stock.date = some date) ∧ ∃ price, stock.daily_stock_price = some price ∧ price ≠ 0) :
    Processable ((PredictionsController.create parse now session params).run Db.exec db).2 := by
  have htag : ∀ tag, Processable (db.exec (.insertTag tag)) := fun tag => h.exec trivial
  rcases run_create parse now session params db with
    ⟨e, hrun⟩ | ⟨errors, tag, hrun⟩ | ⟨user, stock, row, tag, refs, huser, hstock, hu, hs, -, hp, -, hrun⟩
  · rw [hrun]
    exact h
  · rw [hrun]
    exact htag tag
  · obtain ⟨hdate, price, hdaily, hne⟩ := hprice stock hstock
    have hfound : db.user user.id = some user := by
      cases session with
      | none => cases huser
      | some id =>
        have huser : db.user id = some user := huser
        obtain rfl : user.id = id := by simpa using List.find?_some huser
        exact huser
    have hsame : db.stock stock.id = some stock := by
      obtain hid : stock.id = params.stock_id := by simpa using List.find?_some hstock
      rw [hid]
      exact hstock
    have hrow : Backed db row := by
      refine ⟨⟨price, hp.trans hdaily, hne⟩, ⟨stock, ?_, hdate, price, hdaily⟩, ⟨user, ?_⟩⟩
      · rw [hs]; exact hsame
      · rw [hu]; exact hfound
    -- Only the new row is added, and it is backed whenever it is.
    let I (db : Db) : Prop := Processable db ∧ Backed db row
    have honly : (savePrediction row db.tag_seq >>= fun prediction =>
        announcePrediction prediction user stock (List.map some refs) >>= fun _ => return .ok :
          Request Reply).Only fun stmt => stmt.KeepsFit ∨ stmt = .insertPrediction row :=
      .bind (only_savePrediction (fun _ hs => .inl hs.1.keepsFit) (.inr rfl)) fun _ =>
        .bind ((mild_announcePrediction _ _ _ _).quiet.mono fun _ hq => .inl hq.keepsFit) fun _ => trivial
    have hkept : ∀ db stmt, (stmt.KeepsFit ∨ stmt = .insertPrediction row) → I db → I (db.exec stmt) := by
      rintro db stmt (hkeeps | rfl) ⟨hproc, hback⟩
      · exact ⟨hproc.exec hkeeps, hback.exec _⟩
      · exact ⟨hproc.insert hback, hback.exec _⟩
    rw [hrun]
    exact (honly.run_inv (I := I) hkept ⟨htag tag, hrow.exec _⟩).1

theorem Processable.verifyStart {db : Db} (h : Processable db) {prediction_id : Nat}
    {minute_array : List Intradayprice} (hprice : ∀ p m, db.prediction prediction_id = some p →
      minMinute minute_array p.start_time = some m → roundCents m.close_price ≠ 0) :
    Processable ((PredictionstartWorker.perform prediction_id minute_array).run Db.exec db).2 := by
  refine Outcome.store (P := fun d => d = db) (I := Processable) ?_ rfl
  refine .ok_bind (a := db.prediction prediction_id) rfl ?_
  cases hp : db.prediction prediction_id with
  | none => exact .raise fun d hd => hd ▸ h
  | some row =>
    refine (Only.outcome (A := Stmt.KeepsFit) ?_ fun _ _ hs h => h.exec hs).at_store h
    refine .bind ((mild_loadStock _ _).quiet.mono fun _ => Stmt.Quiet.keepsFit) fun ⟨loaded, _⟩ => ?_
    cases hm : minMinute minute_array row.start_time with
    | none => trivial
    | some m =>
      have hne := hprice row m hp hm
      refine .bind (only_update (fun _ hs => hs.1.keepsFit) ⟨by simp [PredictionChanges.dirty, dirty], ?_⟩)
        fun _ => trivial
      intro hzero
      have hzero : (some (roundCents m.close_price)).filter (some · ≠ loaded.row.start_price) = some 0 := hzero
      exact hne (Option.some.inj (Option.filter_eq_some_iff.1 hzero).1)

theorem Processable.job {parse : String → Option Int} {db : Db} (h : Processable db) {job : Job}
    (hj : Harmless db (.request job)) : Processable (job.run parse db).2 := by
  cases job with
  | createPrediction now session params =>
    have hrun := run_bind_ret Db.exec (PredictionsController.create parse now session params) (fun _ => ()) db
    exact hrun ▸ h.create parse now session params hj
  | showPrediction session id =>
    exact h.run ((only_unanswered (gentle_showPrediction session id).plain).mono fun _ => Stmt.Plain.keepsFit)
  | showStock session ticker_symbol feed =>
    exact h.run ((only_unanswered (plain_showStock session ticker_symbol feed)).mono fun _ => Stmt.Plain.keepsFit)
  | createPredictionend now session prediction_id content =>
    exact h.run ((only_unanswered (tame_createPredictionend now session prediction_id content).plain).mono
      fun _ => Stmt.Plain.keepsFit)
  | predictionEnd => exact h.run (gentle_predictionEnd.plain.mono fun _ => Stmt.Plain.keepsFit)
  | verifyStart prediction_id minute_array => exact h.verifyStart hj
  | verifyEnd predictionend_id now minute_array =>
    exact h.run (only_verifyEnd predictionend_id now minute_array (fun _ hs => hs.1.keepsFit) (fun _ => trivial)
      (fun _ _ ha hs => ⟨by simp [ha], by simp [hs]⟩) fun _ _ => trivial)
  | googleIntraday ticker_symbol feed =>
    exact h.run ((mild_googleIntraday ticker_symbol feed).quiet.mono fun _ => Stmt.Quiet.keepsFit)

theorem find_append {α : Type} {rows more : List α} {p : α → Bool} {row : α} (h : rows.find? p = some row) :
    (rows ++ more).find? p = some row := by
  simp [List.find?_append, h]

theorem Processable.action {parse : String → Option Int} {db : Db} (h : Processable db) {action : Action}
    (ha : Harmless db action) : Processable (action.run parse db) := by
  cases action with
  | request job => exact h.job ha
  | createUser row =>
    refine ⟨h.start_price, h.stock, ?_⟩
    intro p hp hactive
    obtain ⟨user, huser⟩ := h.user p hp hactive
    exact ⟨user, find_append huser⟩
  | destroyUser username =>
    simp only [Action.run, Db.destroyUser]
    cases hname : db.userNamed username with
    | none => exact h
    | some user =>
      refine ⟨h.start_price, h.stock, ?_⟩
      intro p hp hactive
      obtain ⟨owner, howner⟩ := h.user p hp hactive
      have hid : owner.id = p.user_id := by simpa using List.find?_some howner
      have hother := ha user hname p hp hactive
      refine ⟨owner, ?_⟩
      rw [← howner]
      unfold Db.user
      rw [List.find?_filter]
      congr 1
      funext u
      by_cases hu : u.id = p.user_id
      · simp [hu, hother]
      · simp [hu]
  | quandlAllstocks rows =>
    refine ⟨h.start_price, ?_, h.user⟩
    intro p hp hactive
    obtain ⟨stock, hstock, hpriced⟩ := h.stock p hp hactive
    exact ⟨stock, find_append hstock, hpriced⟩
  | googleDaily ticker_symbol date close_price =>
    refine h.run (Only.mono ?_ fun _ => Stmt.Quiet.keepsFit)
    exact .bind (quiet_select trivial) fun _ => .bind (only_orNil _ _) fun _ => .bind (quiet_stockSave _ _) fun _ =>
      trivial

/-- In every state reached from tables without predictions by harmless actions,
the pass completes and brings every active prediction up to date. A request or
job that raises may be among the actions. -/
theorem pass_processes_everyone (parse : String → Option Int) {init db : Db} (hp : init.predictions = [])
    (h : Serial (Action.run parse) Harmless init db) : Processes db := by
  have hinit : Processable init := by
    constructor <;> simp [hp]
  have hdb : Processable db := h.inv hinit fun _ _ ha hdb => hdb.action ha
  exact hdb.processes

theorem pass_processes_everyone_monday : Processes predicted := by
  have hform : Harmless oneStock (.request mondayForm) := by
    intro stock hstock
    obtain rfl := Option.some.inj hstock
    exact ⟨⟨_, rfl⟩, _, rfl, by decide⟩
  have hrun : Serial (Action.run tuesdayAfternoon) Harmless oneStock predicted :=
    .run (j := Action.request mondayForm) .init hform
  exact pass_processes_everyone tuesdayAfternoon rfl hrun

/-- A stock just inserted has no date and no price. -/
def newStock : Stock := ⟨1, "A stock", "ABC", none, none, some false, 0⟩

/-- A prediction on a new stock is saved before `create` raises, and the pass then raises on it. -/
theorem pass_raises_on_new_stock :
    ¬∀ parse init db, init.predictions = [] → Serial (Action.run parse) (fun _ _ => True) init db → Processes db := by
  intro h
  have hrun := h tuesdayAfternoon { oneStock with stocks := [] } _ rfl
    (.run (j := Action.request mondayForm) (.run (j := Action.quandlAllstocks [newStock]) .init trivial) trivial)
  have hok := hrun.completes
  revert hok
  decide

end MyStockIQ
