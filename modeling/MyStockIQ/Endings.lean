import MyStockIQ.Effects
/-!
# Ending a prediction

What `exceeds_end_price` and `exceeds_end_time` leave: the core after the shared
body of the two, which bars the first looks at, and what one pass of both comes to.
-/

open SharedStore Prog

namespace MyStockIQ

/-! ## The shared body -/

/-- The tables after `build_predictionend` found `target` and the built row was saved. -/
def Db.replaceEnding (db : Db) (prediction_id : Nat) (target : Option Predictionend) (row : Predictionend) : Db :=
  (target.elim db fun e => db.exec (.destroyPredictionend prediction_id e.id)).exec (.insertPredictionend row)

/-- The Predictionend both ways of ending save. -/
def endingRow (prediction_id : Nat) (actual_end_time : Time) (actual_end_price : Option Rat) : Predictionend where
  id := 0
  prediction_id := prediction_id
  actual_end_time := actual_end_time
  actual_end_price := actual_end_price
  end_price_verified := false
  content := none
  graph_end_time := graphTime actual_end_time

def deactivate : PredictionChanges where
  active := some false

/-- The tables after a prediction was deactivated and its Predictionend replaced. -/
def Record.ended (self : Record) (db : Db) (row : Predictionend) : Db :=
  (db.exec (.updatePrediction self.row.id (deactivate.dirty self.row))).replaceEnding self.row.id
    (self.predictionend.or (db.predictionendOf self.row.id)) row

theorem core_replaceEnding {db db' : Db} (h : db'.core = db.core) (prediction_id : Nat) (target : Option Predictionend)
    (row : Predictionend) :
    (db'.replaceEnding prediction_id target row).core = (db.replaceEnding prediction_id target row).core := by
  cases target with
  | none => exact core_exec h _
  | some e => exact core_exec (core_exec h (.destroyPredictionend prediction_id e.id)) (.insertPredictionend row)

theorem predictionendOf_of_core {db db' : Db} (h : db'.core = db.core) (prediction_id : Nat) :
    db'.predictionendOf prediction_id = db.predictionendOf prediction_id := by
  simp only [Db.core, Prod.mk.injEq] at h
  rw [Db.predictionendOf, Db.predictionendOf, Db.endings, Db.endings, h.2.1]

theorem run_buildPredictionend (self : Record) (db : Db) :
    self.buildPredictionend.run Db.exec db =
      (.ok (), (self.predictionend.or (db.predictionendOf self.row.id)).elim db
        fun e => db.exec (.destroyPredictionend self.row.id e.id)) := by
  unfold Record.buildPredictionend Record.loadPredictionend
  cases self.predictionend with
  | some e => rfl
  | none =>
    simp only [select, bind_eq, query_bind, run_step, exec_select, Option.none_or]
    cases db.predictionendOf self.row.id <;> rfl

/-- What loading an association keeps of an object. -/
def Keeps (self a : Record) : Prop :=
  a.row = self.row ∧ a.predictionend = self.predictionend ∧ ∀ stock, self.stock = some stock → a.stock = some stock

theorem loadStock_keeps (self : Record) (method : String) : (self.loadStock method).Ends fun a => Keeps self a.1 := by
  unfold Record.loadStock
  split
  · exact ⟨rfl, rfl, fun _ h => h⟩
  · next hs => exact .bind (ends_true _) fun _ _ => .bind (ends_true _) fun _ _ => ⟨rfl, rfl, by simp [hs]⟩

theorem loadUser_keeps (self : Record) (method : String) : (self.loadUser method).Ends fun a => Keeps self a.1 := by
  unfold Record.loadUser
  split
  · exact ⟨rfl, rfl, fun _ h => h⟩
  · exact .bind (ends_true _) fun _ _ => .bind (ends_true _) fun _ _ => ⟨rfl, rfl, fun _ h => h⟩

theorem announce_keeps (self : Record) (e : Predictionend) : (self.announce e).Ends (Keeps self) :=
  .bind (ends_true _) fun _ _ => .bind (loadUser_keeps _ _) fun ⟨_, _⟩ hu => .bind (ends_true _) fun _ _ =>
    .bind (loadStock_keeps _ _) fun ⟨_, _⟩ hs => .bind (ends_true _) fun _ _ =>
      ⟨hs.1.trans hu.1, hs.2.1.trans hu.2.1, fun stock h => hs.2.2 stock (hu.2.2 stock h)⟩

/-- Ending writes nothing if the stock is missing. Otherwise the prediction ends,
whether or not a later step raises. -/
theorem run_endAt (self : Record) (actual_end_time : Time) (actual_end_price : Option Rat) (db : Db) :
    (∃ stock, self.stockIn db = some stock ∧
      ((self.endAt actual_end_time actual_end_price).run Db.exec db).2.core =
        (self.ended db (endingRow self.row.id actual_end_time actual_end_price)).core ∧
      ∀ self', ((self.endAt actual_end_time actual_end_price).run Db.exec db).1 = .ok self' →
        self'.row = { self.row with active := false } ∧
        self'.predictionend =
          some { endingRow self.row.id actual_end_time actual_end_price with id := db.predictionend_seq } ∧
        ∃ stock', self'.stock = some stock' ∧ stock'.date = stock.date) ∨
    ((self.endAt actual_end_time actual_end_price).run Db.exec db =
        (.error (.noMethodError "active_predictions="), db) ∧
      self.stockIn db = none) := by
  rcases run_update self deactivate db with
    ⟨self', stock, stock', db', hrun, hin, hstock, hdate, hrow, hend, hcore⟩ | ⟨hrun, hnone⟩
  · refine .inl ⟨stock, hin, ?_⟩
    have hseq : db'.predictionend_seq = db.predictionend_seq := congrArg (fun core => core.2.2.2) hcore
    have hof : db'.predictionendOf self.row.id = db.predictionendOf self.row.id :=
      (predictionendOf_of_core hcore _).trans rfl
    have hid : self'.row.id = self.row.id := by rw [hrow]; rfl
    -- The built row is saved on the tables without the one it replaces.
    let db₂ := (self.predictionend.or (db.predictionendOf self.row.id)).elim db'
      fun e => db'.exec (.destroyPredictionend self.row.id e.id)
    let row := endingRow self.row.id actual_end_time actual_end_price
    let e := { row with id := db₂.predictionend_seq }
    have hseq₂ : db₂.predictionend_seq = db.predictionend_seq := by
      simp only [db₂]
      cases self.predictionend.or (db.predictionendOf self.row.id) <;> exact hseq
    have hrest : (self.endAt actual_end_time actual_end_price).run Db.exec db =
        ({ self' with predictionend := some e }.announce e).run Db.exec (db₂.exec (.insertPredictionend row)) := by
      unfold Record.endAt
      refine (run_bind_ok Db.exec hrun _).trans ((run_bind_ok Db.exec (run_buildPredictionend self' db') _).trans ?_)
      rw [hend, hid, hof]
      rfl
    rw [hrest]
    refine ⟨?_, fun self'' hok => ?_⟩
    · rw [(mild_announce _ _).quiet.core]
      exact core_replaceEnding hcore _ _ _
    · obtain ⟨h1, h2, h3⟩ := (announce_keeps _ _).run hok
      refine ⟨h1.trans hrow, h2.trans ?_, stock', h3 stock' hstock, hdate⟩
      simp only [e, row, hseq₂]
  · right
    exact ⟨(run_bind_error Db.exec hrun _ :), hnone⟩

theorem exec_users (db : Db) (stmt : Stmt) : (db.exec stmt).users = db.users := by
  cases stmt <;> rfl

/-- No request writes a user. -/
theorem user_run {α : Type} (p : Request α) (db : Db) (id : Nat) : (p.run Db.exec db).2.user id = db.user id := by
  have husers := (only_true p).run_frame (fun db stmt _ => exec_users db stmt) db
  unfold Db.user
  rw [husers]

theorem streamSave_ok (self : Stream) (db : Db) : ∃ saved db', self.save.run Db.exec db = (.ok saved, db') := by
  unfold Stream.save
  simp only [select, bind_eq, query_bind, run_step, exec_select]
  split
  · exact ⟨false, _, rfl⟩
  · exact ⟨true, _, rfl⟩

/-- With its user and its stock there, the announcement of an ending does not raise. -/
theorem announce_ok {self : Record} {db : Db} {user : User} {stock : Stock} (huser : db.user self.row.user_id = some user)
    (hstock : self.stock = some stock) (e : Predictionend) : ∃ self', ((self.announce e).run Db.exec db).1 = .ok self' := by
  obtain ⟨loaded, owner, hloaded, hkept⟩ : ∃ loaded owner,
      (self.loadUser "id").run Db.exec (db.exec (.insertPopularity ⟨⟨.predictionend, e.id⟩, 0⟩)) =
        (.ok (loaded, owner), db.exec (.insertPopularity ⟨⟨.predictionend, e.id⟩, 0⟩)) ∧ loaded.stock = some stock := by
    unfold Record.loadUser
    cases self.user with
    | some owner => exact ⟨self, owner, rfl, hstock⟩
    | none =>
      refine ⟨{ self with user := some user }, user, ?_, hstock⟩
      have hfound : (db.exec (.insertPopularity ⟨⟨.predictionend, e.id⟩, 0⟩)).user self.row.user_id = some user := huser
      simp [select, hfound, orNil]
  have hload (db : Db) : (loaded.loadStock "id").run Db.exec db = (.ok (loaded, stock), db) := by
    unfold Record.loadStock
    rw [hkept]
    rfl
  unfold Record.announce
  simp only [write, bind_eq, exec_bind, run_step]
  obtain ⟨_, middle, hsaved⟩ := streamSave_ok ⟨⟨.predictionend, e.id⟩, ⟨.user, owner.id⟩⟩
    (db.exec (.insertPopularity ⟨⟨.predictionend, e.id⟩, 0⟩))
  obtain ⟨_, _, hlast⟩ := streamSave_ok ⟨⟨.predictionend, e.id⟩, ⟨.stock, stock.id⟩⟩ middle
  rw [run_bind_ok Db.exec hloaded, run_bind_ok Db.exec hsaved, run_bind_ok Db.exec (hload middle),
    run_bind_ok Db.exec hlast]
  exact ⟨loaded, rfl⟩

/-- So the ending of a prediction whose user is there does not raise. -/
theorem endAt_ok {self : Record} {db : Db} {user : User} {stock : Stock} (huser : db.user self.row.user_id = some user)
    (hin : self.stockIn db = some stock) (time : Time) (price : Option Rat) :
    ∃ self', ((self.endAt time price).run Db.exec db).1 = .ok self' := by
  rcases run_update self deactivate db with ⟨updated, -, stock', db', hrun, -, hstock, -, hrow, -, -⟩ | ⟨-, hnone⟩
  · have hupdated : db'.user updated.row.user_id = some user := by
      have hkept := user_run (self.update deactivate) db self.row.user_id
      rw [hrun] at hkept
      rw [hrow]
      exact hkept.trans huser
    have hrun : (self.update { active := some false }).run Db.exec db = (.ok updated, db') := hrun
    unfold Record.endAt
    rw [bind_eq, run_bind_ok Db.exec hrun, bind_eq, run_bind_ok Db.exec (run_buildPredictionend updated db')]
    refine @announce_ok { updated with predictionend := some _ } _ user stock' ?_ hstock _
    cases updated.predictionend.or (db'.predictionendOf updated.row.id) <;> exact hupdated
  · rw [hin] at hnone
    cases hnone
/-! ## The bars -/

/-- `W` is made of the `n` latest bars, or of all if there are fewer. -/
def Latest (n : Nat) (bars W : List Intradayprice) : Prop :=
  ∃ rest, (W ++ rest).Perm bars ∧ W.length = min n bars.length ∧ ∀ a ∈ W, ∀ b ∈ rest, b.date ≤ a.date

/-- The bars of a stock after a time. -/
def Db.barsAfter (db : Db) (ticker_symbol : String) (start_time : Time) : List Intradayprice :=
  db.intradayprices.filter fun price => price.ticker_symbol = ticker_symbol ∧ start_time < price.date

instance : IsTrans Intradayprice fun a b => b.date ≤ a.date := ⟨fun _ _ _ hab hbc => le_trans hbc hab⟩

instance : Std.Total fun a b : Intradayprice => b.date ≤ a.date := ⟨fun a b => le_total b.date a.date⟩

theorem window_sorted (db : Db) (ticker_symbol : String) (start_time : Time) :
    (db.window ticker_symbol start_time).Pairwise fun a b => a.date ≤ b.date := by
  unfold Db.window
  rw [List.pairwise_reverse]
  exact (List.pairwise_insertionSort (fun a b : Intradayprice => b.date ≤ a.date) _).sublist (List.take_sublist _ _)

theorem window_latest (db : Db) (ticker_symbol : String) (start_time : Time) :
    Latest 80 (db.barsAfter ticker_symbol start_time) (db.window ticker_symbol start_time) := by
  have hsort := List.pairwise_insertionSort (fun a b : Intradayprice => b.date ≤ a.date)
    (db.barsAfter ticker_symbol start_time)
  have hperm := List.perm_insertionSort (fun a b : Intradayprice => b.date ≤ a.date)
    (db.barsAfter ticker_symbol start_time)
  change Latest 80 _
    (((db.barsAfter ticker_symbol start_time).insertionSort fun a b => b.date ≤ a.date).take 80).reverse
  generalize (db.barsAfter ticker_symbol start_time).insertionSort (fun a b => b.date ≤ a.date) = sorted at hsort hperm
  refine ⟨sorted.drop 80, ?_, ?_, fun a ha b hb => ?_⟩
  · refine ((List.reverse_perm _).append_right _).trans ?_
    rwa [List.take_append_drop]
  · rw [List.length_reverse, List.length_take, hperm.length_eq]
  · rw [← List.take_append_drop 80 sorted] at hsort
    exact (List.pairwise_append.1 hsort).2.2 a (List.mem_reverse.1 ha) b hb

/-- Without a bar that surpasses the prediction the loop does nothing. -/
theorem scan_none (self : Record) {start_price : Rat} (hs : self.row.start_price = some start_price)
    {prices : List Intradayprice}
    (h : ∀ b ∈ prices, surpasses self.row.prediction_end_price start_price b.close_price = false) :
    self.scan prices = .ret self := by
  induction prices with
  | nil => rfl
  | cons b prices ih =>
    simp only [Record.scan, hs, h b (by simp), Bool.false_eq_true, if_false]
    exact ih fun c hc => h c (by simp [hc])

/-- With one, it ends the prediction at the earliest. -/
theorem scan_some (self : Record) {start_price : Rat} (hs : self.row.start_price = some start_price)
    {prices : List Intradayprice} (hsort : prices.Pairwise fun a b => a.date ≤ b.date)
    (h : ∃ b ∈ prices, surpasses self.row.prediction_end_price start_price b.close_price = true) :
    ∃ b ∈ prices, surpasses self.row.prediction_end_price start_price b.close_price = true ∧
      (∀ c ∈ prices, surpasses self.row.prediction_end_price start_price c.close_price = true → b.date ≤ c.date) ∧
      self.scan prices = self.endAt b.date (some b.close_price) := by
  induction prices with
  | nil => simp at h
  | cons b prices ih =>
    obtain ⟨hb, hsort⟩ := List.pairwise_cons.1 hsort
    simp only [Record.scan, hs]
    cases hsur : surpasses self.row.prediction_end_price start_price b.close_price with
    | true =>
      refine ⟨b, by simp, hsur, fun c hc _ => ?_, if_pos rfl⟩
      rcases List.mem_cons.1 hc with rfl | hc
      · exact le_refl _
      · exact hb c hc
    | false =>
      have hrest : ∃ c ∈ prices, surpasses self.row.prediction_end_price start_price c.close_price = true := by
        obtain ⟨c, hc, hcs⟩ := h
        rcases List.mem_cons.1 hc with rfl | hc
        · rw [hsur] at hcs; cases hcs
        · exact ⟨c, hc, hcs⟩
      obtain ⟨c, hc, hcs, hmin, hscan⟩ := ih hsort hrest
      refine ⟨c, by simp [hc], hcs, fun d hd hds => ?_, hscan⟩
      rcases List.mem_cons.1 hd with rfl | hd
      · rw [hsur] at hds; cases hds
      · exact hmin d hd hds

/-! ## The rows of the prediction after it ended -/

/-- A row read by its key after an `UPDATE` of the row `id`. -/
theorem find_updated {α κ : Type} [DecidableEq κ] (key : α → κ) (set : α → α) (h : ∀ row, key (set row) = key row)
    (id other : κ) (rows : List α) :
    (rows.map fun row => if key row = id then set row else row).find? (key · = other) =
      (rows.find? (key · = other)).map fun row => if key row = id then set row else row := by
  rw [List.find?_map]
  have hkey : ((fun row => decide (key row = other)) ∘ fun row => if key row = id then set row else row) =
      fun row => decide (key row = other) := by
    funext row
    exact congrArg (fun n => decide (n = other)) (updated_key key set h id row)
  rw [hkey]

/-- The row of an `UPDATE`, read back by its key. -/
theorem find_updated_self {α κ : Type} [DecidableEq κ] (key : α → κ) (set : α → α) (h : ∀ row, key (set row) = key row)
    (id : κ) (rows : List α) :
    (rows.map fun row => if key row = id then set row else row).find? (key · = id) =
      (rows.find? (key · = id)).map set := by
  rw [find_updated key set h]
  cases hf : rows.find? fun row => decide (key row = id) with
  | none => rfl
  | some row =>
    have hid : key row = id := by simpa using List.find?_some hf
    simp [hid]

theorem prediction_update (db : Db) (id : Nat) (changes : PredictionChanges) :
    (db.exec (.updatePrediction id changes)).prediction id = (db.prediction id).map changes.set :=
  find_updated_self Prediction.id changes.set (fun _ => rfl) id db.predictions

theorem predictions_ended (self : Record) (db : Db) (row : Predictionend) : (self.ended db row).predictions =
    (db.exec (.updatePrediction self.row.id (deactivate.dirty self.row))).predictions := by
  unfold Record.ended Db.replaceEnding
  cases self.predictionend.or (db.predictionendOf self.row.id) <;> rfl

/-- The prediction is inactive. -/
def Inactive (db : Db) (id : Nat) : Prop := ∃ p, db.prediction id = some p ∧ p.active = false

/-- The prediction's Predictionend has this time. -/
def EndedAt (db : Db) (id : Nat) (time : Time) (price : Option Rat) : Prop :=
  ∃ e, db.predictionendOf id = some e ∧ e.actual_end_time = time ∧ e.actual_end_price = price

theorem inactive_ended {self : Record} {db : Db} {p : Prediction} (hp : db.prediction self.row.id = some p)
    (ha : self.row.active = true ∨ p.active = false) (row : Predictionend) :
    Inactive (self.ended db row) self.row.id := by
  refine ⟨(deactivate.dirty self.row).set p, ?_, ?_⟩
  · have := prediction_update db self.row.id (deactivate.dirty self.row)
    rw [hp] at this
    rw [← Option.map_some, ← this]
    simp only [Db.prediction, predictions_ended]
  · show (dirty self.row.active (some false)).getD p.active = false
    rcases ha with ha | ha
    · rw [ha]; rfl
    · cases self.row.active <;> simp [dirty, Option.filter, ha]

/-- The saved row is the newest of its prediction. -/
theorem endedAt_ended (self : Record) (db : Db) (time : Time) (price : Option Rat) :
    EndedAt (self.ended db (endingRow self.row.id time price)) self.row.id time price := by
  refine ⟨{ endingRow self.row.id time price with
    id := (self.ended db (endingRow self.row.id time price)).predictionend_seq - 1 }, ?_, rfl, rfl⟩
  unfold Record.ended Db.replaceEnding Db.predictionendOf Db.endings
  simp [Db.exec, endingRow]

theorem prediction_of_core {db db' : Db} (h : db'.core = db.core) (id : Nat) :
    db'.prediction id = db.prediction id := by
  simp only [Db.core, Prod.mk.injEq] at h
  rw [Db.prediction, Db.prediction, h.1]

theorem Inactive.of_core {db db' : Db} {id : Nat} (hi : Inactive db id) (h : db'.core = db.core) : Inactive db' id := by
  obtain ⟨p, hp, ha⟩ := hi
  exact ⟨p, (prediction_of_core h id).trans hp, ha⟩

theorem EndedAt.of_core {db db' : Db} {id : Nat} {time : Time} {price : Option Rat} (he : EndedAt db id time price)
    (h : db'.core = db.core) : EndedAt db' id time price := by
  obtain ⟨e, he, ht⟩ := he
  exact ⟨e, (predictionendOf_of_core h id).trans he, ht⟩

/-! ## One pass -/

theorem run_exceedsEndPrice {self : Record} {db : Db} {stock : Stock} (h : db.stock self.row.stock_id = some stock) :
    self.exceedsEndPrice.run Db.exec db =
      (self.scan (db.window stock.ticker_symbol self.row.start_time)).run Db.exec db := by
  unfold Record.exceedsEndPrice
  simp only [select, bind_eq, query_bind, run_step, exec_select, h]

theorem run_exceedsEndTime {self : Record} {db : Db} {stock : Stock} {date : Time} (hin : self.stockIn db = some stock)
    (hd : stock.date = some date) :
    ∃ self', self'.row = self.row ∧ self'.predictionend = self.predictionend ∧ self'.stock = some stock ∧
      self.exceedsEndTime.run Db.exec db =
        if self.row.prediction_end_time ≤ date then
          (self'.endAt self.row.prediction_end_time stock.daily_stock_price).run Db.exec db
        else (.ok self', db) := by
  rcases run_loadStock self "date" db with ⟨self', stock', hrun, hin', hstock, hrow, hend⟩ | ⟨-, hnone⟩
  · rw [hin, Option.some.injEq] at hin'
    subst hin'
    refine ⟨self', hrow, hend, hstock, (run_bind_ok Db.exec hrun _).trans ?_⟩
    simp only [hd, orNil, bind_eq, ret_bind, hrow]
    split <;> rfl
  · rw [hin] at hnone; cases hnone

/-- `exceeds_end_price`, then `exceeds_end_time`, on a prediction just loaded. -/
def endingPass (row : Prediction) : Request Unit := do
  let self ← Record.exceedsEndPrice { row := row }
  let _ ← self.exceedsEndTime
  return ()

/-- No bar surpasses: only the end time counts. -/
theorem endingPass_quiet {db : Db} {p : Prediction} {start_price : Rat} {stock : Stock} {date : Time}
    (hp : db.prediction p.id = some p) (ha : p.active = true) (hs : p.start_price = some start_price)
    (hst : db.stock p.stock_id = some stock) (hd : stock.date = some date)
    (hno : ∀ b ∈ db.window stock.ticker_symbol p.start_time,
      surpasses p.prediction_end_price start_price b.close_price = false) :
    (date < p.prediction_end_time → ((endingPass p).run Db.exec db).2.core = db.core) ∧
    (p.prediction_end_time ≤ date → Inactive ((endingPass p).run Db.exec db).2 p.id ∧
      EndedAt ((endingPass p).run Db.exec db).2 p.id p.prediction_end_time stock.daily_stock_price) := by
  have hprice : (Record.exceedsEndPrice { row := p }).run Db.exec db = (.ok { row := p }, db) := by
    rw [run_exceedsEndPrice hst, scan_none _ hs hno]
    rfl
  have hin : Record.stockIn { row := p } db = some stock := hst
  obtain ⟨self, hrow, hend, hstock, htime⟩ := run_exceedsEndTime hin hd
  have hpass : ((endingPass p).run Db.exec db).2 = ((Record.exceedsEndTime { row := p }).run Db.exec db).2 := by
    refine (congrArg Prod.snd (run_bind_ok Db.exec hprice _)).trans ?_
    exact run_bind_ret Db.exec _ (fun _ => ()) db
  dsimp only at htime hrow
  rw [hpass, htime]
  constructor
  · intro hlt
    rw [if_neg (not_le.2 hlt)]
  · intro hle
    rw [if_pos hle]
    subst hrow
    rcases run_endAt self self.row.prediction_end_time stock.daily_stock_price db with ⟨-, -, hcore, -⟩ | ⟨-, hnone⟩
    · exact ⟨(inactive_ended hp (.inl ha) _).of_core hcore, (endedAt_ended self db _ _).of_core hcore⟩
    · simp [Record.stockIn, hstock] at hnone

/-- A bar surpasses: the prediction ends at it, and `exceeds_end_time` may end it again. -/
theorem endingPass_hit {db : Db} {p : Prediction} {stock : Stock} {date : Time} (time : Time) (price : Option Rat)
    (hp : db.prediction p.id = some p) (ha : p.active = true) (hst : db.stock p.stock_id = some stock)
    (hd : stock.date = some date)
    (hrun : (Record.exceedsEndPrice { row := p }).run Db.exec db =
      (Record.endAt { row := p } time price).run Db.exec db) :
    Inactive ((endingPass p).run Db.exec db).2 p.id ∧
    (date < p.prediction_end_time → EndedAt ((endingPass p).run Db.exec db).2 p.id time price) ∧
    (p.prediction_end_time ≤ date → db.user p.user_id ≠ none →
      ∃ price, EndedAt ((endingPass p).run Db.exec db).2 p.id p.prediction_end_time price) := by
  have hin : Record.stockIn { row := p } db = some stock := hst
  rcases run_endAt { row := p } time price db with ⟨stock', hin', hcore, hok⟩ | ⟨-, hnone⟩
  · obtain rfl : stock = stock' := Option.some.inj (hin.symm.trans hin')
    rcases hres : (Record.endAt { row := p } time price).run Db.exec db with ⟨_ | self, db'⟩ <;>
      rw [hres] at hcore hok hrun
    · have hpass : ((endingPass p).run Db.exec db).2 = db' := congrArg Prod.snd (run_bind_error Db.exec hrun _ :)
      rw [hpass]
      refine ⟨(inactive_ended hp (.inl ha) _).of_core hcore, fun _ => (endedAt_ended _ db _ _).of_core hcore,
        fun _ huser => ?_⟩
      obtain ⟨user, huser⟩ := Option.ne_none_iff_exists'.1 huser
      obtain ⟨self', hok⟩ := @endAt_ok { row := p } _ _ _ huser hin time price
      rw [hres] at hok
      cases hok
    · obtain ⟨hrow, hend, stock', hstock, hdate⟩ := hok self rfl
      have hin₂ : self.stockIn db' = some stock' := by simp [Record.stockIn, hstock]
      obtain ⟨self₂, hrow₂, hend₂, hstock₂, htime⟩ := run_exceedsEndTime hin₂ (hdate.trans hd)
      have hpass : ((endingPass p).run Db.exec db).2 = (self.exceedsEndTime.run Db.exec db').2 := by
        refine (congrArg Prod.snd (run_bind_ok Db.exec hrun _)).trans ?_
        exact run_bind_ret Db.exec _ (fun _ => ()) db'
      have hend_time : self.row.prediction_end_time = p.prediction_end_time := by rw [hrow]
      have hi : Inactive db' p.id := (inactive_ended hp (.inl ha) _).of_core hcore
      rw [hpass, htime, hend_time]
      by_cases hle : p.prediction_end_time ≤ date
      · rw [if_pos hle]
        have hid : self₂.row.id = p.id := by rw [hrow₂, hrow]
        obtain ⟨q, hq, hqa⟩ := hi
        rcases run_endAt self₂ p.prediction_end_time stock'.daily_stock_price db' with ⟨-, -, hcore₂, -⟩ | ⟨-, hnone⟩
        · rw [← hid] at hq ⊢
          exact ⟨(inactive_ended hq (.inr hqa) _).of_core hcore₂, fun hlt => absurd hle (not_le.2 hlt),
            fun _ _ => ⟨_, (endedAt_ended self₂ db' _ _).of_core hcore₂⟩⟩
        · simp [Record.stockIn, hstock₂] at hnone
      · rw [if_neg hle]
        exact ⟨hi, fun _ => (endedAt_ended _ db _ _).of_core hcore, fun hle' => absurd hle' hle⟩
  · rw [hin] at hnone; cases hnone

/-- One pass over an active prediction: the 80 latest bars since its start decide,
and the stock's date decides whether its time is up. Without its user the first
ending raises, and the second is not reached. -/
theorem endingPass_outcome (db : Db) (p : Prediction) {start_price : Rat} {stock : Stock} {date : Time}
    (hp : db.prediction p.id = some p) (ha : p.active = true) (hs : p.start_price = some start_price)
    (h0 : 0 < start_price) (hst : db.stock p.stock_id = some stock) (hd : stock.date = some date) :
    ∃ W, Latest 80 (db.barsAfter stock.ticker_symbol p.start_time) W ∧
      (date < p.prediction_end_time →
        (∃ b ∈ W, b.date ≤ p.prediction_end_time ∧ Beyond p.prediction_end_price start_price b.close_price) →
        Inactive ((endingPass p).run Db.exec db).2 p.id ∧
        ∃ b ∈ W, b.date ≤ p.prediction_end_time ∧ Beyond p.prediction_end_price start_price b.close_price ∧
          (∀ c ∈ W, c.date ≤ p.prediction_end_time → Beyond p.prediction_end_price start_price c.close_price →
            b.date ≤ c.date) ∧
          EndedAt ((endingPass p).run Db.exec db).2 p.id b.date (some b.close_price)) ∧
      (date < p.prediction_end_time → (∀ b ∈ W, ¬Beyond p.prediction_end_price start_price b.close_price) →
        ((endingPass p).run Db.exec db).2.core = db.core) ∧
      (p.prediction_end_time ≤ date → Inactive ((endingPass p).run Db.exec db).2 p.id) ∧
      (p.prediction_end_time ≤ date → (∀ b ∈ W, ¬Beyond p.prediction_end_price start_price b.close_price) →
        EndedAt ((endingPass p).run Db.exec db).2 p.id p.prediction_end_time stock.daily_stock_price) ∧
      (p.prediction_end_time ≤ date → db.user p.user_id ≠ none →
        (∀ b ∈ W, b.date ≤ p.prediction_end_time → ¬Beyond p.prediction_end_price start_price b.close_price) →
        ∃ price, EndedAt ((endingPass p).run Db.exec db).2 p.id p.prediction_end_time price) := by
  refine ⟨db.window stock.ticker_symbol p.start_time, window_latest _ _ _, ?_⟩
  simp only [← surpasses_iff h0, Bool.not_eq_true]
  by_cases hhit : ∃ b ∈ db.window stock.ticker_symbol p.start_time,
      surpasses p.prediction_end_price start_price b.close_price = true
  · obtain ⟨b, hb, hsur, hmin, hscan⟩ := scan_some { row := p } hs (window_sorted _ _ _) hhit
    obtain ⟨hi, he, htime⟩ := endingPass_hit b.date (some b.close_price) hp ha hst hd
      (by rw [← hscan]; exact run_exceedsEndPrice hst)
    have hno : ¬∀ b ∈ db.window stock.ticker_symbol p.start_time,
        surpasses p.prediction_end_price start_price b.close_price = false := by
      intro h
      rw [h b hb] at hsur
      cases hsur
    refine ⟨fun hlt ⟨c, hc, hcd, hcs⟩ =>
        ⟨hi, b, hb, (hmin c hc hcs).trans hcd, hsur, fun d hd _ hds => hmin d hd hds, he hlt⟩,
      fun _ h => absurd h hno, fun _ => hi, fun _ h => absurd h hno, fun hle huser _ => htime hle huser⟩
  · have hno : ∀ b ∈ db.window stock.ticker_symbol p.start_time,
        surpasses p.prediction_end_price start_price b.close_price = false := by
      intro b hb
      exact Bool.eq_false_iff.2 fun h => hhit ⟨b, hb, h⟩
    obtain ⟨hbefore, hafter⟩ := endingPass_quiet hp ha hs hst hd hno
    refine ⟨fun _ ⟨b, hb, _, hbs⟩ => absurd ⟨b, hb, hbs⟩ hhit, fun hlt _ => hbefore hlt, fun hle => (hafter hle).1,
      fun hle _ => (hafter hle).2, fun hle _ _ => ⟨_, (hafter hle).2⟩⟩

/-- An active prediction from 100 to 110. -/
def rising : Prediction :=
  ⟨1, 1, 1, "up", .finite 0, true, false, some 100, 1436191260 * 1000000000, 110, 1436277660 * 1000000000,
    1436191260000, 1436277660000⟩

/-- A bar at a price, a number of minutes after `rising` starts. -/
def barAt (minutes : Nat) (close_price : Rat) : Intradayprice :=
  ⟨"ABC", (1436191260 + 60 * minutes) * 1000000000, close_price⟩

/-- `rising`, the stock being at 12 o'clock and its bars being these. -/
def risingWith (bars : List Intradayprice) : Db :=
  { oneStock with
    predictions := [rising]
    intradayprices := bars
    prediction_seq := 2 }

/-- Of two bars beyond 110, the prediction ends at the first. -/
theorem endingPass_outcome_two_bars :
    Inactive ((endingPass rising).run Db.exec (risingWith [barAt 5 112, barAt 10 115])).2 1 ∧
      EndedAt ((endingPass rising).run Db.exec (risingWith [barAt 5 112, barAt 10 115])).2 1 (barAt 5 112).date
        (some 112) := by
  obtain ⟨W, ⟨rest, hperm, hlen, -⟩, hhit, -⟩ := endingPass_outcome (risingWith [barAt 5 112, barAt 10 115])
    rising rfl rfl rfl (by rfl) rfl rfl
  have hbars : (risingWith [barAt 5 112, barAt 10 115]).barsAfter "ABC" rising.start_time =
      [barAt 5 112, barAt 10 115] := by
    rfl
  rw [hbars] at hperm hlen
  have hrest : rest = [] := by
    have := hperm.length_eq
    rw [List.length_append, hlen] at this
    exact List.length_eq_zero_iff.1 (by simpa using this)
  rw [hrest, List.append_nil] at hperm
  obtain ⟨hi, b, hb, -, -, hmin, he⟩ := hhit (by decide)
    ⟨barAt 5 112, hperm.mem_iff.2 (by simp), by decide, by rfl⟩
  refine ⟨hi, ?_⟩
  have hle := hmin _ (hperm.mem_iff.2 (by simp : barAt 5 112 ∈ _)) (by decide) (by rfl)
  have hmem := hperm.mem_iff.1 hb
  simp only [List.mem_cons, List.not_mem_nil, or_false] at hmem
  rcases hmem with rfl | rfl
  · exact he
  · exact absurd hle (by decide)

/-- 80 bars short of 110, after one beyond it. -/
def longAgo : List Intradayprice := barAt 5 112 :: (List.range 80).map fun n => barAt (10 + 5 * n) 105

/-- `rising` when its time is up and its user is gone, and the one bar beyond 110 came after that time. -/
def abandoned : Db :=
  { risingWith [barAt 1500 112] with
    users := []
    stocks := [⟨1, "A stock", "ABC", some (1436281260 * 1000000000), some 112, some true, 1⟩] }

/-- The bar beyond 110 is not among the 80 latest, so the prediction goes on. And without its user a prediction that no
bar ended in time does not end at its time. -/
theorem endingPass_misses_early_bar :
    (¬∀ (db : Db) (p : Prediction) (start_price : Rat) (stock : Stock) (date : Time),
      db.prediction p.id = some p → p.active = true → p.start_price = some start_price → 0 < start_price →
      db.stock p.stock_id = some stock → stock.date = some date →
      ((∃ b ∈ db.barsAfter stock.ticker_symbol p.start_time, b.date ≤ p.prediction_end_time ∧
          Beyond p.prediction_end_price start_price b.close_price) →
        Inactive ((endingPass p).run Db.exec db).2 p.id ∧
        ∃ b ∈ db.barsAfter stock.ticker_symbol p.start_time, b.date ≤ p.prediction_end_time ∧
          Beyond p.prediction_end_price start_price b.close_price ∧
          (∀ c ∈ db.barsAfter stock.ticker_symbol p.start_time, c.date ≤ p.prediction_end_time →
            Beyond p.prediction_end_price start_price c.close_price → b.date ≤ c.date) ∧
          EndedAt ((endingPass p).run Db.exec db).2 p.id b.date (some b.close_price)) ∧
      ((∀ b ∈ db.barsAfter stock.ticker_symbol p.start_time, b.date ≤ p.prediction_end_time →
          ¬Beyond p.prediction_end_price start_price b.close_price) →
        (p.prediction_end_time ≤ date → Inactive ((endingPass p).run Db.exec db).2 p.id ∧
          ∃ price, EndedAt ((endingPass p).run Db.exec db).2 p.id p.prediction_end_time price) ∧
        (date < p.prediction_end_time → ((endingPass p).run Db.exec db).2.core = db.core))) ∧
    (∀ b ∈ abandoned.barsAfter "ABC" rising.start_time, rising.prediction_end_time < b.date) ∧
    EndedAt ((endingPass rising).run Db.exec abandoned).2 1 (barAt 1500 112).date (some 112) := by
  refine ⟨fun h => ?_, by decide,
    ⟨{ endingRow 1 (barAt 1500 112).date (some 112) with id := 1 }, by decide +kernel, rfl, rfl⟩⟩
  obtain ⟨hhit, -⟩ := h (risingWith longAgo) rising 100 _ _ rfl rfl rfl (by rfl) rfl rfl
  obtain ⟨⟨p, hp, ha⟩, -⟩ := hhit ⟨barAt 5 112, by decide, by decide, by rfl⟩
  have hactive : (((endingPass rising).run Db.exec (risingWith longAgo)).2.prediction 1).map (·.active) =
      some true := by
    decide +kernel
  rw [show ((endingPass rising).run Db.exec (risingWith longAgo)).2.prediction 1 = some p from hp, Option.map_some,
    ha] at hactive
  cases hactive

end MyStockIQ
