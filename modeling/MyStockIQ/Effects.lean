import MyStockIQ.Jobs
import MyStockIQ.SharedStore.KeyedRows
/-!
# What requests and jobs write

`Db.core` is what the theorems are about: predictions, Predictionends, and their
sequences. Most statements are quiet: they leave the core alone, and most of those
are mild: they do not say that a stock was viewed, either. The lemmas here say which
programs are quiet or mild, and what the others can write.
-/

open SharedStore Prog

namespace MyStockIQ

def Db.core (db : Db) : List Prediction × List Predictionend × Nat × Nat :=
  (db.predictions, db.predictionends, db.prediction_seq, db.predictionend_seq)

/-- A statement that neither reads nor writes the core, but to count. -/
def Stmt.Quiet : Stmt → Prop
  | .select (.user _) | .select (.userNamed _) | .select (.stock _) | .select (.stockTicker _) => True
  | .select (.intradayprices _) | .select (.predictionCount _) | .select (.activePredictionCount _) => True
  | .select (.streams _) | .select (.streamExists _) => True
  | .updateStock _ _ | .insertIntradayprices _ | .insertStream _ | .insertPopularity _ => True
  | .insertTag _ | .attachTag _ _ => True
  | _ => False

theorem core_exec_quiet {stmt : Stmt} (h : stmt.Quiet) (db : Db) : (db.exec stmt).core = db.core := by
  cases stmt <;> first | rfl | exact h.elim

abbrev Quietly {α : Type} (p : Request α) : Prop := p.Only Stmt.Quiet

/-- The statement does not set whether a stock was viewed. -/
def Stmt.Unviewing : Stmt → Prop
  | .updateStock _ changes => changes.viewed = none
  | _ => True

/-- A quiet statement that does not. -/
def Stmt.Mild (stmt : Stmt) : Prop := stmt.Quiet ∧ stmt.Unviewing

abbrev Mildly {α : Type} (p : Request α) : Prop := p.Only Stmt.Mild

theorem Mildly.quiet {α : Type} {p : Request α} (h : Mildly p) : Quietly p := h.mono fun _ hs => hs.1

theorem Quietly.core {α : Type} {p : Request α} (h : Quietly p) (db : Db) : (p.run Db.exec db).2.core = db.core :=
  h.run_frame (fun _ _ hl => core_exec_quiet hl _) db

/-- A quiet program keeps what depends on the core, and its results are what they always are. -/
theorem Quietly.triple {α : Type} {p : Request α} (h : Quietly p) {R : α → Prop} (hr : p.Ends R) {P : Db → Prop}
    (hP : ∀ db db', db'.core = db.core → P db → P db') : Triple Db.exec P p fun a db => R a ∧ P db := by
  intro db a db' hs hrun
  have hc := h.core db
  rw [hrun] at hc
  exact ⟨hr.run (congrArg Prod.fst hrun), hP db db' hc hs⟩

section Quiet
variable {α : Type}

theorem quiet_select {query : Query} {f : Db → α} (h : (Stmt.select query).Quiet) : Quietly (select query f) :=
  (only_query _ _).2 h

theorem quiet_write {stmt : Stmt} (h : stmt.Quiet) : Quietly (write stmt) := (only_exec _).2 h

theorem mild_select {query : Query} {f : Db → α} (h : (Stmt.select query).Quiet) : Mildly (select query f) :=
  (only_query _ _).2 ⟨h, trivial⟩

theorem mild_write {stmt : Stmt} (h : stmt.Mild) : Mildly (write stmt) := (only_exec _).2 h

theorem only_orNil {A : Stmt → Prop} (a : Option α) (method : String) : (orNil a method).Only A := by
  cases a <;> trivial

theorem only_percent {A : Stmt → Prop} (a b : Option Rat) : (percent a b).Only A := by
  cases a <;> cases b <;> trivial

theorem mild_currentUser (session : Option Nat) : Mildly (currentUser session) := by
  cases session with
  | none => trivial
  | some id => exact mild_select trivial

theorem mild_loadStock (self : Record) (method : String) : Mildly (self.loadStock method) := by
  unfold Record.loadStock
  split
  · trivial
  · exact .bind (mild_select trivial) fun found => .bind (only_orNil _ _) fun _ => trivial

theorem mild_loadUser (self : Record) (method : String) : Mildly (self.loadUser method) := by
  unfold Record.loadUser
  split
  · trivial
  · exact .bind (mild_select trivial) fun found => .bind (only_orNil _ _) fun _ => trivial

theorem only_stockSave {A : Stmt → Prop} {self : Stock} {assigned : StockChanges}
    (hselect : A (.select (.stockTicker self.ticker_symbol))) (hupdate : A (.updateStock self.id (assigned.dirty self))) :
    (self.save assigned).Only A := by
  refine .bind ((only_query _ _).2 hselect) fun valid => ?_
  cases valid with
  | false => trivial
  | true => exact .bind ((only_exec _).2 hupdate) fun _ => trivial

theorem quiet_stockSave (self : Stock) (assigned : StockChanges) : Quietly (self.save assigned) :=
  only_stockSave trivial trivial

theorem mild_stockSave (self : Stock) {assigned : StockChanges} (h : assigned.viewed = none) :
    Mildly (self.save assigned) := by
  refine only_stockSave ⟨trivial, trivial⟩ ⟨trivial, ?_⟩
  show assigned.viewed.filter _ = none
  rw [h]
  rfl

theorem mild_updateStockPredictionCount (stock : Stock) : Mildly (updateStockPredictionCount stock) :=
  .bind (mild_select trivial) fun _ => mild_stockSave _ rfl

theorem only_streamSave {A : Stmt → Prop} {self : Stream} (hselect : A (.select (.streamExists self)))
    (hinsert : A (.insertStream self)) : self.save.Only A := by
  refine .bind ((only_query _ _).2 hselect) fun taken => ?_
  cases taken with
  | true => trivial
  | false => exact .bind ((only_exec _).2 hinsert) fun _ => trivial

theorem only_streamCreate! {A : Stmt → Prop} {self : Stream} (hselect : A (.select (.streamExists self)))
    (hinsert : A (.insertStream self)) : self.create!.Only A := by
  refine .bind (only_streamSave hselect hinsert) fun saved => ?_
  cases saved with
  | true => trivial
  | false => trivial

theorem mild_streamSave (self : Stream) : Mildly self.save := only_streamSave ⟨trivial, trivial⟩ ⟨trivial, trivial⟩

theorem mild_streamCreate! (self : Stream) : Mildly self.create! :=
  only_streamCreate! ⟨trivial, trivial⟩ ⟨trivial, trivial⟩

theorem mild_announce (self : Record) (predictionend : Predictionend) : Mildly (self.announce predictionend) :=
  .bind (mild_write ⟨trivial, trivial⟩) fun _ => .bind (mild_loadUser _ _) fun _ => .bind (mild_streamSave _) fun _ =>
    .bind (mild_loadStock _ _) fun _ => .bind (mild_streamSave _) fun _ => trivial

theorem only_lookup {A : Stmt → Prop} (kind : TagKind) (h : ∀ name, A (.select (kind.query name))) (name : String) :
    (kind.lookup name).Only A := by
  refine .bind ((only_query _ _).2 (h name)) fun known => ?_
  cases known with
  | false => trivial
  | true => exact .bind ((only_query _ _).2 (h name)) fun _ => trivial

theorem only_tag {A : Stmt → Prop} (kind : TagKind) (h : ∀ name, A (.select (kind.query name))) (word : String) :
    (kind.tag word).Only A := by
  refine .bind (only_lookup kind h word) fun whole => ?_
  cases whole with
  | some tag => trivial
  | none =>
    refine .bind (only_lookup kind h _) fun short => ?_
    cases short with
    | some tag => trivial
    | none => trivial

section Tags
variable {A : Stmt → Prop} (hstock : ∀ ticker_symbol, A (.select (.stockTicker ticker_symbol)))
  (huser : ∀ username, A (.select (.userNamed username)))
include hstock huser

theorem only_tagWord (word : String) : (tagWord word).Only A := by
  unfold tagWord
  split
  · exact only_tag stockTag hstock _
  · exact only_tag userTag huser _
  · trivial

theorem only_tagWords (words : List String) : (tagWords words).Only A := by
  induction words with
  | nil => trivial
  | cons word rest ih => exact .bind (only_tagWord hstock huser word) fun _ => .bind ih fun _ => trivial

theorem only_addTags (htag : ∀ tag, A (.insertTag tag)) (content : Option String) (ticker_symbol : String)
    (tagable_type : ClassName) (tagable_id : Option Nat) :
    (addTags content ticker_symbol tagable_type tagable_id).Only A :=
  .bind (only_orNil _ _) fun _ => .bind (only_tagWords hstock huser _) fun _ =>
    .bind ⟨htag _, fun _ => trivial⟩ fun _ => trivial

end Tags

theorem mild_addTags (content : Option String) (ticker_symbol : String) (tagable_type : ClassName)
    (tagable_id : Option Nat) : Mildly (addTags content ticker_symbol tagable_type tagable_id) :=
  only_addTags (fun _ => ⟨trivial, trivial⟩) (fun _ => ⟨trivial, trivial⟩) (fun _ => ⟨trivial, trivial⟩) _ _ _ _

theorem only_targetTags {A : Stmt → Prop} {streamable : Ref}
    (hselect : ∀ targetable, A (.select (.streamExists ⟨streamable, targetable⟩)))
    (hinsert : ∀ targetable, A (.insertStream ⟨streamable, targetable⟩)) (tags : List (Option Ref)) :
    (targetTags streamable tags).Only A :=
  .each tags fun _ _ => .bind (only_orNil _ _) fun targetable =>
    .bind (only_streamSave (hselect targetable) (hinsert targetable)) fun _ => trivial

theorem mild_targetTags (streamable : Ref) (tags : List (Option Ref)) : Mildly (targetTags streamable tags) :=
  only_targetTags (fun _ => ⟨trivial, trivial⟩) (fun _ => ⟨trivial, trivial⟩) tags

theorem mild_announcePrediction (prediction : Prediction) (user : User) (stock : Stock) (tags : List (Option Ref)) :
    Mildly (announcePrediction prediction user stock tags) :=
  .bind (mild_select trivial) fun _ => .bind (mild_stockSave _ rfl) fun _ => .bind (only_orNil _ _) fun _ =>
    .bind (mild_streamCreate! _) fun _ => .bind (mild_streamCreate! _) fun _ => .bind (mild_targetTags _ _) fun _ =>
      mild_write ⟨trivial, trivial⟩

theorem mild_updateStock (ticker_symbol : String) : Mildly (updateStock ticker_symbol) := by
  refine .bind (mild_select trivial) fun _ => .bind (mild_select trivial) fun _ => .bind (only_orNil _ _) fun _ => ?_
  split
  · trivial
  · exact .bind (mild_select trivial) fun _ => .bind (only_orNil _ _) fun _ => .bind (mild_stockSave _ rfl) fun _ =>
      trivial

theorem mild_googleIntraday (ticker_symbol : String) (feed : List Intradayprice) :
    Mildly (googleIntraday ticker_symbol feed) := by
  refine .bind (mild_select trivial) fun rows => ?_
  split
  · trivial
  · exact .bind (mild_write ⟨trivial, trivial⟩) fun _ => mild_updateStock _

theorem only_endTime {A : Stmt → Prop} (parse : String → Option Int) (params : PredictionParams) :
    (endTime parse params).Only A := by
  unfold endTime
  split
  · trivial
  · refine .bind ?_ fun _ => ?_
    · unfold endString
      split <;> trivial
    · split
      · trivial
      · exact .bind (only_orNil _ _) fun _ => trivial

theorem only_endPrice {A : Stmt → Prop} (toPrice : String → Rat) (params : PredictionParams) :
    (endPrice toPrice params).Only A :=
  .bind (only_orNil _ _) fun _ => trivial

end Quiet

/-! ## Primary keys -/

/-- Ids are unique, and below their sequence. -/
structure Keyed (db : Db) : Prop where
  prediction_lt : ∀ p ∈ db.predictions, p.id < db.prediction_seq
  prediction_inj : db.predictions.Pairwise fun p q => p.id ≠ q.id
  predictionend_lt : ∀ e ∈ db.predictionends, e.id < db.predictionend_seq
  predictionend_inj : db.predictionends.Pairwise fun e f => e.id ≠ f.id

/-- A row of a table after an `INSERT` was there, or is the new one. -/
theorem mem_inserted {α : Type} {rows : List α} {row new : α} (h : row ∈ rows ++ [new]) : row ∈ rows ∨ row = new := by
  simpa using h

/-- A row of a table after an `UPDATE` was there, or is what the `UPDATE` makes of one that was. -/
theorem mem_updated {α κ : Type} [DecidableEq κ] {key : α → κ} {set : α → α} {id : κ} {rows : List α} {row : α}
    (h : row ∈ rows.map fun r => if key r = id then set r else r) :
    (row ∈ rows ∧ key row ≠ id) ∨ ∃ r ∈ rows, key r = id ∧ set r = row := by
  obtain ⟨r, hr, rfl⟩ := List.mem_map.1 h
  split
  · exact .inr ⟨r, hr, ‹_›, rfl⟩
  · exact .inl ⟨hr, ‹_›⟩

/-- An `UPDATE` of the row `id`, the keys being kept. -/
theorem updated_key {α κ : Type} [DecidableEq κ] (key : α → κ) (set : α → α) (h : ∀ row, key (set row) = key row)
    (id : κ) (row : α) : key (if key row = id then set row else row) = key row := by
  split
  · exact h row
  · rfl

theorem Keyed.exec {db : Db} (h : Keyed db) (stmt : Stmt) : Keyed (db.exec stmt) := by
  cases stmt with
  | insertPrediction row =>
    refine ⟨fun p hp => ?_, ?_, h.predictionend_lt, h.predictionend_inj⟩
    · rcases mem_inserted hp with hp | rfl
      · exact Nat.lt_succ_of_lt (h.prediction_lt p hp)
      · exact Nat.lt_succ_self _
    · refine List.pairwise_append.2 ⟨h.prediction_inj, List.pairwise_singleton _ _, fun p hp q hq => ?_⟩
      rw [List.mem_singleton] at hq; subst hq
      exact (h.prediction_lt p hp).ne
  | insertPredictionend row =>
    refine ⟨h.prediction_lt, h.prediction_inj, fun e he => ?_, ?_⟩
    · rcases mem_inserted he with he | rfl
      · exact Nat.lt_succ_of_lt (h.predictionend_lt e he)
      · exact Nat.lt_succ_self _
    · refine List.pairwise_append.2 ⟨h.predictionend_inj, List.pairwise_singleton _ _, fun e he f hf => ?_⟩
      rw [List.mem_singleton] at hf; subst hf
      exact (h.predictionend_lt e he).ne
  | updatePrediction id changes =>
    have hid := updated_key Prediction.id changes.set (fun _ => rfl) id
    refine ⟨fun p hp => ?_, ?_, h.predictionend_lt, h.predictionend_inj⟩
    · obtain ⟨q, hq, rfl⟩ := List.mem_map.1 hp
      rw [hid]
      exact h.prediction_lt q hq
    · refine List.pairwise_map.2 (h.prediction_inj.imp fun {p q} hpq => ?_)
      rwa [hid, hid]
  | updatePredictionend id changes =>
    have hid := updated_key Predictionend.id changes.set (fun _ => rfl) id
    refine ⟨h.prediction_lt, h.prediction_inj, fun e he => ?_, ?_⟩
    · obtain ⟨f, hf, rfl⟩ := List.mem_map.1 he
      rw [hid]
      exact h.predictionend_lt f hf
    · refine List.pairwise_map.2 (h.predictionend_inj.imp fun {e f} hef => ?_)
      rwa [hid, hid]
  | destroyPrediction id =>
    exact ⟨fun p hp => h.prediction_lt p (List.mem_of_mem_filter hp), h.prediction_inj.filter _,
      h.predictionend_lt, h.predictionend_inj⟩
  | destroyPredictionend prediction_id id =>
    exact ⟨h.prediction_lt, h.prediction_inj,
      fun e he => h.predictionend_lt e (List.mem_of_mem_filter he), h.predictionend_inj.filter _⟩
  | _ => exact ⟨h.prediction_lt, h.prediction_inj, h.predictionend_lt, h.predictionend_inj⟩

theorem Keyed.run {α : Type} {db : Db} (h : Keyed db) (p : Request α) : Keyed (p.run Db.exec db).2 :=
  p.only_true.run_inv (fun _ l _ hs => hs.exec l) h

theorem Keyed.of_core {db db' : Db} (h : Keyed db) (hc : db'.core = db.core) : Keyed db' := by
  simp only [Db.core, Prod.mk.injEq] at hc
  obtain ⟨hp, he, hps, hes⟩ := hc
  exact ⟨by rw [hp, hps]; exact h.1, by rw [hp]; exact h.2, by rw [he, hes]; exact h.3, by rw [he]; exact h.4⟩

theorem Keyed.prediction_keys {db : Db} (h : Keyed db) : UniqueKeys Prediction.id db.predictions :=
  h.prediction_inj

theorem Keyed.predictionend_keys {db : Db} (h : Keyed db) : UniqueKeys Predictionend.id db.predictionends :=
  h.predictionend_inj

theorem prediction_found {db : Db} {id : Nat} {p : Prediction} (h : db.prediction id = some p) :
    p ∈ db.predictions ∧ p.id = id :=
  ⟨List.mem_of_find?_eq_some h, by simpa using List.find?_some h⟩

theorem predictionend_found {db : Db} {id : Nat} {e : Predictionend} (h : db.predictionend id = some e) :
    e ∈ db.predictionends ∧ e.id = id :=
  ⟨List.mem_of_find?_eq_some h, by simpa using List.find?_some h⟩

@[simp] theorem mem_activePredictions {db : Db} {p : Prediction} :
    p ∈ db.activePredictions ↔ p ∈ db.predictions ∧ p.active = true := by
  simp [Db.activePredictions]

theorem activePrediction_found {db : Db} {user_id stock_id : Nat} {p : Prediction}
    (h : db.activePrediction user_id stock_id = some p) : p ∈ db.predictions ∧ p.active = true :=
  mem_activePredictions.1 (List.mem_of_find?_eq_some h)

theorem Keyed.prediction_ext {db : Db} (h : Keyed db) {p q : Prediction} (hp : p ∈ db.predictions)
    (hq : q ∈ db.predictions) (hid : p.id = q.id) : p = q :=
  h.prediction_keys.eq hp hq hid

theorem Keyed.predictionend_ext {db : Db} (h : Keyed db) {e f : Predictionend} (he : e ∈ db.predictionends)
    (hf : f ∈ db.predictionends) (hid : e.id = f.id) : e = f :=
  h.predictionend_keys.eq he hf hid

theorem PredictionChanges.ne_activate {changes : PredictionChanges} (h : changes.active = none) :
    changes.active ≠ some true := by
  simp [h]

/-- An `UPDATE` that does not activate the row finds it active if it leaves it so. -/
theorem PredictionChanges.active_of_set {changes : PredictionChanges} (h : changes.active ≠ some true)
    {row : Prediction} (ha : (changes.set row).active = true) : row.active = true := by
  have ha : changes.active.getD row.active = true := ha
  cases hc : changes.active with
  | none => rwa [hc] at ha
  | some a =>
    rw [hc] at ha
    exact absurd (hc.trans (congrArg some ha)) h

/-- A column that changes gets the assigned value. -/
theorem dirty_some {α : Type} [DecidableEq α] {loaded t : α} {assigned : Option α}
    (h : dirty loaded assigned = some t) : assigned = some t := (Option.filter_eq_some_iff.1 h).1

@[simp] theorem dirty_getD {α : Type} [DecidableEq α] (loaded : α) (assigned : Option α) :
    (dirty loaded assigned).getD loaded = assigned.getD loaded := by
  cases assigned with
  | none => rfl
  | some a => by_cases h : a = loaded <;> simp [dirty, Option.filter, h]

theorem dirty_or {α : Type} [DecidableEq α] (loaded assigned : Option α) :
    (assigned.filter (some · ≠ loaded)).or loaded = assigned.or loaded := by
  cases assigned with
  | none => rfl
  | some a => by_cases h : some a = loaded <;> simp [Option.filter, h]

/-- A save leaves the row with what was assigned. -/
theorem PredictionChanges.set_dirty (assigned : PredictionChanges) (row : Prediction) :
    (assigned.dirty row).set row = assigned.set row := by
  simp only [set, dirty, dirty_getD, dirty_or]

theorem PredictionendChanges.set_dirty (assigned : PredictionendChanges) (row : Predictionend) :
    (assigned.dirty row).set row = assigned.set row := by
  simp only [set, dirty, dirty_getD, dirty_or]

/-! ## The core after a save -/

/-- The core after a statement depends on the core before it. -/
theorem core_exec {db db' : Db} (h : db'.core = db.core) (stmt : Stmt) :
    (db'.exec stmt).core = (db.exec stmt).core := by
  simp only [Db.core, Prod.mk.injEq] at h
  obtain ⟨hp, he, hps, hes⟩ := h
  cases stmt <;> simp [Db.core, Db.exec, Db.destroyDependents, hp, he, hps, hes]

theorem core_bind_ok {α β : Type} {p : Request α} {a : α} {db db' : Db} (h : p.run Db.exec db = (.ok a, db'))
    (f : α → Request β) : ((p.bind f).run Db.exec db).2.core = ((f a).run Db.exec db').2.core := by
  rw [run_bind_ok Db.exec h]

/-- The stock the object uses: the one it has loaded, or else the row. -/
def Record.stockIn (self : Record) (db : Db) : Option Stock := self.stock.or (db.stock self.row.stock_id)

theorem run_loadStock (self : Record) (method : String) (db : Db) :
    (∃ self' stock, (self.loadStock method).run Db.exec db = (.ok (self', stock), db) ∧ self.stockIn db = some stock ∧
      self'.stock = some stock ∧ self'.row = self.row ∧ self'.predictionend = self.predictionend) ∨
    ((self.loadStock method).run Db.exec db = (.error (.noMethodError method), db) ∧ self.stockIn db = none) := by
  unfold Record.loadStock Record.stockIn
  cases hs : self.stock with
  | some stock => exact .inl ⟨self, stock, rfl, rfl, hs, rfl, rfl⟩
  | none =>
    cases hf : db.stock self.row.stock_id with
    | some stock =>
      exact .inl ⟨{ self with stock := some stock }, stock, by simp [select, hf, orNil], rfl, rfl, rfl, rfl⟩
    | none => exact .inr ⟨by simp [select, hf, orNil], rfl⟩

theorem run_updateStockPredictionCount (stock : Stock) (db : Db) :
    ∃ stock' db', (updateStockPredictionCount stock).run Db.exec db = (.ok stock', db') ∧ stock'.date = stock.date ∧
      db'.core = db.core := by
  simp only [updateStockPredictionCount, Stock.save, select, bind_eq, query_bind, run_step, exec_select]
  by_cases hv : stock.valid db = true
  · rw [if_pos hv]
    exact ⟨_, _, rfl, rfl, rfl⟩
  · rw [if_neg hv]
    exact ⟨stock, db, rfl, rfl, rfl⟩

/-- A save raises and writes nothing, or writes its row and nothing else of the core. -/
theorem run_update (self : Record) (assigned : PredictionChanges) (db : Db) :
    (∃ self' stock stock' db', (self.update assigned).run Db.exec db = (.ok self', db') ∧
      self.stockIn db = some stock ∧ self'.stock = some stock' ∧ stock'.date = stock.date ∧
      self'.row = assigned.set self.row ∧ self'.predictionend = self.predictionend ∧
      db'.core = (db.exec (.updatePrediction self.row.id (assigned.dirty self.row))).core) ∨
    ((self.update assigned).run Db.exec db = (.error (.noMethodError "active_predictions="), db) ∧
      self.stockIn db = none) := by
  rcases run_loadStock self "active_predictions=" db with ⟨self', stock, hrun, hin, hstock, hrow, hend⟩ | ⟨hrun, hnone⟩
  · obtain ⟨stock', db', hcount, hdate, hcore⟩ := run_updateStockPredictionCount stock
      (db.exec (.updatePrediction self'.row.id (assigned.dirty self.row)))
    refine .inl ⟨{ self' with row := (assigned.dirty self.row).set self'.row, stock := some stock' }, stock, stock',
      db', ?_, hin, rfl, hdate, ?_, hend, ?_⟩
    · refine (run_bind_ok Db.exec hrun _).trans ?_
      simp only [write, bind_eq, exec_bind, run_step]
      exact run_bind_ok Db.exec hcount _
    · dsimp only
      rw [hrow, PredictionChanges.set_dirty]
    · rw [hcore, hrow]
  · exact .inr ⟨(run_bind_error Db.exec hrun _ :), hnone⟩

/-! ## The minute a verification finds -/

/-- `m` is an earliest minute of the feed not before `time`. -/
def Earliest (minute_array : List Intradayprice) (time : Time) (m : Intradayprice) : Prop :=
  m ∈ minute_array ∧ time ≤ m.date ∧ ∀ n ∈ minute_array, time ≤ n.date → m.date ≤ n.date

theorem minByDate_none {items : List Intradayprice} (h : minByDate items = none) : items = [] := by
  cases items with
  | nil => rfl
  | cons item rest =>
    unfold minByDate at h
    split at h
    · cases h
    · split at h <;> cases h

theorem minByDate_some {items : List Intradayprice} {m : Intradayprice} (h : minByDate items = some m) :
    m ∈ items ∧ ∀ n ∈ items, m.date ≤ n.date := by
  induction items generalizing m with
  | nil => cases h
  | cons item rest ih =>
    unfold minByDate at h
    split at h
    · next hrest =>
      cases h
      simp [minByDate_none hrest]
    · next other hrest =>
      obtain ⟨hmem, hmin⟩ := ih hrest
      split at h
      · next hlt =>
        cases h
        refine ⟨by simp [hmem], fun n hn => ?_⟩
        rcases List.mem_cons.1 hn with rfl | hn
        · exact le_of_lt hlt
        · exact hmin n hn
      · next hle =>
        cases h
        refine ⟨by simp, fun n hn => ?_⟩
        rcases List.mem_cons.1 hn with rfl | hn
        · exact le_refl _
        · exact le_trans (not_lt.1 hle) (hmin n hn)

theorem minMinute_earliest {minute_array : List Intradayprice} {time : Time} {m : Intradayprice}
    (h : minMinute minute_array time = some m) : Earliest minute_array time m := by
  obtain ⟨hmem, hmin⟩ := minByDate_some h
  simp only [List.mem_filter, decide_eq_true_eq] at hmem hmin
  exact ⟨hmem.1, hmem.2, fun n hn ht => hmin n ⟨hn, ht⟩⟩

/-! ## The statements of each program -/

/-- What the code writes into the core, but for creating and verifying: nothing
is activated, no start time moves, and a new Predictionend is unverified, with
the graph time of its end time. -/
def Stmt.Regular : Stmt → Prop
  | .insertPrediction _ | .updatePredictionend _ _ => False
  | .updatePrediction _ changes => changes.active ≠ some true ∧ changes.start_time = none
  | .insertPredictionend row => row.graph_end_time = graphTime row.actual_end_time ∧ row.end_price_verified = false
  | _ => True

/-- Regular, and no start price is assigned. -/
def Stmt.Plain : Stmt → Prop
  | .updatePrediction _ changes => changes.active ≠ some true ∧ changes.start_time = none ∧ changes.start_price = none
  | stmt => stmt.Regular

theorem Stmt.Plain.regular {stmt : Stmt} (h : stmt.Plain) : stmt.Regular := by
  cases stmt with
  | updatePrediction id changes => exact ⟨h.1, h.2.1⟩
  | _ => exact h

theorem Stmt.Quiet.plain {stmt : Stmt} (h : stmt.Quiet) : stmt.Plain := by
  cases stmt <;> trivial

abbrev Regularly {α : Type} (p : Request α) : Prop := p.Only Stmt.Regular

abbrev Plainly {α : Type} (p : Request α) : Prop := p.Only Stmt.Plain

theorem Plainly.regular {α : Type} {p : Request α} (h : Plainly p) : Regularly p := h.mono fun _ => Stmt.Plain.regular

theorem Quietly.plain {α : Type} {p : Request α} (h : Quietly p) : Plainly p := h.mono fun _ => Stmt.Quiet.plain

theorem Quietly.regular {α : Type} {p : Request α} (h : Quietly p) : Regularly p := h.plain.regular

/-- A plain statement that does not set whether a stock was viewed. -/
def Stmt.Tame (stmt : Stmt) : Prop := stmt.Plain ∧ stmt.Unviewing

theorem Stmt.Mild.tame {stmt : Stmt} (h : stmt.Mild) : stmt.Tame := ⟨h.1.plain, h.2⟩

abbrev Tamely {α : Type} (p : Request α) : Prop := p.Only Stmt.Tame

theorem Tamely.plain {α : Type} {p : Request α} (h : Tamely p) : Plainly p := h.mono fun _ hs => hs.1

theorem Mildly.tame {α : Type} {p : Request α} (h : Mildly p) : Tamely p := h.mono fun _ => Stmt.Mild.tame

/-- The statement destroys no prediction. -/
def Stmt.Sparing : Stmt → Prop
  | .destroyPrediction _ => False
  | _ => True

/-- A tame statement that destroys no prediction. -/
def Stmt.Gentle (stmt : Stmt) : Prop := stmt.Tame ∧ stmt.Sparing

theorem Stmt.Quiet.sparing {stmt : Stmt} (h : stmt.Quiet) : stmt.Sparing := by
  cases stmt <;> first | exact trivial | exact h.elim

theorem Stmt.Mild.gentle {stmt : Stmt} (h : stmt.Mild) : stmt.Gentle := ⟨h.tame, h.1.sparing⟩

abbrev Gently {α : Type} (p : Request α) : Prop := p.Only Stmt.Gentle

theorem Gently.tame {α : Type} {p : Request α} (h : Gently p) : Tamely p := h.mono fun _ hs => hs.1

theorem Gently.plain {α : Type} {p : Request α} (h : Gently p) : Plainly p := h.tame.plain

theorem Mildly.gentle {α : Type} {p : Request α} (h : Mildly p) : Gently p := h.mono fun _ => Stmt.Mild.gentle

theorem loadStock_row (self : Record) (method : String) : (self.loadStock method).Ends fun a => a.1.row = self.row := by
  unfold Record.loadStock
  split
  · exact rfl
  · exact .bind (ends_true _) fun found _ => .bind (ends_true _) fun _ _ => rfl

theorem only_update {A : Stmt → Prop} {self : Record} {assigned : PredictionChanges}
    (hq : ∀ stmt : Stmt, stmt.Mild → A stmt) (hu : A (.updatePrediction self.row.id (assigned.dirty self.row))) :
    (self.update assigned).Only A := by
  refine .bind_ends ((mild_loadStock _ _).mono hq) (loadStock_row _ _) fun ⟨loaded, stock⟩ hrow => ?_
  dsimp only at hrow ⊢
  rw [hrow]
  exact .bind ((only_exec _).2 hu) fun _ => .bind ((mild_updateStockPredictionCount _).mono hq) fun _ => trivial

/-- Assigning only `active := false` or a score. -/
theorem gentle_update {self : Record} {assigned : PredictionChanges} (ha : assigned.active ≠ some true)
    (ht : assigned.start_time = none) (hs : assigned.start_price = none) : Gently (self.update assigned) := by
  refine only_update (fun _ => Stmt.Mild.gentle) ⟨⟨⟨fun h => ha ?_, ?_, ?_⟩, trivial⟩, trivial⟩
  · exact dirty_some h
  · simp [PredictionChanges.dirty, dirty, ht]
  · simp [PredictionChanges.dirty, hs]

theorem only_finalUpdateScore {A : Stmt → Prop} {self : Record} (hq : ∀ stmt : Stmt, stmt.Mild → A stmt)
    (hs : ∀ query, A (.select query))
    (hu : ∀ id changes, changes.active = none → changes.start_time = none → changes.start_price = none →
      A (.updatePrediction id changes)) : self.finalUpdateScore.Only A := by
  refine .bind (only_percent _ _) fun _ => .bind ?_ fun _ => .bind (only_orNil _ _) fun _ =>
    .bind (only_percent _ _) fun _ => only_update hq (hu _ _ rfl rfl rfl)
  unfold Record.loadPredictionend
  split
  · trivial
  · exact (only_query _ _).2 (hs _)

theorem gentle_updateScore (self : Record) : Gently self.updateScore :=
  .bind (only_percent _ _) fun _ => .bind (mild_loadStock _ _).gentle fun _ => .bind (only_percent _ _) fun _ =>
    gentle_update (by simp) rfl rfl

theorem gentle_select {α : Type} (query : Query) (f : Db → α) : Gently (select query f) :=
  (only_query _ _).2 ⟨⟨trivial, trivial⟩, trivial⟩

theorem gentle_loadPredictionend (self : Record) : Gently self.loadPredictionend := by
  unfold Record.loadPredictionend
  split
  · trivial
  · exact gentle_select _ _

theorem gentle_buildPredictionend (self : Record) : Gently self.buildPredictionend := by
  refine .bind (gentle_loadPredictionend self) fun target => ?_
  cases target with
  | none => trivial
  | some e => exact (only_exec _).2 ⟨⟨trivial, trivial⟩, trivial⟩

theorem gentle_insertPredictionend {row : Predictionend} (h : row.graph_end_time = graphTime row.actual_end_time)
    (hv : row.end_price_verified = false) : Gently (insertPredictionend row) :=
  ⟨⟨⟨⟨h, hv⟩, trivial⟩, trivial⟩, fun _ => trivial⟩

theorem gentle_endAt (self : Record) (actual_end_time : Time) (actual_end_price : Option Rat) :
    Gently (self.endAt actual_end_time actual_end_price) :=
  .bind (gentle_update (by simp) rfl rfl) fun _ => .bind (gentle_buildPredictionend _) fun _ =>
    .bind (gentle_insertPredictionend rfl rfl) fun _ => (mild_announce _ _).gentle

theorem gentle_scan (self : Record) (prices : List Intradayprice) : Gently (self.scan prices) := by
  induction prices with
  | nil => trivial
  | cons price prices ih =>
    unfold Record.scan
    split
    · trivial
    · split
      · exact gentle_endAt _ _ _
      · exact ih

theorem gentle_exceedsEndPrice (self : Record) : Gently self.exceedsEndPrice := by
  refine .bind (gentle_select _ _) fun found => ?_
  cases found with
  | none => trivial
  | some stock => exact .bind (gentle_select _ _) fun _ => gentle_scan _ _

theorem gentle_exceedsEndTime (self : Record) : Gently self.exceedsEndTime := by
  refine .bind (mild_loadStock _ _).gentle fun _ => .bind (only_orNil _ _) fun _ => ?_
  split
  · exact gentle_endAt _ _ _
  · trivial

theorem gentle_bringUpToDate (self : Record) : Gently self.bringUpToDate :=
  .bind (gentle_exceedsEndPrice _) fun _ => .bind (gentle_exceedsEndTime _) fun _ => gentle_updateScore _

theorem gentle_endByHand (self : Record) (stock : Stock) (current_user : User) (now : Time)
    (content : Option String) : Gently (endByHand self stock current_user now content) :=
  .bind (gentle_update (by simp) rfl rfl) fun _ => .bind (gentle_buildPredictionend _) fun _ =>
    .bind (only_orNil _ _) fun _ => .bind (gentle_insertPredictionend rfl rfl) fun _ =>
      .bind ((only_exec _).2 ⟨⟨trivial, trivial⟩, trivial⟩) fun _ => .bind (mild_addTags _ _ _ _).gentle fun _ =>
        .bind (mild_streamCreate! _).gentle fun _ => .bind (mild_streamCreate! _).gentle fun _ =>
          (mild_targetTags _ _).gentle

theorem only_redirectNonUser {A : Stmt → Prop} (hq : ∀ stmt : Stmt, stmt.Mild → A stmt) {session : Option Nat}
    {action : User → Request Reply} (h : ∀ user, (action user).Only A) : (redirectNonUser session action).Only A := by
  refine .bind ((mild_currentUser _).mono hq) fun current_user => ?_
  cases current_user with
  | none => trivial
  | some user => exact h user

theorem gentle_showPrediction (session : Option Nat) (id : Nat) :
    Gently (PredictionsController.show session id) := by
  refine only_redirectNonUser (fun _ => Stmt.Mild.gentle) fun _ => .bind (gentle_select _ _) fun _ =>
    .bind (only_orNil _ _) fun row => .bind (gentle_select _ _) fun _ => .bind ?_ fun _ =>
      .bind (only_orNil _ _) fun _ => trivial
  unfold showPrediction
  split
  · exact .bind (gentle_bringUpToDate _) fun _ => trivial
  · trivial

theorem quiet_viewStock (stock : Stock) (feed : List Intradayprice) : Quietly (viewStock stock feed) := by
  unfold viewStock
  split
  · exact .bind (mild_googleIntraday _ _).quiet fun _ => .bind (quiet_stockSave _ _) fun _ => trivial
  · trivial

theorem gentle_showActivePrediction (current_user : User) (stock : Stock) :
    Gently (showActivePrediction current_user stock) := by
  refine .bind (gentle_select _ _) fun exists_ => ?_
  cases exists_ with
  | false => trivial
  | true =>
    exact .bind (gentle_select _ _) fun _ => .bind (only_orNil _ _) fun _ => .bind (gentle_bringUpToDate _) fun _ =>
      gentle_buildPredictionend _

theorem only_showStock {A : Stmt → Prop} (hq : ∀ stmt : Stmt, stmt.Quiet → A stmt) (hg : ∀ stmt : Stmt, stmt.Gentle → A stmt)
    (session : Option Nat) (ticker_symbol : String) (feed : List Intradayprice) :
    (StocksController.show session ticker_symbol feed).Only A :=
  only_redirectNonUser (fun stmt hs => hq stmt hs.1) fun _ => .bind ((only_query _ _).2 (hq _ trivial)) fun _ =>
    .bind (only_orNil _ _) fun _ => .bind ((quiet_viewStock _ _).mono hq) fun _ =>
      .bind ((gentle_showActivePrediction _ _).mono hg) fun _ => trivial

theorem plain_showStock (session : Option Nat) (ticker_symbol : String) (feed : List Intradayprice) :
    Plainly (StocksController.show session ticker_symbol feed) :=
  only_showStock (fun _ => Stmt.Quiet.plain) (fun _ hs => hs.1.1) session ticker_symbol feed

theorem mild_startedOrChildren (row : Prediction) (now : Time) : Mildly (startedOrChildren row now) := by
  unfold startedOrChildren
  split
  · trivial
  · exact mild_select trivial

theorem tame_closePrediction (row : Prediction) (now : Time) (session : Option Nat) (content : Option String) :
    Tamely (closePrediction row now session content) := by
  refine .bind (mild_currentUser _).tame fun _ => .bind (only_orNil _ _) fun _ =>
    .bind (mild_loadStock _ _).tame fun loaded => .bind (mild_startedOrChildren _ _).tame fun ended => ?_
  cases ended with
  | true => exact .bind (gentle_endByHand _ _ _ _ _).tame fun _ => trivial
  | false =>
    exact .bind (.bind (gentle_buildPredictionend _).tame fun _ => (only_exec _).2 ⟨trivial, trivial⟩) fun _ => trivial

theorem tame_createPredictionend (now : Time) (session : Option Nat) (prediction_id : Nat)
    (content : Option String) : Tamely (PredictionendsController.create now session prediction_id content) := by
  refine .bind (gentle_select _ _).tame fun exists_ => ?_
  cases exists_ with
  | false => trivial
  | true =>
    refine .bind (gentle_select _ _).tame fun _ => .bind (only_orNil _ _) fun row =>
      .bind (gentle_select _ _).tame fun ended => ?_
    cases ended with
    | true => trivial
    | false => exact tame_closePrediction _ _ _ _

theorem only_savePrediction {A : Stmt → Prop} {row : Prediction} {tag_id : Nat}
    (hq : ∀ stmt : Stmt, stmt.Mild → A stmt) (hi : A (.insertPrediction row)) : (savePrediction row tag_id).Only A :=
  .bind ((only_query _ _).2 (hq _ ⟨trivial, trivial⟩)) fun _ => .bind (only_orNil _ _) fun _ =>
    .bind ⟨hi, fun _ => trivial⟩ fun _ => .bind ((only_exec _).2 (hq _ ⟨trivial, trivial⟩)) fun _ =>
      .bind ((mild_updateStockPredictionCount _).mono hq) fun _ => trivial

/-- The row `create` saves at `now`, for the form `params`. -/
structure Created (parse : String → Option Int) (now : Time) (params : PredictionParams) (row : Prediction) : Prop where
  active : row.active = true
  graph_start_time : row.graph_start_time = graphTime row.start_time
  graph_end_time : row.graph_end_time = graphTime row.prediction_end_time
  start_time : closestStartTime (graphTime now) = some row.start_time
  end_time : ∃ end_day end_time unix, params.end_day = some end_day ∧ params.end_time = some end_time ∧
    parse (end_day ++ " " ++ end_time) = some unix ∧ closestStartTime (unix * 1000) = some row.prediction_end_time
  later : row.start_time < row.prediction_end_time

theorem orNil_ends {α : Type} (a : Option α) (method : String) : (orNil a method).Ends fun b => a = some b := by
  cases a with
  | none => trivial
  | some a => exact rfl

/-- An end time comes from the two strings of the form. -/
theorem endTime_ends (parse : String → Option Int) (params : PredictionParams) :
    (endTime parse params).Ends fun t => ∀ time, t = some time → ∃ end_day end_time unix,
      params.end_day = some end_day ∧ params.end_time = some end_time ∧
      parse (end_day ++ " " ++ end_time) = some unix ∧ closestStartTime (unix * 1000) = some time := by
  unfold endTime
  split
  · rintro time ⟨⟩
  · have hstring : (endString params).Ends fun str => ∃ end_day end_time, params.end_day = some end_day ∧
        params.end_time = some end_time ∧ str = end_day ++ " " ++ end_time := by
      unfold endString
      split
      · trivial
      · trivial
      · next end_day end_time hd ht => exact ⟨end_day, end_time, hd, ht, rfl⟩
    refine hstring.bind fun str ⟨end_day, end_time, hd, ht, hstr⟩ => ?_
    cases hp : parse str with
    | none => trivial
    | some unix =>
      refine (orNil_ends _ _).bind fun t hc => ?_
      rintro time ⟨⟩
      exact ⟨end_day, end_time, unix, hd, ht, hstr ▸ hp, hc⟩

theorem endPrice_ends (toPrice : String → Rat) (params : PredictionParams) :
    (endPrice toPrice params).Ends fun price => endPrice toPrice params = .ret price := by
  unfold endPrice
  cases params.prediction_end_price with
  | none => trivial
  | some prediction_end_price => exact rfl

/-- A prediction is saved only if there is no message. -/
theorem refusals_nil {exists_ : Bool} {ticker_symbol : String} {params : PredictionParams} {start_time end_time : Time}
    (h : refusals exists_ ticker_symbol params start_time end_time = []) : exists_ = false ∧ start_time < end_time := by
  simp only [refusals, messageIf, List.append_eq_nil_iff] at h
  obtain ⟨⟨⟨h1, -⟩, -⟩, h2⟩ := h
  refine ⟨?_, ?_⟩
  · cases exists_ with
    | false => rfl
    | true => simp at h1
  · by_contra hle
    simp [not_lt.1 hle] at h2

theorem only_createPrediction {A : Stmt → Prop} {toPrice : String → Rat} (parse : String → Option Int) (now : Time) (session : Option Nat)
    (params : PredictionParams) (hq : ∀ stmt : Stmt, stmt.Mild → A stmt) (hs : ∀ query, A (.select query))
    (hi : ∀ row, Created parse now params row → endPrice toPrice params = .ret (some row.prediction_end_price) →
      A (.insertPrediction row)) :
    (PredictionsController.createWith toPrice parse now session params).Only A := by
  refine .bind ((mild_currentUser _).mono hq) fun _ => .bind ((only_query _ _).2 (hs _)) fun found => ?_
  cases found with
  | none => trivial
  | some stock =>
    refine .bind_ends (only_orNil _ _) (orNil_ends _ _) fun start_time hstart => .bind (only_orNil _ _) fun user =>
      .bind_ends (only_endTime _ _) (endTime_ends _ _) fun end_time hend =>
        .bind_ends (only_endPrice _ _) (endPrice_ends _ _) fun end_price hprice =>
          .bind ((mild_addTags _ _ _ _).mono hq) fun tags => ?_
    cases end_price with
    | none => trivial
    | some end_price =>
      cases end_time with
      | none => trivial
      | some end_time =>
        refine .bind ((only_query _ _).2 (hs _)) fun exists_ => ?_
        split
        · -- Only here is a prediction saved.
          next hnone =>
          have hlater := (refusals_nil hnone).2
          exact .bind (only_savePrediction hq (hi _ ⟨rfl, rfl, rfl, hstart, hend _ rfl, hlater⟩ hprice)) fun _ =>
            .bind ((mild_announcePrediction _ _ _ _).mono hq) fun _ => trivial
        · trivial

/-- A start verification changes a prediction, and leaves it as active as it is. -/
theorem only_verifyStart {A : Stmt → Prop} (prediction_id : Nat) (minute_array : List Intradayprice)
    (hq : ∀ stmt : Stmt, stmt.Mild → A stmt) (hs : ∀ query, A (.select query))
    (hu : ∀ id changes, changes.active = none → A (.updatePrediction id changes)) :
    (PredictionstartWorker.perform prediction_id minute_array).Only A := by
  refine .bind ((only_query _ _).2 (hs _)) fun found => ?_
  cases found with
  | none => trivial
  | some row =>
    refine .bind ((mild_loadStock _ _).mono hq) fun ⟨_, _⟩ => ?_
    cases minMinute minute_array row.start_time with
    | none => trivial
    | some m => exact .bind (only_update hq (hu _ _ rfl)) fun _ => trivial

theorem only_verifyEnd {A : Stmt → Prop} (predictionend_id : Nat) (now : Time) (minute_array : List Intradayprice)
    (hq : ∀ stmt : Stmt, stmt.Mild → A stmt) (hs : ∀ query, A (.select query))
    (hu : ∀ id changes, changes.active = none → changes.start_price = none → A (.updatePrediction id changes))
    (he : ∀ id changes, A (.updatePredictionend id changes)) :
    (PredictionendWorker.perform predictionend_id now minute_array).Only A := by
  refine .bind ((only_query _ _).2 (hs _)) fun found => ?_
  cases found with
  | none => trivial
  | some predictionend =>
    dsimp only
    split
    · refine .bind ((only_query _ _).2 (hs _)) fun _ => .bind (only_orNil _ _) fun _ =>
        .bind ((mild_loadStock _ _).mono hq) fun ⟨_, _⟩ => ?_
      cases minMinute minute_array predictionend.actual_end_time with
      | none => trivial
      | some m =>
        exact .bind ((only_exec _).2 (he _ _)) fun _ =>
          .bind (only_finalUpdateScore hq hs fun id changes ha _ hs => hu id changes ha hs) fun _ => trivial
    · trivial

theorem only_unanswered {A : Stmt → Prop} {request : Request Reply} (h : request.Only A) :
    (unanswered request).Only A := h.bind fun _ => trivial

theorem gentle_predictionEnd : Gently predictionEnd :=
  .bind (gentle_select _ _) fun predictions => .each predictions fun _ _ =>
    .bind (gentle_bringUpToDate _) fun _ => trivial

end MyStockIQ
