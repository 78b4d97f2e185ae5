import MyStockIQ.Counter
import MyStockIQ.Issued
/-!
# What is referred to is there

A stream and a popularity refer to their item by type and id, a Predictionend to its
prediction, and the database has no foreign keys. The code destroys what refers to a row
together with the row, but only the one Predictionend it loads, and the one popularity.
If nothing runs in between that is enough, whatever is raised on the way
(`references_intact`).
-/

open SharedStore Prog

namespace MyStockIQ

/-- The item is there. Items other than predictions and Predictionends are not in these tables. -/
def Db.Has (db : Db) (item : Ref) : Prop :=
  match item.type with
  | .prediction => ∃ p ∈ db.predictions, p.id = item.id
  | .predictionend => ∃ e ∈ db.predictionends, e.id = item.id
  | _ => True

/-- Every Predictionend has its prediction to itself, every stream has its item, and is
there once, and every popularity has its item to itself. -/
structure Intact (db : Db) : Prop where
  owned : ∀ e ∈ db.predictionends, db.Has ⟨.prediction, e.prediction_id⟩
  one : ∀ id, (db.endings id).length ≤ 1
  streams : ∀ stream ∈ db.streams, db.Has stream.streamable
  once : db.streams.Nodup
  scored : ∀ popularity ∈ db.popularities, db.Has popularity.popularable
  alone : UniqueKeys Popularity.popularable db.popularities

/-! ## One statement -/

/-- The statement saves and destroys no Predictionend, and destroys no prediction. -/
def Stmt.Lasting : Stmt → Prop
  | .destroyPrediction _ | .insertPredictionend _ | .destroyPredictionend _ _ => False
  | _ => True

/-- A lasting statement that inserts no stream and no popularity. -/
def Stmt.Inert : Stmt → Prop
  | .insertStream _ | .insertPopularity _ => False
  | .destroyPrediction _ | .insertPredictionend _ | .destroyPredictionend _ _ => False
  | _ => True

theorem Stmt.Inert.lasting {stmt : Stmt} (h : stmt.Inert) : stmt.Lasting := by
  cases stmt <;> trivial

theorem Stmt.Lasting.sparing {stmt : Stmt} (h : stmt.Lasting) : stmt.Sparing := by
  cases stmt <;> trivial

section
variable {db : Db} {stmt : Stmt}

/-- The ids of the Predictionends of a prediction. -/
def Db.endingIds (db : Db) (prediction_id : Nat) : List Nat := (db.endings prediction_id).map (·.id)

theorem endingIds_lasting (h : stmt.Lasting) (id : Nat) : (db.exec stmt).endingIds id = db.endingIds id := by
  unfold Db.endingIds Db.endings
  cases stmt with
  | updatePredictionend predictionend_id changes =>
    have hset (e : Predictionend) : (if e.id = predictionend_id then changes.set e else e).id = e.id ∧
        (if e.id = predictionend_id then changes.set e else e).prediction_id = e.prediction_id := by
      split <;> exact ⟨rfl, rfl⟩
    simp only [Db.exec, List.filter_map, List.map_map, Function.comp_def, hset]
  | destroyPrediction prediction_id => exact h.elim
  | insertPredictionend row => exact h.elim
  | destroyPredictionend prediction_id predictionend_id => exact h.elim
  | _ => rfl

/-- A prediction stays as long as none is destroyed. -/
theorem has_sparing (h : stmt.Sparing) {id : Nat} (hthere : db.Has ⟨.prediction, id⟩) :
    (db.exec stmt).Has ⟨.prediction, id⟩ := by
  obtain ⟨p, hp, hid⟩ := hthere
  cases stmt with
  | insertPrediction row => exact ⟨p, List.mem_append_left _ hp, hid⟩
  | updatePrediction prediction_id changes =>
    refine ⟨_, List.mem_map_of_mem hp, ?_⟩
    rw [updated_key Prediction.id changes.set (fun _ => rfl)]
    exact hid
  | destroyPrediction prediction_id => exact h.elim
  | _ => exact ⟨p, hp, hid⟩

theorem has_lasting (h : stmt.Lasting) {item : Ref} (hitem : db.Has item) : (db.exec stmt).Has item := by
  obtain ⟨type, id⟩ := item
  cases type with
  | prediction => exact has_sparing h.sparing hitem
  | predictionend =>
    obtain ⟨e, he, hid⟩ := hitem
    cases stmt with
    | updatePredictionend predictionend_id changes =>
      refine ⟨_, List.mem_map_of_mem he, ?_⟩
      rw [updated_key Predictionend.id changes.set (fun _ => rfl)]
      exact hid
    | destroyPrediction prediction_id => exact h.elim
    | insertPredictionend row => exact h.elim
    | destroyPredictionend prediction_id predictionend_id => exact h.elim
    | _ => exact ⟨e, he, hid⟩
  | _ => trivial

theorem owner_lasting (h : stmt.Lasting) {e : Predictionend} (he : e ∈ (db.exec stmt).predictionends) :
    ∃ f ∈ db.predictionends, f.prediction_id = e.prediction_id := by
  cases stmt with
  | updatePredictionend predictionend_id changes =>
    obtain ⟨f, hf, rfl⟩ := List.mem_map.1 he
    refine ⟨f, hf, ?_⟩
    split <;> rfl
  | destroyPrediction prediction_id => exact h.elim
  | insertPredictionend row => exact h.elim
  | destroyPredictionend prediction_id predictionend_id => exact h.elim
  | _ => exact ⟨e, he, rfl⟩

theorem Intact.one_of_ids {db' : Db} (h : Intact db) (hids : ∀ id, db'.endingIds id = db.endingIds id) (id : Nat) :
    (db'.endings id).length ≤ 1 := by
  have hlength : (db'.endings id).length = (db.endings id).length := by
    simpa [Db.endingIds] using congrArg List.length (hids id)
  rw [hlength]
  exact h.one id

theorem exec_inert (h : stmt.Inert) :
    (db.exec stmt).streams = db.streams ∧ (db.exec stmt).popularities = db.popularities := by
  cases stmt <;> first | exact ⟨rfl, rfl⟩ | exact h.elim

theorem Intact.inert (h : Intact db) (hs : stmt.Inert) : Intact (db.exec stmt) := by
  obtain ⟨hstreams, hpopularities⟩ : (db.exec stmt).streams = db.streams ∧ (db.exec stmt).popularities = db.popularities :=
    exec_inert hs
  refine ⟨fun e he => ?_, h.one_of_ids (endingIds_lasting hs.lasting), fun stream hmem => ?_, ?_, fun popularity hmem => ?_, ?_⟩
  · obtain ⟨f, hf, howner⟩ := owner_lasting hs.lasting he
    rw [← howner]
    exact has_lasting hs.lasting (h.owned f hf)
  · exact has_lasting hs.lasting (h.streams stream (hstreams ▸ hmem))
  · rw [hstreams]
    exact h.once
  · exact has_lasting hs.lasting (h.scored popularity (hpopularities ▸ hmem))
  · rw [hpopularities]
    exact h.alone

/-- A stream of an item that is there, and is not announced to the target yet. -/
theorem Intact.insertStream (h : Intact db) {stream : Stream} (hitem : db.Has stream.streamable) (hnew : stream ∉ db.streams) :
    Intact (db.exec (.insertStream stream)) where
  owned := h.owned
  one := h.one
  streams other hother := by
    rcases mem_inserted hother with hmem | rfl
    · exact h.streams other hmem
    · exact hitem
  once := List.nodup_append.2 ⟨h.once, List.nodup_singleton _, by
    rintro other hother _ hrow rfl
    rw [List.mem_singleton] at hrow
    exact hnew (hrow ▸ hother)⟩
  scored := h.scored
  alone := h.alone

/-- A popularity of an item that is there takes the place of the one it had. -/
theorem Intact.insertPopularity (h : Intact db) {popularity : Popularity} (hitem : db.Has popularity.popularable) :
    Intact (db.exec (.insertPopularity popularity)) where
  owned := h.owned
  one := h.one
  streams := h.streams
  once := h.once
  scored other hother := by
    rcases mem_inserted hother with hmem | rfl
    · exact h.scored other (List.mem_of_mem_eraseP hmem)
    · exact hitem
  alone := by
    change UniqueKeys _ (db.popularities.eraseP (·.popularable = popularity.popularable) ++ [popularity])
    rw [h.alone.eraseP_eq]
    exact h.alone.put popularity

/-- What a row takes along is all there was of it. -/
theorem Intact.of_destroyed (h : Intact db) {item : Ref} {popularity : Popularity}
    (hmem : popularity ∈ db.popularities.eraseP (·.popularable = item)) :
    popularity ∈ db.popularities ∧ popularity.popularable ≠ item := by
  rw [h.alone.eraseP_eq] at hmem
  obtain ⟨hmem, hne⟩ := List.mem_filter.1 hmem
  exact ⟨hmem, of_decide_eq_true hne⟩

theorem has_insertPredictionend {item : Ref} (h : db.Has item) (row : Predictionend) :
    (db.exec (.insertPredictionend row)).Has item := by
  obtain ⟨type, id⟩ := item
  cases type with
  | predictionend =>
    obtain ⟨e, he, hid⟩ := h
    exact ⟨e, List.mem_append_left _ he, hid⟩
  | _ => exact h

theorem has_destroyPredictionend {item : Ref} (h : db.Has item) {id : Nat} (hother : item ≠ ⟨.predictionend, id⟩)
    (prediction_id : Nat) : (db.exec (.destroyPredictionend prediction_id id)).Has item := by
  obtain ⟨type, item_id⟩ := item
  cases type with
  | predictionend =>
    obtain ⟨e, he, rfl⟩ := h
    refine ⟨e, List.mem_filter.2 ⟨he, ?_⟩, rfl⟩
    simpa using hother
  | _ => exact h

theorem has_destroyPrediction {item : Ref} (h : db.Has item) {id : Nat} (hother : item ≠ ⟨.prediction, id⟩) :
    (db.exec (.destroyPrediction id)).Has item := by
  obtain ⟨type, item_id⟩ := item
  cases type with
  | prediction =>
    obtain ⟨p, hp, rfl⟩ := h
    refine ⟨p, List.mem_filter.2 ⟨hp, ?_⟩, rfl⟩
    simpa using hother
  | _ => exact h

/-- The first Predictionend of a prediction that is there. -/
theorem Intact.insertPredictionend (h : Intact db) {row : Predictionend} (howner : db.Has ⟨.prediction, row.prediction_id⟩)
    (hnone : db.endings row.prediction_id = []) : Intact (db.exec (.insertPredictionend row)) where
  owned e he := by
    rcases mem_inserted he with hmem | rfl
    · exact h.owned e hmem
    · exact howner
  one id := by
    rw [endings_insert]
    split
    · next hid =>
      rw [← hid, hnone]
      exact le_refl 1
    · rw [List.append_nil]
      exact h.one id
  streams stream hstream := has_insertPredictionend (h.streams stream hstream) row
  once := h.once
  scored popularity hmem := has_insertPredictionend (h.scored popularity hmem) row
  alone := h.alone

/-- A Predictionend that is destroyed takes its streams and its popularity along. -/
theorem Intact.destroyPredictionend (h : Intact db) (prediction_id id : Nat) :
    Intact (db.exec (.destroyPredictionend prediction_id id)) where
  owned e he := h.owned e (List.mem_of_mem_filter he)
  one other := by
    rw [endings_destroy]
    exact (List.length_filter_le _ _).trans (h.one other)
  streams stream hstream := by
    obtain ⟨hmem, hother⟩ := List.mem_filter.1 hstream
    exact has_destroyPredictionend (h.streams stream hmem) (of_decide_eq_true hother) prediction_id
  once := h.once.filter _
  scored popularity hmem := by
    obtain ⟨hmem, hother⟩ := h.of_destroyed hmem
    exact has_destroyPredictionend (h.scored popularity hmem) hother prediction_id
  alone := h.alone.sublist List.eraseP_sublist

/-- So does a prediction, which has no Predictionend any more. -/
theorem Intact.destroyPrediction (h : Intact db) {id : Nat} (hnone : db.endings id = []) :
    Intact (db.exec (.destroyPrediction id)) where
  owned e he := by
    refine has_destroyPrediction (h.owned e he) ?_
    have hne : e.prediction_id ≠ id := by simpa using List.filter_eq_nil_iff.1 hnone e he
    simpa using hne
  one := h.one
  streams stream hstream := by
    obtain ⟨hmem, hother⟩ := List.mem_filter.1 hstream
    exact has_destroyPrediction (h.streams stream hmem) (of_decide_eq_true hother)
  once := h.once.filter _
  scored popularity hmem := by
    obtain ⟨hmem, hother⟩ := h.of_destroyed hmem
    exact has_destroyPrediction (h.scored popularity hmem) hother
  alone := h.alone.sublist List.eraseP_sublist

end

/-! ## Programs -/

/-- However the program ends, what is referred to is there. From what `K` says it returns with what `Q` says. -/
abbrev Safely {α : Type} (K : Db → Prop) (p : Request α) (Q : α → Db → Prop) : Prop :=
  Outcome Db.exec (fun db => Intact db ∧ K db) p (fun a db => Intact db ∧ Q a db) Intact

/-- What lasting statements keep. -/
def Lasts (K : Db → Prop) : Prop := ∀ db stmt, Stmt.Lasting stmt → K db → K (db.exec stmt)

/-- Nothing more is known. -/
def Anyhow (_ : Db) : Prop := True

theorem lasts_anyhow : Lasts Anyhow := fun _ _ _ _ => trivial

section
variable {α : Type} {K : Db → Prop} {self : Record}

/-- A program of inert statements keeps what lasts, and its results are what they always are. -/
theorem safely_inert {p : Request α} (h : p.Only Stmt.Inert) {R : α → Prop} (hr : p.Ends R) (hK : Lasts K) :
    Safely K p fun a db => R a ∧ K db := by
  have hkept : Outcome Db.exec (fun db => Intact db ∧ K db) p (fun _ db => Intact db ∧ K db) fun db => Intact db ∧ K db :=
    h.outcome fun db stmt hs hdb => ⟨hdb.1.inert hs, hK db stmt hs.lasting hdb.2⟩
  refine ⟨fun db a db' hdb hrun => ?_, fun db e db' hdb hrun => (hkept.raised db e db' hdb hrun).1⟩
  obtain ⟨hintact, hlast⟩ := hkept.completed db a db' hdb hrun
  exact ⟨hintact, hr.run (congrArg Prod.fst hrun), hlast⟩

theorem safely_kept {p : Request α} (h : p.Only Stmt.Inert) (hK : Lasts K) : Safely K p fun _ => K :=
  (safely_inert h (ends_true p) hK).post fun _ _ h => ⟨h.1, h.2.2⟩

theorem safely_select (query : Query) (f : Db → α) : Safely K (select query f) fun a db => a = f db ∧ K db :=
  (outcome_select query f).conseq (fun _ h => h) (fun _ _ h => ⟨h.2.1, h.1, h.2.2⟩) fun _ h => h.1

theorem safely_orNil (a : Option α) (method : String) : Safely K (orNil a method) fun b db => a = some b ∧ K db :=
  (outcome_orNil a method).conseq (fun _ h => h) (fun _ _ h => ⟨h.2.1, h.1, h.2.2⟩) fun _ h => h.1

theorem safely_write {stmt : Stmt} {Q : Unit → Db → Prop} (h : ∀ db, Intact db → K db → Intact (db.exec stmt) ∧ Q () (db.exec stmt)) :
    Safely K (write stmt) Q := by
  refine .of_each fun db hdb => .of_run rfl ?_ (by simp)
  rintro _ ⟨⟩
  exact h db hdb.1 hdb.2

/-- What is known of the results beforehand. -/
theorem Safely.ends {p : Request α} {Q : α → Db → Prop} (h : Safely K p Q) {R : α → Prop} (hr : p.Ends R) :
    Safely K p fun a db => R a ∧ Q a db :=
  ⟨fun db a db' hdb hrun => ⟨(h.completed db a db' hdb hrun).1, hr.run (congrArg Prod.fst hrun),
    (h.completed db a db' hdb hrun).2⟩, h.raised⟩

/-- What does not depend on the tables is known from the start. -/
theorem Safely.intro {R : Prop} {p : Request α} {Q : α → Db → Prop} (h : R → Safely K p Q) :
    Safely (fun db => R ∧ K db) p Q :=
  .of_each fun _ hdb => (h hdb.2.1).at_store ⟨hdb.1, hdb.2.2⟩

/-! ## Streams and popularities -/

theorem lasts_has (item : Ref) : Lasts (·.Has item) := fun _ _ hs h => has_lasting hs h

theorem safely_streamSave (hK : Lasts K) {stream : Stream} (hitem : ∀ db, K db → db.Has stream.streamable) :
    Safely K stream.save fun _ => K := by
  refine .of_each fun db ⟨hintact, hdb⟩ => .ok_bind (a := db.streams.contains stream) rfl ?_
  cases htaken : db.streams.contains stream with
  | true => exact .ret fun _ h => h ▸ ⟨hintact, hdb⟩
  | false =>
    have hnew : stream ∉ db.streams := by simpa using htaken
    refine .of_run rfl ?_ (by simp)
    rintro _ ⟨⟩
    exact ⟨hintact.insertStream (hitem db hdb) hnew, hK db _ trivial hdb⟩

theorem safely_streamCreate! (hK : Lasts K) {stream : Stream} (hitem : ∀ db, K db → db.Has stream.streamable) :
    Safely K stream.create! fun _ => K := by
  refine .bind (safely_streamSave hK hitem) fun saved => ?_
  cases saved with
  | true => exact .ret fun _ h => h
  | false => exact .raise fun _ h => h.1

theorem safely_targetTags (hK : Lasts K) {streamable : Ref} (hitem : ∀ db, K db → db.Has streamable)
    (tags : List (Option Ref)) : Safely K (targetTags streamable tags) fun _ => K := by
  refine Outcome.each tags fun tag _ => .bind (safely_orNil tag _) fun targetable => ?_
  refine .bind (Q := fun _ db => Intact db ∧ K db) ?_ fun _ => .ret fun _ h => h
  exact (safely_streamSave hK hitem).pre fun _ h => ⟨h.1, h.2.2⟩

theorem safely_insertPopularity (hK : Lasts K) {item : Ref} (hitem : ∀ db, K db → db.Has item) :
    Safely K (write (.insertPopularity ⟨item, 0⟩)) fun _ => K :=
  safely_write fun db hintact h => ⟨hintact.insertPopularity (hitem db h), hK db _ trivial h⟩

end

/-! ## Programs of inert statements -/

section
variable {α : Type}

theorem inert_select {query : Query} {f : Db → α} : (select query f).Only Stmt.Inert := (only_query _ _).2 trivial

theorem inert_currentUser (session : Option Nat) : (currentUser session).Only Stmt.Inert := by
  cases session with
  | none => trivial
  | some id => exact inert_select

theorem inert_loadStock (self : Record) (method : String) : (self.loadStock method).Only Stmt.Inert := by
  unfold Record.loadStock
  split
  · trivial
  · exact .bind inert_select fun _ => .bind (only_orNil _ _) fun _ => trivial

theorem inert_loadUser (self : Record) (method : String) : (self.loadUser method).Only Stmt.Inert := by
  unfold Record.loadUser
  split
  · trivial
  · exact .bind inert_select fun _ => .bind (only_orNil _ _) fun _ => trivial

theorem inert_stockSave (stock : Stock) (assigned : StockChanges) : (stock.save assigned).Only Stmt.Inert :=
  only_stockSave trivial trivial

theorem inert_updateStockPredictionCount (stock : Stock) : (updateStockPredictionCount stock).Only Stmt.Inert :=
  .bind inert_select fun _ => inert_stockSave _ _

theorem inert_update (self : Record) (assigned : PredictionChanges) : (self.update assigned).Only Stmt.Inert :=
  .bind (inert_loadStock _ _) fun _ => .bind ((only_exec _).2 trivial) fun _ =>
    .bind (inert_updateStockPredictionCount _) fun _ => trivial

theorem inert_addTags (content : Option String) (ticker_symbol : String) (tagable_type : ClassName)
    (tagable_id : Option Nat) : (addTags content ticker_symbol tagable_type tagable_id).Only Stmt.Inert :=
  only_addTags (fun _ => trivial) (fun _ => trivial) (fun _ => trivial) _ _ _ _

theorem inert_googleIntraday (ticker_symbol : String) (feed : List Intradayprice) :
    (googleIntraday ticker_symbol feed).Only Stmt.Inert := by
  refine .bind inert_select fun rows => ?_
  split
  · trivial
  · refine .bind ((only_exec _).2 trivial) fun _ => .bind inert_select fun _ => .bind inert_select fun _ =>
      .bind (only_orNil _ _) fun _ => ?_
    split
    · trivial
    · exact .bind inert_select fun _ => .bind (only_orNil _ _) fun _ => .bind (inert_stockSave _ _) fun _ => trivial

theorem inert_viewStock (stock : Stock) (feed : List Intradayprice) : (viewStock stock feed).Only Stmt.Inert := by
  unfold viewStock
  split
  · exact .bind (inert_googleIntraday _ _) fun _ => .bind (inert_stockSave _ _) fun _ => trivial
  · trivial

theorem inert_verifyStart (prediction_id : Nat) (minute_array : List Intradayprice) :
    (PredictionstartWorker.perform prediction_id minute_array).Only Stmt.Inert := by
  refine .bind inert_select fun found => ?_
  cases found with
  | none => trivial
  | some row =>
    refine .bind (inert_loadStock _ _) fun ⟨loaded, stock⟩ => ?_
    cases minMinute minute_array row.start_time with
    | none => trivial
    | some min_minute => exact .bind (inert_update _ _) fun _ => trivial

theorem inert_finalUpdateScore (self : Record) : self.finalUpdateScore.Only Stmt.Inert := by
  refine .bind (only_percent _ _) fun _ => .bind ?_ fun _ => .bind (only_orNil _ _) fun _ =>
    .bind (only_percent _ _) fun _ => inert_update _ _
  unfold Record.loadPredictionend
  split
  · trivial
  · exact inert_select

theorem inert_verifyEnd (predictionend_id : Nat) (now : Time) (minute_array : List Intradayprice) :
    (PredictionendWorker.perform predictionend_id now minute_array).Only Stmt.Inert := by
  refine .bind inert_select fun found => ?_
  cases found with
  | none => trivial
  | some predictionend =>
    dsimp only
    split
    · refine .bind inert_select fun _ => .bind (only_orNil _ _) fun _ => .bind (inert_loadStock _ _) fun ⟨loaded, stock⟩ => ?_
      cases minMinute minute_array predictionend.actual_end_time with
      | none => trivial
      | some min_minute => exact .bind ((only_exec _).2 trivial) fun _ => .bind (inert_finalUpdateScore _) fun _ => trivial
    · trivial

end

/-! ## A loaded prediction -/

/-- The prediction is there, and the Predictionend the object holds is its own, if it holds one. -/
structure Stands (r : Record) (db : Db) : Prop where
  there : db.Has ⟨.prediction, r.row.id⟩
  own : ∀ e, r.predictionend = some e → e.id ∈ db.endingIds r.row.id

section
variable {self : Record}

theorem has_of_endingId {db : Db} {prediction_id id : Nat} (h : id ∈ db.endingIds prediction_id) :
    db.Has ⟨.predictionend, id⟩ := by
  obtain ⟨e, he, hid⟩ := List.mem_map.1 h
  exact ⟨e, List.mem_of_mem_filter he, hid⟩

theorem lasts_stands : Lasts (Stands self) := by
  refine fun db stmt hs h => ⟨has_lasting hs h.there, fun e he => ?_⟩
  rw [endingIds_lasting hs]
  exact h.own e he

theorem Stands.of_same {a : Record} {db : Db} (h : Stands self db) (hid : a.row.id = self.row.id)
    (hend : a.predictionend = self.predictionend) : Stands a db := by
  obtain ⟨hthere, hown⟩ := h
  rw [← hid] at hthere hown
  rw [← hend] at hown
  exact ⟨hthere, hown⟩

theorem stands_row {db : Db} {row : Prediction} (h : row ∈ db.predictions) : Stands { row := row } db :=
  ⟨⟨row, h, rfl⟩, by rintro e ⟨⟩⟩

theorem update_same (assigned : PredictionChanges) :
    (self.update assigned).Ends fun a => a.row.id = self.row.id ∧ a.predictionend = self.predictionend :=
  .bind (loadStock_keeps _ _) fun ⟨_, _⟩ hk => .bind (ends_true _) fun _ _ => .bind (ends_true _) fun _ _ =>
    ⟨congrArg (·.id) hk.1, hk.2.1⟩

theorem safely_update (assigned : PredictionChanges) : Safely (Stands self) (self.update assigned) Stands :=
  (safely_inert (inert_update self assigned) (update_same assigned) lasts_stands).post fun _ _ h =>
    ⟨h.1, h.2.2.of_same h.2.1.1 h.2.1.2⟩

theorem safely_loadStock (method : String) : Safely (Stands self) (self.loadStock method) fun a => Stands a.1 :=
  (safely_inert (inert_loadStock self method) (loadStock_keeps self method) lasts_stands).post fun _ _ h =>
    ⟨h.1, h.2.2.of_same (congrArg (·.id) h.2.1.1) h.2.1.2.1⟩

/-- Building a Predictionend leaves the prediction without one. -/
theorem safely_buildPredictionend : Safely (Stands self) self.buildPredictionend fun _ db =>
    db.Has ⟨.prediction, self.row.id⟩ ∧ db.endings self.row.id = [] := by
  refine .of_each fun db ⟨hintact, hst⟩ => .of_run (run_buildPredictionend self db) ?_ (by simp)
  rintro _ ⟨⟩
  cases htarget : self.predictionend.or (db.predictionendOf self.row.id) with
  | none => exact ⟨hintact, hst.there, endings_nil (Option.or_eq_none_iff.1 htarget).2⟩
  | some e =>
    have hmem : e.id ∈ db.endingIds self.row.id := by
      rcases Option.or_eq_some_iff.1 htarget with heq | ⟨-, heq⟩
      · exact hst.own e heq
      · exact List.mem_map_of_mem (List.mem_of_getLast? heq)
    refine ⟨hintact.destroyPredictionend self.row.id e.id, has_destroyPredictionend hst.there (by simp) self.row.id, ?_⟩
    -- There is one at most, and it is this one.
    obtain ⟨f, hf, hid⟩ := List.mem_map.1 hmem
    rw [Option.elim_some, endings_destroy]
    refine List.filter_eq_nil_iff.2 fun g hg => ?_
    rw [mem_unique (hintact.one self.row.id) hg hf, hid]
    simp

/-- The Predictionend that is saved is the prediction's own. -/
theorem safely_insertPredictionend {row : Predictionend} {prediction_id : Nat} (howner : row.prediction_id = prediction_id) :
    Safely (fun db => db.Has ⟨.prediction, prediction_id⟩ ∧ db.endings prediction_id = []) (insertPredictionend row)
      fun predictionend db => db.Has ⟨.prediction, prediction_id⟩ ∧ predictionend.id ∈ db.endingIds prediction_id := by
  subst howner
  refine .of_each fun db ⟨hintact, hthere, hnone⟩ => .of_run rfl ?_ (by simp)
  rintro _ ⟨⟩
  refine ⟨hintact.insertPredictionend hthere hnone, has_insertPredictionend hthere row, ?_⟩
  simp [Db.endingIds, endings_insert, hnone]

theorem safely_announce {predictionend : Predictionend} (hown : self.predictionend = some predictionend) :
    Safely (Stands self) (self.announce predictionend) Stands := by
  have hitem (db : Db) (h : Stands self db) : db.Has ⟨.predictionend, predictionend.id⟩ :=
    has_of_endingId (h.own predictionend hown)
  refine (Safely.ends (Q := fun _ => Stands self) ?_ (announce_keeps self predictionend)).post fun _ _ h =>
    ⟨h.1, h.2.2.of_same (congrArg (·.id) h.2.1.1) h.2.1.2.1⟩
  exact .bind (safely_insertPopularity lasts_stands hitem) fun _ =>
    .bind (safely_kept (inert_loadUser self "id") lasts_stands) fun _ => .bind (safely_streamSave lasts_stands hitem) fun _ =>
      .bind (safely_kept (inert_loadStock _ "id") lasts_stands) fun _ =>
        .bind (safely_streamSave lasts_stands hitem) fun _ => .ret fun _ h => h

theorem safely_endAt (time : Time) (price : Option Rat) : Safely (Stands self) (self.endAt time price) Stands := by
  refine .bind (safely_update _) fun ended => .bind safely_buildPredictionend fun _ =>
    .bind (safely_insertPredictionend rfl) fun predictionend => ?_
  refine (safely_announce rfl).pre fun db h => ⟨h.1, h.2.1, ?_⟩
  rintro e ⟨⟩
  exact h.2.2

theorem safely_scan (prices : List Intradayprice) : Safely (Stands self) (self.scan prices) Stands := by
  induction prices with
  | nil => exact .ret fun _ h => h
  | cons price prices ih =>
    unfold Record.scan
    split
    · exact .raise fun _ h => h.1
    · split
      · exact safely_endAt _ _
      · exact ih

theorem safely_exceedsEndPrice : Safely (Stands self) self.exceedsEndPrice Stands := by
  refine .bind (safely_kept inert_select lasts_stands) fun found => ?_
  cases found with
  | none => exact .raise fun _ h => h.1
  | some stock => exact .bind (safely_kept inert_select lasts_stands) fun prices => safely_scan prices

theorem safely_exceedsEndTime : Safely (Stands self) self.exceedsEndTime Stands := by
  refine .bind (safely_loadStock "date") fun ⟨loaded, stock⟩ => .bind (safely_kept (only_orNil _ _) lasts_stands) fun date => ?_
  split
  · exact safely_endAt _ _
  · exact .ret fun _ h => h

theorem safely_updateScore : Safely (Stands self) self.updateScore Stands :=
  .bind (safely_kept (only_percent _ _) lasts_stands) fun _ => .bind (safely_loadStock _) fun ⟨_, _⟩ =>
    .bind (safely_kept (only_percent _ _) lasts_stands) fun _ => safely_update _

theorem safely_bringUpToDate : Safely (Stands self) self.bringUpToDate Stands :=
  .bind safely_exceedsEndPrice fun _ => .bind safely_exceedsEndTime fun _ => safely_updateScore

theorem safely_destroy : Safely (Stands self) self.destroy fun _ => Anyhow :=
  .bind safely_buildPredictionend fun _ => safely_write fun _ hintact h => ⟨hintact.destroyPrediction h.2, trivial⟩

theorem safely_endByHand (stock : Stock) (current_user : User) (now : Time) (content : Option String) :
    Safely (Stands self) (endByHand self stock current_user now content) fun _ => Anyhow := by
  refine .bind (safely_update _) fun ended => .bind safely_buildPredictionend fun _ => .bind (safely_orNil _ _) fun time =>
    Safely.intro fun _ => .bind (safely_insertPredictionend rfl) fun predictionend => ?_
  refine Outcome.pre (P := fun db => Intact db ∧ db.Has ⟨.predictionend, predictionend.id⟩) ?_ fun db h =>
    ⟨h.1, has_of_endingId h.2.2⟩
  have hlasts := lasts_has ⟨.predictionend, predictionend.id⟩
  have htags := inert_addTags content stock.ticker_symbol .predictionend (some predictionend.id)
  exact .bind (safely_insertPopularity hlasts fun _ h => h) fun _ => .bind (safely_kept htags hlasts) fun ⟨_, tags⟩ =>
    .bind (safely_streamCreate! hlasts fun _ h => h) fun _ => .bind (safely_streamCreate! hlasts fun _ h => h) fun _ =>
      (safely_targetTags hlasts (fun _ h => h) tags).post fun _ _ h => ⟨h.1, trivial⟩

end

/-! ## Requests and jobs -/

section
variable {α : Type} {K : Db → Prop}

/-- What a request does with a prediction it has loaded. -/
theorem safely_found {query : Query} {f : Db → Option Prediction} {method : String} {g : Prediction → Request α}
    {Q : α → Db → Prop} (hf : ∀ db row, f db = some row → row ∈ db.predictions)
    (hg : ∀ row, Safely (Stands { row := row }) (g row) Q) :
    Safely K ((select query f).bind fun found => (orNil found method).bind g) Q := by
  refine .bind (safely_select query f) fun found => .bind (safely_orNil found method) fun row => (hg row).pre fun db h => ?_
  obtain ⟨hintact, rfl, hrow, -⟩ := h
  exact ⟨hintact, stands_row (hf db row hrow.symm)⟩

theorem safely_redirectNonUser (hK : Lasts K) {session : Option Nat} {action : User → Request Reply}
    (h : ∀ user, Safely K (action user) fun _ => Anyhow) : Safely K (redirectNonUser session action) fun _ => Anyhow := by
  refine .bind (safely_kept (inert_currentUser session) hK) fun current_user => ?_
  cases current_user with
  | none => exact .ret fun _ h => ⟨h.1, trivial⟩
  | some user => exact h user

end

theorem safely_showPrediction (row : Prediction) (stock : Option Stock) :
    Safely (Stands { row := row }) (showPrediction row stock) fun _ => Anyhow := by
  unfold showPrediction
  split
  · refine .bind (safely_bringUpToDate.pre fun _ h => ⟨h.1, h.2.of_same rfl rfl⟩) fun _ => .ret fun _ h => ⟨h.1, trivial⟩
  · exact .ret fun _ h => ⟨h.1, trivial⟩

theorem safely_predictionsShow (session : Option Nat) (id : Nat) :
    Safely Anyhow (PredictionsController.show session id) fun _ => Anyhow := by
  refine safely_redirectNonUser lasts_anyhow fun _ => safely_found (fun db row => List.mem_of_find?_eq_some) fun row => ?_
  refine .bind (safely_kept inert_select lasts_stands) fun stock => .bind (safely_showPrediction row stock) fun _ => ?_
  exact .bind (safely_kept (only_orNil _ _) lasts_anyhow) fun _ => .ret fun _ h => h

theorem safely_showActivePrediction (current_user : User) (stock : Stock) :
    Safely Anyhow (showActivePrediction current_user stock) fun _ => Anyhow := by
  refine .bind (safely_kept inert_select lasts_anyhow) fun exists_ => ?_
  cases exists_ with
  | false => exact .ret fun _ h => h
  | true =>
    refine safely_found (fun db row hrow => (mem_activePredictions.1 (List.mem_of_find?_eq_some hrow)).1) fun row => ?_
    exact .bind safely_bringUpToDate fun _ => safely_buildPredictionend.post fun _ _ h => ⟨h.1, trivial⟩

theorem safely_stocksShow (session : Option Nat) (ticker_symbol : String) (feed : List Intradayprice) :
    Safely Anyhow (StocksController.show session ticker_symbol feed) fun _ => Anyhow :=
  safely_redirectNonUser lasts_anyhow fun user => .bind (safely_kept inert_select lasts_anyhow) fun _ =>
    .bind (safely_kept (only_orNil _ _) lasts_anyhow) fun stock =>
      .bind (safely_kept (inert_viewStock stock feed) lasts_anyhow) fun _ =>
        .bind (safely_showActivePrediction user stock) fun _ => .ret fun _ h => h

theorem safely_closePrediction (row : Prediction) (now : Time) (session : Option Nat) (content : Option String) :
    Safely (Stands { row := row }) (closePrediction row now session content) fun _ => Anyhow := by
  have hstarted : (startedOrChildren row now).Only Stmt.Inert := by
    unfold startedOrChildren
    split
    · trivial
    · exact inert_select
  refine .bind (safely_kept (inert_currentUser session) lasts_stands) fun _ =>
    .bind (safely_kept (only_orNil _ _) lasts_stands) fun current_user => .bind (safely_loadStock "id") fun ⟨self, stock⟩ =>
      .bind (safely_kept hstarted lasts_stands) fun prediction_ended => ?_
  cases prediction_ended with
  | true => exact .bind (safely_endByHand stock current_user now content) fun _ => .ret fun _ h => h
  | false => exact .bind safely_destroy fun _ => .ret fun _ h => h

theorem safely_predictionendsCreate (now : Time) (session : Option Nat) (prediction_id : Nat) (content : Option String) :
    Safely Anyhow (PredictionendsController.create now session prediction_id content) fun _ => Anyhow := by
  refine .bind (safely_kept inert_select lasts_anyhow) fun exists_ => ?_
  cases exists_ with
  | false => exact .ret fun _ h => h
  | true =>
    refine safely_found (fun db row => List.mem_of_find?_eq_some) fun row => ?_
    refine .bind (safely_kept inert_select lasts_stands) fun ended => ?_
    cases ended with
    | true => exact .ret fun _ h => ⟨h.1, trivial⟩
    | false => exact safely_closePrediction row now session content

/-- The prediction is there once it is saved. -/
theorem safely_savePrediction (row : Prediction) (tag_id : Nat) :
    Safely Anyhow (savePrediction row tag_id) fun prediction db => db.Has ⟨.prediction, prediction.id⟩ := by
  refine .bind (safely_kept inert_select lasts_anyhow) fun found => .bind (safely_kept (only_orNil _ _) lasts_anyhow) fun stock =>
    .bind (Q := fun id db => Intact db ∧ db.Has ⟨.prediction, id⟩) ?_ fun id => ?_
  · refine .of_each fun db h => .of_run rfl ?_ (by simp)
    rintro _ ⟨⟩
    exact ⟨h.1.inert trivial, { row with id := db.prediction_seq }, by simp [Db.exec], rfl⟩
  · have hattach : (write (.attachTag tag_id id)).Only Stmt.Inert := (only_exec _).2 trivial
    exact .bind (safely_kept hattach (lasts_has _)) fun _ =>
      .bind (safely_kept (inert_updateStockPredictionCount stock) (lasts_has _)) fun _ => .ret fun _ h => h

theorem safely_announcePrediction (prediction : Prediction) (user : User) (stock : Stock) (tags : List (Option Ref)) :
    Safely (·.Has ⟨.prediction, prediction.id⟩) (announcePrediction prediction user stock tags) fun _ => Anyhow := by
  have hlasts := lasts_has ⟨.prediction, prediction.id⟩
  exact .bind (safely_kept inert_select hlasts) fun count => .bind (safely_kept (inert_stockSave _ _) hlasts) fun _ =>
    .bind (safely_kept (only_orNil _ _) hlasts) fun _ => .bind (safely_streamCreate! hlasts fun _ h => h) fun _ =>
      .bind (safely_streamCreate! hlasts fun _ h => h) fun _ => .bind (safely_targetTags hlasts (fun _ h => h) tags) fun _ =>
        (safely_insertPopularity hlasts fun _ h => h).post fun _ _ h => ⟨h.1, trivial⟩

/-- However it ends, what is referred to is there. -/
theorem Safely.store {α : Type} {p : Request α} {Q : α → Db → Prop} (h : Safely Anyhow p Q) {db : Db} (hdb : Intact db) :
    Intact (p.run Db.exec db).2 :=
  Outcome.store (h.post fun _ _ hdb => hdb.1) ⟨hdb, trivial⟩

theorem Intact.create {db : Db} (h : Intact db) (parse : String → Option Int) (now : Time) (session : Option Nat)
    (params : PredictionParams) : Intact ((PredictionsController.create parse now session params).run Db.exec db).2 := by
  have htag (tag : Tag) : Intact (db.exec (.insertTag tag)) := h.inert trivial
  rcases run_create parse now session params db with
    ⟨e, hrun⟩ | ⟨errors, tag, hrun⟩ | ⟨user, stock, row, tag, refs, -, -, -, -, -, -, -, hrun⟩
  · rw [hrun]
    exact h
  · rw [hrun]
    exact htag tag
  · rw [hrun]
    refine Safely.store (Q := fun _ => Anyhow) (.bind (safely_savePrediction row db.tag_seq) fun prediction => ?_) (htag tag)
    exact .bind (safely_announcePrediction _ _ _ _) fun _ => .ret fun _ h => h

/-- The pass destroys no prediction it has still to bring up to date. -/
theorem safely_predictionEnd : Safely Anyhow predictionEnd fun _ => Anyhow := by
  refine .bind (safely_select _ _) fun rows => ?_
  let Kept (db : Db) : Prop := ∀ row ∈ rows, db.Has ⟨.prediction, row.id⟩
  have hbody (row : Prediction) (hrow : row ∈ rows) :
      Safely Kept (Record.bringUpToDate { row := row } >>= fun _ => return ()) fun _ => Kept := by
    have hkept : Outcome Db.exec Kept (Record.bringUpToDate { row := row }) (fun _ => Kept) Kept :=
      ((gentle_bringUpToDate _).mono fun _ hs => hs.2).outcome fun _ _ hs h row hrow => has_sparing hs (h row hrow)
    refine .bind ((safely_bringUpToDate.and hkept).conseq (fun db h => ?_) (fun _ _ h => ⟨h.1.1, h.2⟩) fun _ h => h.1)
      fun _ => .ret fun _ h => h
    exact ⟨⟨h.1, h.2 row hrow, by rintro e ⟨⟩⟩, h.2⟩
  refine (Outcome.each rows hbody).conseq (fun db h => ⟨h.1, fun row hrow => ?_⟩) (fun _ _ h => ⟨h.1, trivial⟩) fun _ h => h
  rw [h.2.1] at hrow
  exact ⟨row, (mem_activePredictions.1 hrow).1, rfl⟩

theorem Intact.job {parse : String → Option Int} {db : Db} (h : Intact db) (job : Job) : Intact (job.run parse db).2 := by
  have hanswered {request : Request Reply} (hr : Safely Anyhow request fun _ => Anyhow) :
      Safely Anyhow (unanswered request) fun _ => Anyhow := .bind hr fun _ => .ret fun _ h => h
  cases job with
  | createPrediction now session params =>
    have hrun := run_bind_ret Db.exec (PredictionsController.create parse now session params) (fun _ => ()) db
    exact hrun ▸ h.create parse now session params
  | showPrediction session id => exact (hanswered (safely_predictionsShow session id)).store h
  | showStock session ticker_symbol feed => exact (hanswered (safely_stocksShow session ticker_symbol feed)).store h
  | createPredictionend now session prediction_id content =>
    exact (hanswered (safely_predictionendsCreate now session prediction_id content)).store h
  | predictionEnd => exact safely_predictionEnd.store h
  | verifyStart prediction_id minute_array =>
    exact (safely_kept (inert_verifyStart prediction_id minute_array) lasts_anyhow).store h
  | verifyEnd predictionend_id now minute_array =>
    exact (safely_kept (inert_verifyEnd predictionend_id now minute_array) lasts_anyhow).store h
  | googleIntraday ticker_symbol feed => exact (safely_kept (inert_googleIntraday ticker_symbol feed) lasts_anyhow).store h

/-- The streams that go along with a user leave every item where it is. -/
theorem Intact.destroyUser {db : Db} (h : Intact db) (username : String) : Intact (db.destroyUser username) := by
  unfold Db.destroyUser
  cases db.userNamed username with
  | none => exact h
  | some user =>
    exact ⟨h.owned, h.one, fun stream hmem => h.streams stream (List.mem_of_mem_filter hmem), h.once.filter _, h.scored, h.alone⟩

theorem Intact.action {parse : String → Option Int} {db : Db} (h : Intact db) (action : Action) :
    Intact (action.run parse db) := by
  cases action with
  | request job => exact h.job job
  | createUser row => exact ⟨h.owned, h.one, h.streams, h.once, h.scored, h.alone⟩
  | destroyUser username => exact h.destroyUser username
  | quandlAllstocks rows => exact ⟨h.owned, h.one, h.streams, h.once, h.scored, h.alone⟩
  | googleDaily ticker_symbol date close_price =>
    have honly : (googleDaily ticker_symbol date close_price).Only Stmt.Inert := .bind inert_select fun _ =>
      .bind (only_orNil _ _) fun stock => .bind (inert_stockSave _ _) fun _ => trivial
    exact (safely_kept honly lasts_anyhow).store h

/-- In every state that actions one after another reach from an intact one, whatever they raise,
every stream has its item and is there once, and every Predictionend and every popularity
has what it belongs to, to itself. -/
theorem references_intact (parse : String → Option Int) {init db : Db} (hinit : Intact init)
    (h : Serial (Action.run parse) (fun _ _ => True) init db) : Intact db :=
  h.inv hinit fun _ action _ hdb => hdb.action action

theorem references_intact_given_up : Intact ((giveUp.run tuesdayAfternoon predicted).2) := by
  have hinit : Intact oneStock := ⟨by simp [oneStock], by simp [oneStock, Db.endings], by simp [oneStock], List.nodup_nil,
    by simp [oneStock], List.Pairwise.nil⟩
  exact references_intact tuesdayAfternoon hinit
    (.run (j := Action.request giveUp) (.run (j := Action.request mondayForm) .init trivial) trivial)

end MyStockIQ
