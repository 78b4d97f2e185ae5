import MyStockIQ.LifeCycle
import MyStockIQ.Saving
/-!
# Closing a prediction by hand

What `PredictionendsController#create` does on a prediction that is there, branch
by branch. The source means to let only the owner close a prediction, but
compares no user: who is signed in decides nothing. The writes of an ending are
not in one transaction, so an exception in the middle leaves some of them.
-/

open SharedStore Prog

namespace MyStockIQ

/-! ## One request -/

/-- The prediction has started, or a stream targets it. -/
def Db.startedOrChildren (db : Db) (row : Prediction) (now : Time) : Bool :=
  decide (row.start_time < now) || db.streams.any (·.targetable = ⟨.prediction, row.id⟩)

theorem run_startedOrChildren (row : Prediction) (now : Time) (db : Db) :
    (startedOrChildren row now).run Db.exec db = (.ok (db.startedOrChildren row now), db) := by
  unfold startedOrChildren Db.startedOrChildren
  split
  · next h => simp [h]
  · next h => simp [h, select, query]

/-- The Predictionend an ending by hand saves. -/
def handEnding (row : Prediction) (stock : Stock) (time : Time) (content : Option String) : Predictionend where
  id := 0
  prediction_id := row.id
  actual_end_time := time
  actual_end_price := stock.daily_stock_price
  end_price_verified := false
  content := content
  graph_end_time := graphTime time

/-- The rest of `endByHand`, once the Predictionend is saved. -/
def announceEnding (predictionend : Predictionend) (stock : Stock) (current_user : User) (content : Option String) :
    Request Unit := do
  let streamable : Ref := ⟨.predictionend, predictionend.id⟩
  write (.insertPopularity ⟨streamable, 0⟩)
  let (_, tags) ← addTags content stock.ticker_symbol .predictionend (some predictionend.id)
  Stream.create! ⟨streamable, ⟨.stock, stock.id⟩⟩
  Stream.create! ⟨streamable, ⟨.user, current_user.id⟩⟩
  targetTags streamable tags

theorem quiet_announceEnding (predictionend : Predictionend) (stock : Stock) (current_user : User)
    (content : Option String) : Quietly (announceEnding predictionend stock current_user content) :=
  .bind (quiet_write trivial) fun _ => .bind (mild_addTags _ _ _ _).quiet fun _ =>
    .bind (mild_streamCreate! _).quiet fun _ => .bind (mild_streamCreate! _).quiet fun _ => (mild_targetTags _ _).quiet

section
variable {db : Db} {p : Prediction} {stock : Stock} {user : User} {now : Time} {content : Option String}

/-- The prediction is deactivated and its stock counted before the end time is asked for. -/
theorem run_endByHand (hended : db.predictionendOf p.id = none) :
    (endByHand { row := p, stock := some stock } stock user now content).run Db.exec db =
      match closestStartTime (graphTime now) with
      | none => (.error (.noMethodError "graph_time"), db.saved p.id (deactivate.dirty p) stock)
      | some time =>
        (announceEnding { handEnding p stock time content with id := db.predictionend_seq } stock user content).run
          Db.exec ((db.saved p.id (deactivate.dirty p) stock).exec
            (.insertPredictionend (handEnding p stock time content))) := by
  have hin : Record.stockIn { row := p, stock := some stock } db = some stock := rfl
  have hof : (db.saved p.id (deactivate.dirty p) stock).predictionendOf p.id = none := by
    unfold Db.predictionendOf Db.endings Db.saved
    rw [counted_predictionends]
    exact hended
  have hseq : (db.saved p.id (deactivate.dirty p) stock).predictionend_seq = db.predictionend_seq := by
    unfold Db.saved
    rw [counted_predictionend_seq]
    rfl
  refine (run_bind_ok Db.exec (run_save hin deactivate) _).trans ?_
  refine (run_bind_ok Db.exec (run_buildPredictionend _ _) _).trans ?_
  have hid : (deactivate.set p).id = p.id := rfl
  simp only [hid, Option.none_or, hof, Option.elim]
  cases closestStartTime (graphTime now) with
  | none => rfl
  | some time =>
    rw [← hseq]
    rfl

/-- The request, on a prediction that is there. -/
theorem run_createPredictionend {id : Nat} (hp : db.prediction id = some p) (session : Option Nat) :
    (PredictionendsController.create now session id content).run Db.exec db =
      if (db.predictionendOf id).isSome then (.ok (.messages ["prediction has already been ended."]), db)
      else match db.sessionUser session, db.stock p.stock_id with
        | none, _ => (.error (.noMethodError "predictions"), db)
        | some _, none => (.error (.noMethodError "id"), db)
        | some user, some stock =>
          if db.startedOrChildren p now then
            (endByHand { row := p, stock := some stock } stock user now content >>= fun _ =>
              return .messages ["prediction ended."]).run Db.exec db
          else (.ok (.messages ["prediction removed."]), db.exec (.destroyPrediction id)) := by
  obtain ⟨-, rfl⟩ := prediction_found hp
  simp only [PredictionendsController.create, select, bind_eq, query_bind, run_step, exec_select, hp,
    Option.isSome_some, if_true, orNil, ret_bind]
  split
  · rfl
  · next hended =>
    simp only [Option.isSome_iff_ne_none, ne_eq, not_not] at hended
    refine (run_bind_ok Db.exec (run_currentUser session db) _).trans ?_
    cases db.sessionUser session with
    | none => rfl
    | some user =>
      simp only [orNil, bind_eq, ret_bind]
      cases hstock : db.stock p.stock_id with
      | none =>
        have hnone : (Record.loadStock { row := p } "id").run Db.exec db = (.error (.noMethodError "id"), db) := by
          simp [Record.loadStock, select, hstock, orNil]
        exact run_bind_error Db.exec hnone _
      | some stock =>
        have hin : Record.stockIn { row := p } db = some stock := hstock
        refine (run_bind_ok Db.exec (run_loadStock_eq hin "id") _).trans ?_
        refine (run_bind_ok Db.exec (run_startedOrChildren p now db) _).trans ?_
        cases db.startedOrChildren p now with
        | true => rfl
        | false =>
          have hbuild := run_buildPredictionend { row := p, stock := some stock } db
          simp only [Option.none_or, hended, Option.elim] at hbuild
          simp only [Bool.false_eq_true, if_false, Record.destroy, bind_eq]
          rw [run_bind, run_bind_ok Db.exec hbuild]
          rfl

end

/-! ## Who can close a prediction -/

/-- The rows of `streams`, `popularity` and `tag` that belong to `owner`. -/
def Db.dependents (db : Db) (owner : Ref) : List Stream × List Popularity × List Tag :=
  (db.streams.filter (·.streamable = owner), db.popularities.filter (·.popularable = owner),
    db.tags.filter fun tag => tag.tagable_type = owner.type ∧ tag.tagable_id = some owner.id)

/-- The prediction, its Predictionend, and its streams, popularity and tag are as they were. -/
structure Untouched (db db' : Db) (id : Nat) : Prop where
  prediction : db'.prediction id = db.prediction id
  endings : db'.endings id = db.endings id
  dependents : db'.dependents ⟨.prediction, id⟩ = db.dependents ⟨.prediction, id⟩

theorem untouched_refl (db : Db) (id : Nat) : Untouched db db id := ⟨rfl, rfl, rfl⟩

section
variable {db : Db} {p : Prediction} {stock : Stock}

theorem prediction_saved (db : Db) (id : Nat) (changes : PredictionChanges) (stock : Stock) :
    (db.saved id changes stock).prediction id = (db.prediction id).map changes.set := by
  have h := prediction_update db id changes
  unfold Db.saved Db.prediction at *
  rw [counted_predictions]
  exact h

theorem endings_saved (db : Db) (id : Nat) (changes : PredictionChanges) (stock : Stock) (prediction_id : Nat) :
    (db.saved id changes stock).endings prediction_id = db.endings prediction_id := by
  unfold Db.saved Db.endings
  rw [counted_predictionends]
  rfl

theorem dependents_saved (db : Db) (id : Nat) (changes : PredictionChanges) (stock : Stock) (owner : Ref) :
    (db.saved id changes stock).dependents owner = db.dependents owner := by
  unfold Db.saved Db.dependents
  rw [counted_streams, counted_popularities, counted_tags]
  rfl

/-- Deactivating leaves a prediction alone if it is inactive already. -/
theorem deactivate_set_eq_self : (deactivate.dirty p).set p = p ↔ p.active = false := by
  rw [PredictionChanges.set_dirty]
  constructor
  · intro h
    rw [← h]
    rfl
  · intro h
    cases p
    cases h
    rfl

theorem deactivated_eq_self (ha : p.active = false) :
    db.exec (.updatePrediction p.id (deactivate.dirty p)) = db := by
  have hnone : deactivate.dirty p = {} := by
    simp [PredictionChanges.dirty, dirty, deactivate, ha]
  rw [hnone]
  simp only [Db.exec]
  rw [updated_eq_self Prediction.id _ _ _ fun row => ?_]
  simp [PredictionChanges.set]

/-- An ending saves a Predictionend, so the prediction is not untouched. -/
theorem not_untouched_inserted {db₁ db' : Db} (row : Predictionend)
    (hends : db₁.endings row.prediction_id = db.endings row.prediction_id)
    (hcore : db'.core = (db₁.exec (.insertPredictionend row)).core) : ¬Untouched db db' row.prediction_id := by
  intro h
  have hlen := congrArg List.length h.endings
  rw [endings_of_core hcore, endings_insert, hends, if_pos rfl, List.length_append, List.length_singleton] at hlen
  omega

/-- Cancelling takes the prediction away. -/
theorem not_untouched_destroyed {id : Nat} (hp : db.prediction id = some p) :
    ¬Untouched db (db.exec (.destroyPrediction id)) id := by
  intro h
  have hgone : (db.exec (.destroyPrediction id)).prediction id = none := by
    simp [Db.prediction, Db.exec]
  rw [h.prediction, hp] at hgone
  cases hgone

/-- An ending by hand touches the prediction, unless it is inactive already and no end time is found. -/
theorem untouched_endByHand {user : User} {now : Time} {content : Option String} (hp : db.prediction p.id = some p)
    (hended : db.predictionendOf p.id = none) :
    Untouched db ((endByHand { row := p, stock := some stock } stock user now content).run Db.exec db).2 p.id ↔
      p.active = false ∧ closestStartTime (graphTime now) = none := by
  rw [run_endByHand hended]
  cases closestStartTime (graphTime now) with
  | none =>
    simp only [and_true]
    constructor
    · intro h
      have hset := h.prediction
      rw [prediction_saved, hp, Option.map_some, Option.some.injEq] at hset
      exact deactivate_set_eq_self.1 hset
    · intro ha
      refine ⟨?_, endings_saved _ _ _ _ _, dependents_saved _ _ _ _ _⟩
      rw [prediction_saved, hp, Option.map_some, deactivate_set_eq_self.2 ha]
  | some time =>
    simp only [reduceCtorEq, and_false, iff_false]
    exact not_untouched_inserted (handEnding p stock time content) (endings_saved _ _ _ _ _)
      ((quiet_announceEnding _ _ _ _).core _)

end

/-- Whoever is signed in, the request leaves the prediction as it was exactly if
nobody is signed in, or it has a Predictionend, or its stock is gone, or it is
inactive already and no end time is found. -/
theorem untouched_iff (db : Db) (now : Time) (session : Option Nat) (id : Nat) (content : Option String) {p : Prediction}
    (hp : db.prediction id = some p) :
    Untouched db ((PredictionendsController.create now session id content).run Db.exec db).2 id ↔
      db.sessionUser session = none ∨ (db.predictionendOf id).isSome = true ∨ db.stock p.stock_id = none ∨
        p.active = false ∧ db.startedOrChildren p now = true ∧ closestStartTime (graphTime now) = none := by
  rw [run_createPredictionend hp]
  by_cases hended : (db.predictionendOf id).isSome = true
  · rw [if_pos hended]
    simp only [hended, true_or, or_true, iff_true]
    exact untouched_refl db id
  · have hnone : db.predictionendOf id = none := by simpa using hended
    rw [if_neg hended]
    simp only [hended]
    cases db.sessionUser session with
    | none => simp [untouched_refl]
    | some user =>
      cases db.stock p.stock_id with
      | none => simp [untouched_refl]
      | some stock =>
        simp only [reduceCtorEq, false_or]
        cases db.startedOrChildren p now with
        | true =>
          obtain ⟨-, rfl⟩ := prediction_found hp
          simp only [if_true, true_and]
          rw [bind_eq, pure_eq, run_bind_ret]
          exact untouched_endByHand hp hnone
        | false =>
          simp only [Bool.false_eq_true, if_false, false_and, and_false, iff_false]
          exact not_untouched_destroyed hp

/-- The tables with `rising`, and a user who has predicted nothing. -/
def withStranger : Db := { risingWith [] with users := [⟨1, "analyst"⟩, ⟨2, "stranger"⟩] }

/-- Tuesday, 7 July 2015, 16:00 UTC. -/
def tuesdayNoon : Time := 1436284800 * 1000000000

theorem untouched_iff_stranger :
    ¬Untouched withStranger
      ((PredictionendsController.create tuesdayNoon (some 2) 1 (some "over")).run Db.exec withStranger).2 1 := by
  intro h
  have hcond := (untouched_iff withStranger tuesdayNoon (some 2) 1 (some "over") (p := rising) rfl).1 h
  revert hcond
  decide

/-- Another user ends the prediction. -/
theorem stranger_closes_prediction :
    ¬∀ (db : Db) (now : Time) (session : Option Nat) (content : Option String) (p : Prediction),
      db.prediction p.id = some p → (∀ user, db.sessionUser session = some user → user.id ≠ p.user_id) →
      Untouched db ((PredictionendsController.create now session p.id content).run Db.exec db).2 p.id := by
  intro h
  have hkept := h withStranger tuesdayNoon (some 2) (some "over") rising rfl (by rintro user ⟨⟩; decide)
  have hactive : (((PredictionendsController.create tuesdayNoon (some 2) rising.id (some "over")).run Db.exec
      withStranger).2.prediction 1).map (·.active) = some false := rfl
  rw [show rising.id = 1 from rfl] at hkept hactive
  rw [hkept.prediction] at hactive
  revert hactive
  decide

/-! ## All or nothing -/

/-- `e` is what the owner's ending of `p` at `now` should leave. -/
structure ClosedWith (now : Time) (p : Prediction) (db : Db) (e : Predictionend) : Prop where
  inactive : Inactive db p.id
  ending : db.endings p.id = [e]
  end_time : closestStartTime (graphTime now) = some e.actual_end_time
  graph_end_time : e.graph_end_time = graphTime e.actual_end_time
  popularity : ⟨⟨.predictionend, e.id⟩, 0⟩ ∈ db.popularities
  tag : ∃ tag ∈ db.tags, tag.tagable_type = .predictionend ∧ tag.tagable_id = some e.id
  user_stream : ⟨⟨.predictionend, e.id⟩, ⟨.user, p.user_id⟩⟩ ∈ db.streams
  stock_stream : ⟨⟨.predictionend, e.id⟩, ⟨.stock, p.stock_id⟩⟩ ∈ db.streams

/-- The request completes with everything saved, or raises with nothing changed. -/
def AllOrNothing (now : Time) (p : Prediction) (db : Db) (result : Except Error Reply × Db) : Prop :=
  (∃ reply e, result.1 = .ok reply ∧ ClosedWith now p result.2 e) ∨ ∃ error, result = (.error error, db)

section
variable {db : Db} {p : Prediction} {stock : Stock} {user : User} {now : Time} {content : Option String}
  {predictionend : Predictionend}

/-- A stream of the Predictionend that is announced. -/
def endingStream (predictionend_id : Nat) (type : ClassName) (id : Nat) : Stream :=
  ⟨⟨.predictionend, predictionend_id⟩, ⟨type, id⟩⟩

theorem announceEnding_completes (predictionend : Predictionend) (text : String)
    (hstock : endingStream predictionend.id .stock stock.id ∉ db.streams)
    (huser : endingStream predictionend.id .user user.id ∉ db.streams) :
    ∃ db', (announceEnding predictionend stock user (some text)).run Db.exec db = (.ok (), db') ∧
      ⟨⟨.predictionend, predictionend.id⟩, 0⟩ ∈ db'.popularities ∧
      (∃ tag ∈ db'.tags, tag.tagable_type = .predictionend ∧ tag.tagable_id = some predictionend.id) ∧
      endingStream predictionend.id .user user.id ∈ db'.streams ∧
      endingStream predictionend.id .stock stock.id ∈ db'.streams := by
  let db₁ := db.exec (.insertPopularity ⟨⟨.predictionend, predictionend.id⟩, 0⟩)
  obtain ⟨tagged, htags⟩ := run_addTags text stock.ticker_symbol .predictionend (some predictionend.id) db₁
  let db₂ := db₁.exec (.insertTag ⟨0, tagged, .predictionend, some predictionend.id⟩)
  let db₃ := db₂.exec (.insertStream (endingStream predictionend.id .stock stock.id))
  let db₄ := db₃.exec (.insertStream (endingStream predictionend.id .user user.id))
  obtain ⟨more, htargets⟩ := run_targetTags ⟨.predictionend, predictionend.id⟩ (db₁.targets stock.ticker_symbol text) db₄
  have h₃ : (endingStream predictionend.id .stock stock.id).create!.run Db.exec db₂ = (.ok (), db₃) := by
    rw [run_create!, if_neg]
    exact hstock
  have h₄ : (endingStream predictionend.id .user user.id).create!.run Db.exec db₃ = (.ok (), db₄) := by
    rw [run_create!, if_neg]
    intro h
    rcases List.mem_append.1 h with h | h
    · exact huser h
    · simp [endingStream] at h
  refine ⟨db₄.withStreams more, ?_, ?_, ?_, ?_, ?_⟩
  · refine (run_bind_ok Db.exec htags _).trans ((run_bind_ok Db.exec h₃ _).trans ((run_bind_ok Db.exec h₄ _).trans ?_))
    exact htargets
  · exact List.mem_append_right _ (List.mem_singleton_self _)
  · exact ⟨_, List.mem_append_right _ (List.mem_singleton_self _), rfl, rfl⟩
  · simp [Db.withStreams, db₄, Db.exec]
  · simp [Db.withStreams, db₄, db₃, Db.exec]

/-- A missing text, or a stream that is there already, ends it with an exception. -/
theorem announceEnding_raises (h : content = none ∨ endingStream predictionend.id .stock stock.id ∈ db.streams ∨
      endingStream predictionend.id .user user.id ∈ db.streams) :
    ∃ error db', (announceEnding predictionend stock user content).run Db.exec db = (.error error, db') := by
  cases content with
  | none => exact ⟨_, _, rfl⟩
  | some text =>
    let db₁ := db.exec (.insertPopularity ⟨⟨.predictionend, predictionend.id⟩, 0⟩)
    obtain ⟨tagged, htags⟩ := run_addTags text stock.ticker_symbol .predictionend (some predictionend.id) db₁
    let db₂ := db₁.exec (.insertTag ⟨0, tagged, .predictionend, some predictionend.id⟩)
    have hrest := (run_bind_ok Db.exec htags fun added => do
      (endingStream predictionend.id .stock stock.id).create!
      (endingStream predictionend.id .user user.id).create!
      targetTags ⟨.predictionend, predictionend.id⟩ added.2)
    by_cases hs : endingStream predictionend.id .stock stock.id ∈ db.streams
    · have h₃ : (endingStream predictionend.id .stock stock.id).create!.run Db.exec db₂ =
          (.error .recordInvalid, db₂) := by
        rw [run_create!, if_pos]
        exact hs
      exact ⟨_, _, hrest.trans (run_bind_error Db.exec h₃ _)⟩
    · have hu : endingStream predictionend.id .user user.id ∈ db.streams := by simpa [hs] using h
      let db₃ := db₂.exec (.insertStream (endingStream predictionend.id .stock stock.id))
      have h₃ : (endingStream predictionend.id .stock stock.id).create!.run Db.exec db₂ = (.ok (), db₃) := by
        rw [run_create!, if_neg]
        exact hs
      have h₄ : (endingStream predictionend.id .user user.id).create!.run Db.exec db₃ =
          (.error .recordInvalid, db₃) := by
        rw [run_create!, if_pos]
        exact List.mem_append_left _ hu
      exact ⟨_, _, hrest.trans ((run_bind_ok Db.exec h₃ _).trans (run_bind_error Db.exec h₄ _))⟩

/-- Deactivating a prediction writes nothing if it is inactive already and its
stock is not valid or has the count it would get. -/
theorem saved_eq_self (hp : db.prediction p.id = some p) (hstock : db.stock p.stock_id = some stock) :
    db.saved p.id (deactivate.dirty p) stock = db ↔
      p.active = false ∧ (stock.valid db = false ∨ stock.active_predictions = db.predictionCount stock.id) := by
  constructor
  · intro h
    have hrow := prediction_saved db p.id (deactivate.dirty p) stock
    rw [h, hp, Option.map_some, Option.some.injEq] at hrow
    have ha := deactivate_set_eq_self.1 hrow.symm
    refine ⟨ha, (counted_eq_self hstock).1 ?_⟩
    rwa [Db.saved, deactivated_eq_self ha] at h
  · rintro ⟨ha, h⟩
    rw [Db.saved, deactivated_eq_self ha]
    exact (counted_eq_self hstock).2 h

/-- The result of the request once an end time was found. -/
def announced (db : Db) (p : Prediction) (stock : Stock) (user : User) (time : Time) (content : Option String) :
    Except Error Unit × Db :=
  (announceEnding { handEnding p stock time content with id := db.predictionend_seq } stock user content).run Db.exec
    ((db.saved p.id (deactivate.dirty p) stock).exec (.insertPredictionend (handEnding p stock time content)))

/-- Announcing an ending leaves the predictions and Predictionends as the saves left them. -/
theorem core_announced (db : Db) (p : Prediction) (stock : Stock) (user : User) (time : Time)
    (content : Option String) : (announced db p stock user time content).2.core =
      ((db.saved p.id (deactivate.dirty p) stock).exec (.insertPredictionend (handEnding p stock time content))).core :=
  (quiet_announceEnding _ _ _ _).core _

theorem streams_inserted (row : Predictionend) :
    ((db.saved p.id (deactivate.dirty p) stock).exec (.insertPredictionend row)).streams = db.streams := by
  show (db.saved p.id (deactivate.dirty p) stock).streams = db.streams
  rw [Db.saved, counted_streams]
  rfl

/-- A Predictionend was saved, so nothing is as it was. -/
theorem announced_ne (db : Db) (p : Prediction) (stock : Stock) (user : User) (time : Time) (content : Option String) :
    (announced db p stock user time content).2 ≠ db := by
  intro h
  have hcore := core_announced db p stock user time content
  have hseq : (announced db p stock user time content).2.predictionend_seq =
      (db.saved p.id (deactivate.dirty p) stock).predictionend_seq + 1 := congrArg (fun core => core.2.2.2) hcore
  rw [h, Db.saved, counted_predictionend_seq] at hseq
  exact absurd hseq (by simp [Db.exec])

/-- What the ending leaves, once it completes. -/
theorem announced_closed {time : Time} {db' : Db} (hp : db.prediction p.id = some p)
    (hended : db.predictionendOf p.id = none) (htime : closestStartTime (graphTime now) = some time)
    (hcore : db'.core = ((db.saved p.id (deactivate.dirty p) stock).exec
      (.insertPredictionend (handEnding p stock time content))).core)
    (hpopularity : ⟨⟨.predictionend, db.predictionend_seq⟩, 0⟩ ∈ db'.popularities)
    (htag : ∃ tag ∈ db'.tags, tag.tagable_type = .predictionend ∧ tag.tagable_id = some db.predictionend_seq)
    (huser : endingStream db.predictionend_seq .user p.user_id ∈ db'.streams)
    (hstock : endingStream db.predictionend_seq .stock p.stock_id ∈ db'.streams) :
    ClosedWith now p db' { handEnding p stock time content with id := db.predictionend_seq } := by
  refine ⟨⟨(deactivate.dirty p).set p, ?_, ?_⟩, ?_, htime, rfl, hpopularity, htag, huser, hstock⟩
  · rw [prediction_of_core hcore]
    show (db.saved p.id (deactivate.dirty p) stock).prediction p.id = _
    rw [prediction_saved, hp, Option.map_some]
  · rw [PredictionChanges.set_dirty]
    rfl
  · rw [endings_of_core hcore, endings_insert, endings_saved, endings_nil hended, Db.saved, counted_predictionend_seq]
    simp [handEnding, Db.exec]

/-- An ending with an end time is all or nothing exactly if it completes. -/
theorem announced_all_or_nothing {time : Time} (hp : db.prediction p.id = some p)
    (hended : db.predictionendOf p.id = none) (htime : closestStartTime (graphTime now) = some time)
    (hs : stock.id = p.stock_id) (hu : user.id = p.user_id) :
    AllOrNothing now p db ((endByHand { row := p, stock := some stock } stock user now content >>= fun _ =>
        return .messages ["prediction ended."]).run Db.exec db) ↔
      content ≠ none ∧ endingStream db.predictionend_seq .stock p.stock_id ∉ db.streams ∧
        endingStream db.predictionend_seq .user p.user_id ∉ db.streams := by
  have hrun : (endByHand { row := p, stock := some stock } stock user now content).run Db.exec db =
      announced db p stock user time content := by
    rw [run_endByHand hended, htime]
    rfl
  rw [← hs, ← hu]
  by_cases hok : content ≠ none ∧ endingStream db.predictionend_seq .stock stock.id ∉ db.streams ∧
      endingStream db.predictionend_seq .user user.id ∉ db.streams
  · refine iff_of_true ?_ hok
    obtain ⟨hcontent, hstock, huser⟩ := hok
    obtain ⟨text, rfl⟩ := Option.ne_none_iff_exists'.1 hcontent
    rw [← streams_inserted (handEnding p stock time (some text))] at hstock huser
    obtain ⟨db', hdone, hpopularity, htag, huser', hstock'⟩ := announceEnding_completes
      { handEnding p stock time (some text) with id := db.predictionend_seq } text hstock huser
    have hcore := core_announced db p stock user time (some text)
    rw [show announced db p stock user time (some text) = _ from hdone] at hcore
    have hclosed := announced_closed hp hended htime hcore hpopularity htag (hu ▸ huser') (hs ▸ hstock')
    left
    rw [bind_eq, run_bind_ok Db.exec (hrun.trans hdone)]
    exact ⟨_, _, rfl, hclosed⟩
  · refine iff_of_false ?_ hok
    have hraises : ∃ error db', announced db p stock user time content = (.error error, db') := by
      refine announceEnding_raises ?_
      rw [streams_inserted]
      by_contra h
      simp only [not_or] at h
      exact hok h
    obtain ⟨error, db', herr⟩ := hraises
    have hne := announced_ne db p stock user time content
    rw [herr] at hne
    rw [bind_eq, run_bind_error Db.exec (hrun.trans herr)]
    rintro (⟨reply, e, h, -⟩ | ⟨error', h⟩)
    · cases h
    · exact hne (congrArg Prod.snd h)

end

/-- The owner's request on a started prediction that was not ended is all or
nothing exactly if the stock is gone, or the end time, the text and the two
streams are all in order, or there is no end time and nothing to deactivate or count. -/
theorem all_or_nothing_iff {db : Db} {p : Prediction} {user : User} {now : Time} (hp : db.prediction p.id = some p)
    (huser : db.user p.user_id = some user) (hended : db.predictionendOf p.id = none) (hstarted : p.start_time < now)
    (content : Option String) :
    AllOrNothing now p db ((PredictionendsController.create now (some p.user_id) p.id content).run Db.exec db) ↔
      ∀ stock, db.stock p.stock_id = some stock →
        (closestStartTime (graphTime now) ≠ none ∧ content ≠ none ∧
          endingStream db.predictionend_seq .stock p.stock_id ∉ db.streams ∧
          endingStream db.predictionend_seq .user p.user_id ∉ db.streams) ∨
        (closestStartTime (graphTime now) = none ∧ p.active = false ∧
          (stock.valid db = false ∨ stock.active_predictions = db.predictionCount stock.id)) := by
  have hsession : db.sessionUser (some p.user_id) = some user := huser
  rw [run_createPredictionend hp, if_neg (by simp [hended]), hsession]
  cases hstock : db.stock p.stock_id with
  | none =>
    simp only [reduceCtorEq, false_implies, implies_true, iff_true]
    exact .inr ⟨_, rfl⟩
  | some stock =>
    have hyes : db.startedOrChildren p now = true := by simp [Db.startedOrChildren, hstarted]
    simp only [hyes, if_true, Option.some.injEq, forall_eq']
    cases htime : closestStartTime (graphTime now) with
    | none =>
      have hrun : (endByHand { row := p, stock := some stock } stock user now content).run Db.exec db =
          (.error (.noMethodError "graph_time"), db.saved p.id (deactivate.dirty p) stock) := by
        rw [run_endByHand hended, htime]
      rw [bind_eq, run_bind_error Db.exec hrun]
      simp only [ne_eq, not_true_eq_false, false_and, true_and, false_or, ← saved_eq_self hp hstock]
      constructor
      · rintro (⟨reply, e, h, -⟩ | ⟨error, h⟩)
        · cases h
        · exact congrArg Prod.snd h
      · intro h
        exact .inr ⟨_, congrArg (Prod.mk _) h⟩
    | some time =>
      have hs : stock.id = p.stock_id := by simpa using List.find?_some hstock
      have hu : user.id = p.user_id := by simpa using List.find?_some huser
      rw [announced_all_or_nothing hp hended htime hs hu]
      simp

theorem all_or_nothing_tuesday :
    AllOrNothing tuesdayNoon rising (risingWith [])
        ((PredictionendsController.create tuesdayNoon (some 1) 1 (some "over")).run Db.exec (risingWith [])) ∧
      ¬AllOrNothing tuesdayNoon rising (risingWith [])
        ((PredictionendsController.create tuesdayNoon (some 1) 1 none).run Db.exec (risingWith [])) := by
  have hp : (risingWith []).prediction rising.id = some rising := rfl
  have huser : (risingWith []).user rising.user_id = some ⟨1, "analyst"⟩ := rfl
  have hended : (risingWith []).predictionendOf rising.id = none := rfl
  have hstarted : rising.start_time < tuesdayNoon := by decide
  have hiff := all_or_nothing_iff hp huser hended hstarted
  constructor
  · refine (hiff (some "over")).2 ?_
    rintro stock -
    exact .inl ⟨by decide, by simp, by simp [risingWith, oneStock], by simp [risingWith, oneStock]⟩
  · intro h
    rcases (hiff none).1 h _ rfl with ⟨-, hcontent, -⟩ | ⟨-, ha, -⟩
    · exact hcontent rfl
    · cases ha

/-- Thursday, 21 January 2016, 21:01 UTC, when no end time is found. -/
def winterEvening : Time := 1453410060 * 1000000000

/-- On a winter evening the prediction is deactivated, and then the request raises. -/
theorem ending_half_done :
    ¬∀ (db : Db) (p : Prediction) (user : User) (now : Time) (content : Option String), db.prediction p.id = some p →
      db.user p.user_id = some user → db.predictionendOf p.id = none → p.start_time < now →
      AllOrNothing now p db ((PredictionendsController.create now (some p.user_id) p.id content).run Db.exec db) := by
  intro h
  have hfail : ((PredictionendsController.create winterEvening (some 1) 1 (some "over")).run Db.exec
      (risingWith [])).1 = .error (.noMethodError "graph_time") := rfl
  have hactive : (((PredictionendsController.create winterEvening (some 1) 1 (some "over")).run Db.exec
      (risingWith [])).2.prediction 1).map (·.active) = some false := rfl
  rcases h (risingWith []) rising ⟨1, "analyst"⟩ winterEvening (some "over") rfl rfl rfl (by decide) with
    ⟨reply, e, hok, -⟩ | ⟨error, hsame⟩
  · cases hok.symm.trans hfail
  · have hstore : ((PredictionendsController.create winterEvening (some 1) 1 (some "over")).run Db.exec
        (risingWith [])).2 = risingWith [] := congrArg Prod.snd hsame
    rw [hstore] at hactive
    revert hactive
    decide

end MyStockIQ
