import MyStockIQ.Endings
/-!
# The life cycle of a prediction

An active prediction has no Predictionend, an inactive one has exactly one. The
invariant is broken and restored in the middle of a request, so it is about
completed requests and jobs, run one after another.
-/

open SharedStore Prog

namespace MyStockIQ

/-- Between requests: an active prediction has no Predictionend, an inactive one has one. -/
structure LifeCycle (db : Db) : Prop where
  keyed : Keyed db
  owned : ∀ e ∈ db.predictionends, e.prediction_id < db.prediction_seq
  one : ∀ id, (db.endings id).length ≤ 1
  ended : ∀ p ∈ db.predictions, (db.endings p.id).length = if p.active then 0 else 1

theorem endings_of_core {db db' : Db} (h : db'.core = db.core) (id : Nat) : db'.endings id = db.endings id := by
  simp only [Db.core, Prod.mk.injEq] at h
  rw [Db.endings, Db.endings, h.2.1]

theorem LifeCycle.of_core {db db' : Db} (h : LifeCycle db) (hc : db'.core = db.core) : LifeCycle db' := by
  have hk := h.keyed.of_core hc
  have hend := endings_of_core hc
  simp only [Db.core, Prod.mk.injEq] at hc
  obtain ⟨hp, he, hps, -⟩ := hc
  refine ⟨hk, by rw [he, hps]; exact h.owned, fun id => by rw [hend]; exact h.one id, fun p hmem => ?_⟩
  rw [hend]
  exact h.ended p (hp ▸ hmem)

/-! ## Statements that keep it on their own -/

/-- A statement that neither ends a prediction nor touches the Predictionends it has. -/
def Stmt.Steady : Stmt → Prop
  | .insertPrediction row => row.active = true
  | .updatePrediction _ changes => changes.active = none
  | .destroyPrediction _ | .insertPredictionend _ | .destroyPredictionend _ _ => False
  | _ => True

theorem Stmt.Quiet.steady {stmt : Stmt} (h : stmt.Quiet) : stmt.Steady := by
  cases stmt <;> trivial

theorem endings_updatePredictionend (db : Db) (id : Nat) (changes : PredictionendChanges) (prediction_id : Nat) :
    ((db.exec (.updatePredictionend id changes)).endings prediction_id).length = (db.endings prediction_id).length := by
  unfold Db.endings
  simp only [Db.exec, List.filter_map, List.length_map]
  congr 1
  refine List.filter_congr fun row _ => ?_
  dsimp only [Function.comp]
  split <;> rfl

theorem LifeCycle.exec {db : Db} (h : LifeCycle db) {stmt : Stmt} (hs : stmt.Steady) : LifeCycle (db.exec stmt) := by
  cases stmt with
  | insertPrediction row =>
    refine ⟨h.keyed.exec _, fun e he => Nat.lt_succ_of_lt (h.owned e he), h.one, fun p hp => ?_⟩
    rcases mem_inserted hp with hp | rfl
    · exact h.ended p hp
    · -- No Predictionend can belong to a prediction that was not there.
      have hnone : db.endings db.prediction_seq = [] := by
        refine List.filter_eq_nil_iff.2 fun e he => ?_
        simpa using (h.owned e he).ne
      simp only [show row.active = true from hs, if_true]
      exact congrArg List.length hnone
  | updatePrediction id changes =>
    refine ⟨h.keyed.exec _, h.owned, h.one, fun p hp => ?_⟩
    rcases mem_updated hp with ⟨hp, -⟩ | ⟨q, hq, -, rfl⟩
    · exact h.ended p hp
    · have hactive : (changes.set q).active = q.active := by
        simp [PredictionChanges.set, show changes.active = none from hs]
      rw [hactive]
      exact h.ended q hq
  | updatePredictionend id changes =>
    refine ⟨h.keyed.exec _, fun e he => ?_, fun prediction_id => ?_, fun p hp => ?_⟩
    · rcases mem_updated he with ⟨he, -⟩ | ⟨f, hf, -, rfl⟩
      · exact h.owned e he
      · exact h.owned f hf
    · rw [endings_updatePredictionend]; exact h.one prediction_id
    · rw [endings_updatePredictionend]; exact h.ended p hp
  | destroyPrediction id => exact hs.elim
  | insertPredictionend row => exact hs.elim
  | destroyPredictionend prediction_id id => exact hs.elim
  | _ => exact h.of_core rfl

/-! ## Ending a prediction -/

/-- The object agrees with the tables as far as ending it goes. -/
structure Ready (r : Record) (db : Db) : Prop where
  life : LifeCycle db
  saved : r.row.id < db.prediction_seq
  inactive : r.row.active = false → ∀ p ∈ db.predictions, p.id = r.row.id → p.active = false
  loaded : ∀ e, r.predictionend = some e → ∃ f ∈ db.endings r.row.id, f.id = e.id

theorem Ready.of_core {self : Record} {db db' : Db} (h : Ready self db) (hc : db'.core = db.core) : Ready self db' := by
  have hlife := h.life.of_core hc
  have hend := endings_of_core hc self.row.id
  simp only [Db.core, Prod.mk.injEq] at hc
  obtain ⟨hp, -, hps, -⟩ := hc
  exact ⟨hlife, by rw [hps]; exact h.saved, by rw [hp]; exact h.inactive, by rw [hend]; exact h.loaded⟩

theorem Ready.of_keeps {self a : Record} {db : Db} (h : Ready self db) (hk : Keeps self a) : Ready a db := by
  obtain ⟨hrow, hend, -⟩ := hk
  exact ⟨h.life, by rw [hrow]; exact h.saved, by rw [hrow]; exact h.inactive, by rw [hrow, hend]; exact h.loaded⟩

/-- A row just loaded is ready. -/
theorem LifeCycle.ready {db : Db} (h : LifeCycle db) {p : Prediction} (hp : p ∈ db.predictions) (stock : Option Stock) :
    Ready { row := p, stock := stock } db := by
  refine ⟨h, h.keyed.prediction_lt p hp, fun ha q hq hid => ?_, fun e he => by cases he⟩
  rw [h.keyed.prediction_ext hq hp hid]
  exact ha

/-- What `build_predictionend` destroys is the one Predictionend there is. -/
theorem Ready.target {self : Record} {db : Db} (h : Ready self db) :
    ∀ e, self.predictionend.or (db.predictionendOf self.row.id) = some e →
      ∃ f ∈ db.endings self.row.id, f.id = e.id := by
  intro e he
  cases hl : self.predictionend with
  | some e' =>
    rw [hl, Option.some_or, Option.some.injEq] at he
    subst he
    exact h.loaded e' hl
  | none =>
    rw [hl, Option.none_or] at he
    exact ⟨e, List.mem_of_getLast? he, rfl⟩

theorem endings_nil {db : Db} {id : Nat} (h : db.predictionendOf id = none) : db.endings id = [] :=
  List.getLast?_eq_none_iff.1 h

theorem mem_unique {α : Type} {l : List α} (h : l.length ≤ 1) {a b : α} (ha : a ∈ l) (hb : b ∈ l) : a = b := by
  obtain ⟨i, hi, rfl⟩ := List.mem_iff_getElem.1 ha
  obtain ⟨j, hj, rfl⟩ := List.mem_iff_getElem.1 hb
  congr 1
  omega

theorem endings_insert (db : Db) (row : Predictionend) (id : Nat) : (db.exec (.insertPredictionend row)).endings id =
    db.endings id ++ if row.prediction_id = id then [{ row with id := db.predictionend_seq }] else [] := by
  simp only [Db.endings, Db.exec, List.filter_append, List.filter_singleton, Bool.cond_decide]

theorem endings_destroy (db : Db) (prediction_id predictionend_id id : Nat) :
    (db.exec (.destroyPredictionend prediction_id predictionend_id)).endings id =
      (db.endings id).filter (·.id ≠ predictionend_id) := by
  simp only [Db.endings, Db.exec, Db.destroyDependents, List.filter_filter, Bool.and_comm]

/-- The Predictionend that is replaced, if any, is the one of its prediction. -/
theorem Ready.replaced {self : Record} {db : Db} (h : Ready self db) {e : Predictionend}
    (he : self.predictionend.or (db.predictionendOf self.row.id) = some e) (id : Nat) :
    (db.endings id).filter (·.id ≠ e.id) = if id = self.row.id then [] else db.endings id := by
  obtain ⟨f, hf, hfe⟩ := h.target e he
  by_cases hid : id = self.row.id
  · subst hid
    rw [if_pos rfl]
    refine List.filter_eq_nil_iff.2 fun g hg hne => ?_
    have hgf := mem_unique (h.life.one self.row.id) hg hf
    simp [hgf, hfe] at hne
  · rw [if_neg hid]
    refine List.filter_eq_self.2 fun g hg => decide_eq_true fun heq => ?_
    obtain ⟨hgm, hgp⟩ := List.mem_filter.1 hg
    obtain ⟨hfm, hfp⟩ := List.mem_filter.1 hf
    have hgf := h.life.keyed.predictionend_ext hgm hfm (heq.trans hfe.symm)
    subst hgf
    simp only [decide_eq_true_eq] at hgp hfp
    exact hid (hgp.symm.trans hfp)

/-- After an ending the new row is the only one of its prediction, and the others keep theirs. -/
theorem Ready.endings {self : Record} {db : Db} (h : Ready self db) {row : Predictionend}
    (hrow : row.prediction_id = self.row.id) (id : Nat) :
    (self.ended db row).endings id =
      if id = self.row.id then [{ row with id := db.predictionend_seq }] else db.endings id := by
  unfold Record.ended Db.replaceEnding
  cases ht : self.predictionend.or (db.predictionendOf self.row.id) with
  | none =>
    have hnil : db.endings self.row.id = [] := endings_nil (Option.or_eq_none_iff.1 ht).2
    refine (endings_insert _ _ _).trans ?_
    change db.endings id ++ _ = _
    rw [hrow]
    by_cases hid : id = self.row.id
    · rw [if_pos hid, if_pos hid.symm, hid, hnil]
      rfl
    · rw [if_neg hid, if_neg (Ne.symm hid), List.append_nil]
  | some e =>
    refine (endings_insert _ _ _).trans ?_
    rw [Option.elim, endings_destroy]
    change (db.endings id).filter _ ++ _ = _
    rw [h.replaced ht, hrow]
    by_cases hid : id = self.row.id
    · rw [if_pos hid, if_pos hid, if_pos hid.symm]
      rfl
    · rw [if_neg hid, if_neg hid, if_neg (Ne.symm hid), List.append_nil]

theorem Keyed.ended {self : Record} {db : Db} (h : Keyed db) (row : Predictionend) : Keyed (self.ended db row) := by
  have hupdated := h.exec (.updatePrediction self.row.id (deactivate.dirty self.row))
  unfold Record.ended Db.replaceEnding
  cases self.predictionend.or (db.predictionendOf self.row.id) with
  | none => exact hupdated.exec (.insertPredictionend row)
  | some e => exact (hupdated.exec (.destroyPredictionend self.row.id e.id)).exec (.insertPredictionend row)

theorem prediction_seq_ended (self : Record) (db : Db) (row : Predictionend) :
    (self.ended db row).prediction_seq = db.prediction_seq := by
  unfold Record.ended Db.replaceEnding
  cases self.predictionend.or (db.predictionendOf self.row.id) <;> rfl

/-- A row is there before the ending, and is changed only if it is the one that ends. -/
theorem prediction_before_ended {self : Record} {db : Db} {row : Predictionend} {p : Prediction}
    (hp : p ∈ (self.ended db row).predictions) : ∃ q ∈ db.predictions, q.id = p.id ∧
      p = if q.id = self.row.id then (deactivate.dirty self.row).set q else q := by
  rw [predictions_ended] at hp
  obtain ⟨q, hq, rfl⟩ := List.mem_map.1 hp
  exact ⟨q, hq, (updated_key Prediction.id (deactivate.dirty self.row).set (fun _ => rfl) _ _).symm, rfl⟩

theorem Ready.deactivated {self : Record} {db : Db} (h : Ready self db) {row : Predictionend} :
    ∀ p ∈ (self.ended db row).predictions, p.id = self.row.id → p.active = false := by
  intro p hp hpid
  obtain ⟨q, hq, hqp, rfl⟩ := prediction_before_ended hp
  have hqid := hqp.trans hpid
  rw [if_pos hqid]
  show (dirty self.row.active (some false)).getD q.active = false
  cases ha : self.row.active with
  | true => rfl
  | false => exact h.inactive ha q hq hqid

theorem Ready.lifeAfter {self : Record} {db : Db} (h : Ready self db) {row : Predictionend}
    (hrow : row.prediction_id = self.row.id) : LifeCycle (self.ended db row) := by
  have hends := h.endings hrow
  refine ⟨h.life.keyed.ended row, fun e he => ?_, fun id => ?_, fun p hp => ?_⟩
  · rw [prediction_seq_ended]
    have he' : e ∈ (self.ended db row).endings e.prediction_id := List.mem_filter.2 ⟨he, by simp⟩
    rw [hends] at he'
    by_cases hide : e.prediction_id = self.row.id
    · rw [hide]; exact h.saved
    · rw [if_neg hide] at he'
      exact h.life.owned e (List.mem_filter.1 he').1
  · rw [hends]
    split
    · exact le_refl _
    · exact h.life.one id
  · rw [hends]
    by_cases hpid : p.id = self.row.id
    · rw [if_pos hpid, h.deactivated p hp hpid]; rfl
    · rw [if_neg hpid]
      obtain ⟨q, hq, hqp, rfl⟩ := prediction_before_ended hp
      rw [if_neg fun hqid => hpid (hqp.symm.trans hqid)]
      exact h.life.ended q hq

/-- A prediction that was just ended is inactive with one Predictionend, and the object agrees. -/
theorem Ready.after {self self' : Record} {db db' : Db} (h : Ready self db) {row : Predictionend}
    (hrow : row.prediction_id = self.row.id) (hc : db'.core = (self.ended db row).core)
    (hself : self'.row = { self.row with active := false })
    (hend : self'.predictionend = some { row with id := db.predictionend_seq }) : Ready self' db' := by
  have hid : self'.row.id = self.row.id := by rw [hself]
  have hready : Ready self' (self.ended db row) := by
    refine ⟨h.lifeAfter hrow, ?_, fun _ => ?_, fun e he => ?_⟩
    · rw [hid, prediction_seq_ended]; exact h.saved
    · rw [hid]; exact h.deactivated
    · rw [hend, Option.some.injEq] at he
      subst he
      rw [hid, h.endings hrow, if_pos rfl]
      exact ⟨_, List.mem_singleton_self _, rfl⟩
  exact hready.of_core hc

/-! ## Completed programs -/

section Triples
variable {α : Type} {self : Record}

theorem triple_quiet {p : Request α} (h : Quietly p) : Triple Db.exec (Ready self) p fun _ => Ready self :=
  (h.triple (ends_true p) fun _ _ hc hr => hr.of_core hc).post fun _ _ h => h.2

theorem triple_loadStock (method : String) :
    Triple Db.exec (Ready self) (self.loadStock method) fun a => Ready a.1 :=
  ((mild_loadStock self method).quiet.triple (loadStock_keeps self method) fun _ _ hc hr => hr.of_core hc).post
    fun _ _ h => h.2.of_keeps h.1

theorem triple_endAt (time : Time) (price : Option Rat) :
    Triple Db.exec (Ready self) (self.endAt time price) Ready := by
  intro db self' db' hr hrun
  rcases run_endAt self time price db with ⟨_, -, hcore, hok⟩ | ⟨herr, -⟩
  · rw [hrun] at hcore hok
    obtain ⟨hrow, hend, -⟩ := hok self' rfl
    exact hr.after rfl hcore hrow hend
  · rw [hrun] at herr
    cases herr

theorem triple_scan (prices : List Intradayprice) : Triple Db.exec (Ready self) (self.scan prices) Ready := by
  induction prices with
  | nil => exact .ret fun _ h => h
  | cons price prices ih =>
    unfold Record.scan
    split
    · exact .raise
    · split
      · exact triple_endAt _ _
      · exact ih

theorem triple_exceedsEndPrice : Triple Db.exec (Ready self) self.exceedsEndPrice Ready := by
  refine .bind (triple_quiet (quiet_select trivial)) fun found => ?_
  cases found with
  | none => exact .raise
  | some stock => exact .bind (triple_quiet (quiet_select trivial)) fun prices => triple_scan prices

theorem triple_orNil {P : Db → Prop} (a : Option α) (method : String) :
    Triple Db.exec P (orNil a method) fun b db => a = some b ∧ P db := by
  cases a with
  | none => exact .raise
  | some a => exact .ret fun _ h => ⟨rfl, h⟩

theorem triple_exceedsEndTime : Triple Db.exec (Ready self) self.exceedsEndTime Ready := by
  refine .bind (triple_loadStock "date") fun ⟨loaded, stock⟩ => .bind (triple_orNil _ _) fun date => ?_
  dsimp only
  split
  · exact (triple_endAt _ _).pre fun _ h => h.2
  · exact .ret fun _ h => h.2

/-- Saving anything but `active` keeps the object ready. -/
theorem triple_update {assigned : PredictionChanges} (h : assigned.active = none) :
    Triple Db.exec (Ready self) (self.update assigned) Ready := by
  intro db self' db' hr hrun
  rcases run_update self assigned db with ⟨self₂, -, -, db₂, hrun₂, -, -, -, hrow, hend, hcore⟩ | ⟨herr, -⟩
  · rw [hrun, Prod.mk.injEq, Except.ok.injEq] at hrun₂
    obtain ⟨rfl, rfl⟩ := hrun₂
    have hsteady : (assigned.dirty self.row).active = none := by simp [PredictionChanges.dirty, dirty, h]
    have hactive : self'.row.active = self.row.active := by rw [hrow]; simp [PredictionChanges.set, h]
    have hid : self'.row.id = self.row.id := by rw [hrow]; rfl
    have hready : Ready self' (db.exec (.updatePrediction self.row.id (assigned.dirty self.row))) := by
      refine ⟨hr.life.exec hsteady, by rw [hid]; exact hr.saved, fun ha p hp hpid => ?_, ?_⟩
      · obtain ⟨q, hq, rfl⟩ := List.mem_map.1 hp
        rw [updated_key Prediction.id (assigned.dirty self.row).set (fun _ => rfl), hid] at hpid
        rw [if_pos hpid]
        simpa [PredictionChanges.set, hsteady] using hr.inactive (hactive ▸ ha) q hq hpid
      · rw [hid, hend]
        exact hr.loaded
    exact hready.of_core hcore
  · rw [hrun] at herr
    cases herr

theorem triple_percent {P : Db → Prop} (a b : Option Rat) : Triple Db.exec P (percent a b) fun _ => P := by
  cases a with
  | none => exact .raise
  | some a =>
    cases b with
    | none => exact .raise
    | some b => exact .ret fun _ h => h

theorem triple_updateScore : Triple Db.exec (Ready self) self.updateScore Ready :=
  .bind (triple_percent _ _) fun _ => .bind (triple_loadStock _) fun ⟨_, _⟩ => .bind (triple_percent _ _) fun _ =>
    triple_update rfl

theorem triple_bringUpToDate : Triple Db.exec (Ready self) self.bringUpToDate Ready :=
  .bind triple_exceedsEndPrice fun _ => .bind triple_exceedsEndTime fun _ => triple_updateScore

end Triples

/-! ## Completed requests and jobs -/

section Requests
variable {α : Type}

theorem triple_select {P : Db → Prop} (query : Query) (f : Db → α) :
    Triple Db.exec P (select query f) fun a db => a = f db ∧ P db := by
  rintro db _ _ hP ⟨⟩
  exact ⟨rfl, hP⟩

theorem life_quiet {p : Request α} (h : Quietly p) : Triple Db.exec LifeCycle p fun _ => LifeCycle :=
  (h.triple (ends_true p) fun _ _ hc hl => hl.of_core hc).post fun _ _ h => h.2

theorem life_redirectNonUser {session : Option Nat} {action : User → Request Reply}
    (h : ∀ user, Triple Db.exec LifeCycle (action user) fun _ => LifeCycle) :
    Triple Db.exec LifeCycle (redirectNonUser session action) fun _ => LifeCycle := by
  refine .bind (life_quiet (mild_currentUser session).quiet) fun current_user => ?_
  cases current_user with
  | none => exact .ret fun _ h => h
  | some user => exact h user

theorem life_showPrediction (session : Option Nat) (id : Nat) :
    Triple Db.exec LifeCycle (PredictionsController.show session id) fun _ => LifeCycle := by
  refine life_redirectNonUser fun _ => .bind (triple_select _ _) fun found => .bind (triple_orNil _ _) fun row =>
    .bind (triple_select _ _) fun stock => .bind (Q := fun _ => LifeCycle) ?_ fun _ =>
      .bind (triple_orNil _ _) fun _ => .ret fun _ h => h.2
  unfold showPrediction
  split
  · refine .bind (triple_bringUpToDate.pre fun db h => ?_) fun _ => .ret fun _ h => h.life
    obtain ⟨-, hrow, hfound, hlife⟩ := h
    exact hlife.ready (prediction_found (hfound.symm.trans hrow)).1 stock
  · exact .ret fun _ h => h.2.2.2

theorem life_predictionEnd : Triple Db.exec LifeCycle predictionEnd fun _ => LifeCycle := by
  refine .of_each fun db₀ hlife => .bind (triple_select _ _) fun predictions => ?_
  -- While the list is worked off, its rows stay below the sequence.
  let n := db₀.prediction_seq
  have hbound : ∀ row ∈ db₀.activePredictions, row.id < n ∧ row.active = true := by
    intro row hrow
    obtain ⟨hmem, ha⟩ := mem_activePredictions.1 hrow
    exact ⟨hlife.keyed.prediction_lt row hmem, ha⟩
  have hbody : ∀ row ∈ db₀.activePredictions, Triple Db.exec (fun db => LifeCycle db ∧ n ≤ db.prediction_seq)
      (Record.bringUpToDate { row := row } >>= fun _ => return ())
      fun _ db => LifeCycle db ∧ n ≤ db.prediction_seq := by
    intro row hrow
    have hseq : Triple Db.exec (fun db => n ≤ db.prediction_seq) (Record.bringUpToDate { row := row })
        fun _ db => n ≤ db.prediction_seq :=
      (gentle_bringUpToDate { row := row }).plain.regular.triple fun db stmt hs h => by
        cases stmt <;> first | exact h | exact hs.elim
    refine .bind ((triple_bringUpToDate.and hseq).conseq (fun db h => ?_) fun _ _ h => ⟨h.1.life, h.2⟩) fun _ =>
      .ret fun _ h => h
    obtain ⟨hid, ha⟩ := hbound row hrow
    refine ⟨⟨h.1, lt_of_lt_of_le hid h.2, fun hf => ?_, fun e he => ?_⟩, h.2⟩
    · rw [ha] at hf; cases hf
    · cases he
  refine .of_each fun db hdb => ?_
  obtain ⟨rfl, hdb⟩ := hdb
  rw [hdb]
  exact (Triple.each _ hbody).conseq (fun db h => h ▸ ⟨hlife, le_refl _⟩) fun _ _ h => h.1

theorem life_endByHand (self : Record) (stock : Stock) (current_user : User) (now : Time) (content : Option String) :
    Triple Db.exec (Ready self) (endByHand self stock current_user now content) fun _ => LifeCycle := by
  intro db a db' hr hrun
  rcases run_update self deactivate db with ⟨self', -, -, db₁, hrun₁, -, -, -, hrow, hend, hcore⟩ | ⟨herr, -⟩
  · have hid : self'.row.id = self.row.id := by rw [hrow]; rfl
    have hseq : db₁.predictionend_seq = db.predictionend_seq := congrArg (fun core => core.2.2.2) hcore
    have hof : db₁.predictionendOf self.row.id = db.predictionendOf self.row.id :=
      (predictionendOf_of_core hcore _).trans rfl
    replace hrun := (run_bind_ok Db.exec hrun₁ _).symm.trans hrun
    replace hrun := (run_bind_ok Db.exec (run_buildPredictionend self' db₁) _).symm.trans hrun
    cases ht : closestStartTime (graphTime now) with
    | none => rw [ht] at hrun; cases hrun
    | some time =>
      rw [ht, hend, hid, hof] at hrun
      let row : Predictionend := ⟨0, self.row.id, time, stock.daily_stock_price, false, content, graphTime time⟩
      let db₂ := db₁.replaceEnding self.row.id (self.predictionend.or (db.predictionendOf self.row.id)) row
      have hafter : Ready { self' with predictionend := some { row with id := db.predictionend_seq } } db₂ :=
        hr.after rfl (core_replaceEnding hcore _ _ _) hrow rfl
      have hquiet : ∀ e : Predictionend, Quietly (do
          write (.insertPopularity ⟨⟨.predictionend, e.id⟩, 0⟩)
          let added ← addTags content stock.ticker_symbol .predictionend (some e.id)
          Stream.create! ⟨⟨.predictionend, e.id⟩, ⟨.stock, stock.id⟩⟩
          Stream.create! ⟨⟨.predictionend, e.id⟩, ⟨.user, current_user.id⟩⟩
          targetTags ⟨.predictionend, e.id⟩ added.2) := fun e =>
        .bind (quiet_write trivial) fun _ => .bind (mild_addTags _ _ _ _).quiet fun _ =>
          .bind (mild_streamCreate! _).quiet fun _ => .bind (mild_streamCreate! _).quiet fun _ => (mild_targetTags _ _).quiet
      exact life_quiet (hquiet _) db₂ a db' hafter.life hrun
  · replace hrun := (run_bind_error Db.exec herr _).symm.trans hrun
    cases hrun

/-- The object is ready, and there is no Predictionend to destroy. -/
structure Unended (r : Record) (db : Db) : Prop where
  ready : Ready r db
  unloaded : r.predictionend = none
  endings : db.endings r.row.id = []

theorem Unended.of_core {self : Record} {db db' : Db} (h : Unended self db) (hc : db'.core = db.core) :
    Unended self db' := ⟨h.ready.of_core hc, h.unloaded, (endings_of_core hc _).trans h.endings⟩

theorem Unended.of_keeps {self a : Record} {db : Db} (h : Unended self db) (hk : Keeps self a) : Unended a db :=
  ⟨h.ready.of_keeps hk, hk.2.1.trans h.unloaded, by rw [hk.1]; exact h.endings⟩

/-- Then `build_predictionend` does nothing. -/
theorem Unended.build {self : Record} {db : Db} (h : Unended self db) :
    self.buildPredictionend.run Db.exec db = (.ok (), db) := by
  have hof : db.predictionendOf self.row.id = none := by rw [Db.predictionendOf, h.endings]; rfl
  rw [run_buildPredictionend, h.unloaded, hof]
  rfl

theorem life_destroy (self : Record) : Triple Db.exec (Unended self) self.destroy fun _ => LifeCycle := by
  intro db _ db' h hrun
  replace hrun := (run_bind_ok Db.exec h.build _).symm.trans hrun
  cases hrun
  have hlife := h.ready.life
  exact ⟨hlife.keyed.exec (.destroyPrediction self.row.id), hlife.owned, hlife.one,
    fun p hp => hlife.ended p (List.mem_of_mem_filter hp)⟩

theorem life_closePrediction (row : Prediction) (now : Time) (session : Option Nat) (content : Option String) :
    Triple Db.exec (Unended { row := row }) (closePrediction row now session content) fun _ => LifeCycle := by
  refine .bind ((mild_currentUser session).quiet.triple (ends_true _) fun _ _ hc h => h.of_core hc) fun _ =>
    .bind (triple_orNil _ _) fun user => .bind (((mild_loadStock _ _).quiet.triple (loadStock_keeps _ _)
      fun _ _ hc h => h.of_core hc).pre fun _ h => h.2.2) fun ⟨self, stock⟩ => ?_
  refine .bind (((mild_startedOrChildren row now).quiet.triple (ends_true _) fun _ _ hc h => h.of_core hc).pre
    fun _ h => h.2.of_keeps h.1) fun prediction_ended => ?_
  cases prediction_ended with
  | true =>
    exact .bind ((life_endByHand self stock user now content).pre fun _ h => h.2.ready)
      fun _ => .ret fun _ h => h
  | false =>
    exact .bind ((life_destroy self).pre fun _ h => h.2) fun _ => .ret fun _ h => h

theorem life_createPredictionend (now : Time) (session : Option Nat) (prediction_id : Nat) (content : Option String) :
    Triple Db.exec LifeCycle (PredictionendsController.create now session prediction_id content)
      fun _ => LifeCycle := by
  refine .bind (triple_select _ _) fun exists_ => ?_
  cases exists_ with
  | false => exact .ret fun _ h => h.2
  | true =>
    refine .bind (triple_select _ _) fun found => .bind (triple_orNil _ _) fun row =>
      .bind (triple_select _ _) fun ended => ?_
    cases ended with
    | true => exact .ret fun _ h => h.2.2.2.2
    | false =>
      refine (life_closePrediction row now session content).pre fun db h => ?_
      obtain ⟨hended, hrow, hfound, -, hlife⟩ := h
      refine ⟨hlife.ready (prediction_found (hfound.symm.trans hrow)).1 none, rfl, endings_nil ?_⟩
      simpa using hended.symm

/-! ## The page of a stock -/

/-- The viewer's active prediction, if there is one, is not due: no bar of its
window surpasses it, and its end time is after the stock's date. -/
def NotDue (db : Db) (p : Prediction) : Prop :=
  ∀ stock, db.stock p.stock_id = some stock →
    (∀ start_price, p.start_price = some start_price → ∀ b ∈ db.window stock.ticker_symbol p.start_time,
      surpasses p.prediction_end_price start_price b.close_price = false) ∧
    ∀ date, stock.date = some date → date < p.prediction_end_time

/-- The page of a stock finds the viewer's prediction not due, once the scraper has run. -/
def NothingDue (db : Db) : Job → Prop
  | .showStock session ticker_symbol feed => ∀ id user stock, session = some id → db.user id = some user →
      db.stockTicker ticker_symbol = some stock →
      ∀ p, ((viewStock stock feed).run Db.exec db).2.activePrediction user.id stock.id = some p →
        NotDue ((viewStock stock feed).run Db.exec db).2 p
  | _ => True

theorem scan_notDue (self : Record) {prices : List Intradayprice} (h : ∀ start_price,
    self.row.start_price = some start_price → ∀ b ∈ prices,
      surpasses self.row.prediction_end_price start_price b.close_price = false) :
    self.scan prices = .ret self ∨ self.scan prices = .raise .typeError := by
  cases hs : self.row.start_price with
  | some start_price => exact .inl (scan_none self hs (h start_price hs))
  | none =>
    cases prices with
    | nil => exact .inl rfl
    | cons b prices => right; simp only [Record.scan, hs]

/-- A prediction that is not due is not ended. -/
theorem unended_exceedsEndPrice (self : Record) {db₀ : Db} (hdue : NotDue db₀ self.row) :
    Outcome Db.exec (fun db => db = db₀) self.exceedsEndPrice (fun self' db => self' = self ∧ db = db₀)
      fun db => db = db₀ := by
  cases hst : db₀.stock self.row.stock_id with
  | none =>
    have hrun : self.exceedsEndPrice.run Db.exec db₀ = (.error .recordNotFound, db₀) := by
      simp [Record.exceedsEndPrice, select, hst]
    exact .of_run hrun (by simp) (by simp)
  | some found =>
    have hrun := run_exceedsEndPrice hst
    rcases scan_notDue self (hdue found hst).1 with h | h <;> rw [h] at hrun
    · refine .of_run hrun ?_ (by simp)
      rintro _ ⟨⟩
      exact ⟨rfl, rfl⟩
    · exact .of_run hrun (by simp) (by simp)

theorem unended_exceedsEndTime {self : Record} {db₀ : Db} (hst : self.stockIn db₀ = db₀.stock self.row.stock_id)
    (hdue : NotDue db₀ self.row) :
    Outcome Db.exec (fun db => db = db₀) self.exceedsEndTime (fun self' db => Keeps self self' ∧ db = db₀)
      fun db => db = db₀ := by
  rcases run_loadStock self "date" db₀ with ⟨self₁, stock, hload, hin, hstock, hrow, hend⟩ | ⟨hload, -⟩
  · have hkeeps : Keeps self self₁ := by
      refine ⟨hrow, hend, ?_⟩
      intro stock' hs
      rw [Record.stockIn, hs, Option.some_or] at hin
      exact hstock.trans hin.symm
    have hrun := run_bind_ok Db.exec hload fun loaded => do
      let date ← orNil loaded.2.date ">="
      if loaded.1.row.prediction_end_time ≤ date then
        loaded.1.endAt loaded.1.row.prediction_end_time loaded.2.daily_stock_price
      else return loaded.1
    cases hd : stock.date with
    | none => simp only [hd] at hrun; exact .of_run hrun (by simp) (by simp)
    | some date =>
      have hlt : ¬self₁.row.prediction_end_time ≤ date := by
        rw [hrow]
        exact not_le.2 ((hdue stock (hst.symm.trans hin)).2 date hd)
      simp only [hd, orNil, bind_eq, ret_bind, if_neg hlt] at hrun
      refine .of_run hrun ?_ (by simp)
      rintro _ ⟨⟩
      exact ⟨hkeeps, rfl⟩
  · exact .of_run (run_bind_error Db.exec hload _) (by simp) (by simp)

theorem unended_updateScore {self : Record} :
    Triple Db.exec (Unended self) self.updateScore Unended := by
  refine .bind (triple_percent _ _) fun _ => .bind (((mild_loadStock _ _).quiet.triple (loadStock_keeps _ _)
    fun _ _ hc h => h.of_core hc).post fun _ _ h => h.2.of_keeps h.1) fun ⟨self₁, _⟩ =>
      .bind (triple_percent _ _) fun _ => ?_
  intro db self' db' h hrun
  have hready := triple_update rfl db self' db' h.ready hrun
  rcases run_update self₁ { score := _ } db with ⟨self₂, -, -, db₂, hrun₂, -, -, -, hrow, hend, hcore⟩ | ⟨herr, -⟩
  · rw [hrun, Prod.mk.injEq, Except.ok.injEq] at hrun₂
    obtain ⟨rfl, rfl⟩ := hrun₂
    exact ⟨hready, hend.trans h.unloaded, by rw [hrow]; exact (endings_of_core hcore _).trans h.endings⟩
  · rw [hrun] at herr
    cases herr

/-- The page only looks at a prediction that is not due. -/
theorem life_showActivePrediction (current_user : User) (stock : Stock) :
    Triple Db.exec (fun db => LifeCycle db ∧ ∀ p, db.activePrediction current_user.id stock.id = some p → NotDue db p)
      (showActivePrediction current_user stock) fun _ => LifeCycle := by
  refine .of_each fun db₀ hpre => ?_
  obtain ⟨hlife, hdue⟩ := hpre
  refine .bind (triple_select _ _) fun exists_ => ?_
  cases exists_ with
  | false => exact .ret fun db h => h.2 ▸ hlife
  | true =>
    refine .bind (triple_select _ _) fun found => .bind (triple_orNil _ _) fun p => ?_
    refine .of_each fun db hdb => ?_
    obtain ⟨hfound, hp, -, rfl⟩ := hdb
    have hactive : db.activePrediction current_user.id stock.id = some p := hp.symm.trans hfound
    have hmem := activePrediction_found hactive
    have hnil : db.endings p.id = [] := by
      have := hlife.ended p hmem.1
      rw [hmem.2] at this
      exact List.length_eq_zero_iff.1 this
    have hunended : Unended { row := p } db := ⟨hlife.ready hmem.1 none, rfl, hnil⟩
    have hdate : Triple Db.exec (fun db' => db' = db) (Record.bringUpToDate { row := p }) Unended := by
      refine .bind (unended_exceedsEndPrice { row := p } (hdue p hactive)).completed fun self =>
        .of_each fun db' h => ?_
      obtain ⟨rfl, rfl⟩ := h
      exact .bind (unended_exceedsEndTime rfl (hdue p hactive)).completed fun self =>
        unended_updateScore.pre fun db'' h => h.2 ▸ hunended.of_keeps h.1
    refine .bind hdate fun self => ?_
    intro db' _ db'' h hrun
    rw [h.build] at hrun
    cases hrun
    exact h.ready.life

theorem life_showStock {db : Db} {session : Option Nat} {ticker_symbol : String} {feed : List Intradayprice}
    (hlife : LifeCycle db) (hdue : NothingDue db (.showStock session ticker_symbol feed)) :
    Triple Db.exec (fun db' => db' = db) (StocksController.show session ticker_symbol feed) fun _ => LifeCycle := by
  cases session with
  | none => exact .ret fun _ h => h ▸ hlife
  | some id =>
    refine .bind (triple_select _ _) fun current_user => ?_
    cases current_user with
    | none => exact .ret fun _ h => h.2 ▸ hlife
    | some user =>
      refine .bind (triple_select _ _) fun found => .bind (triple_orNil _ _) fun stock => .of_each fun db' h => ?_
      obtain ⟨hstock, hfound, huser, rfl⟩ := h
      have hnot := hdue id user stock rfl huser.symm (hfound.symm.trans hstock)
      -- What the scraper leaves is what the prediction is judged by.
      have hview : Triple Db.exec (fun db => db = db') (viewStock stock feed) fun _ db =>
          LifeCycle db ∧ ∀ p, db.activePrediction user.id stock.id = some p → NotDue db p := by
        rintro db _ db'' rfl hrun
        rw [hrun] at hnot
        refine ⟨hlife.of_core ?_, hnot⟩
        have hc := (quiet_viewStock stock feed).core db
        rwa [hrun] at hc
      exact .bind hview fun _ => .bind (life_showActivePrediction user stock) fun _ => .ret fun _ h => h

end Requests

/-! ## Runs -/

/-- Each job is completed, and its page finds nothing due. -/
def Completed (parse : String → Option Int) (Allowed : Db → Job → Prop) (db : Db) (job : Job) : Prop :=
  (job.run parse db).1 = .ok () ∧ Allowed db job

theorem triple_unanswered {P Q : Db → Prop} {request : Request Reply} (h : Triple Db.exec P request fun _ => Q) :
    Triple Db.exec P (unanswered request) fun _ => Q := .bind h fun _ => .ret fun _ h => h

theorem LifeCycle.job {parse : String → Option Int} {db : Db} (h : LifeCycle db) {job : Job}
    (hj : Completed parse NothingDue db job) : LifeCycle (job.run parse db).2 := by
  obtain ⟨hok, hdue⟩ := hj
  have hrun : (job.request parse).run Db.exec db = (.ok (), (job.run parse db).2) := Prod.ext hok rfl
  have hsteady : ∀ {p : Request Unit}, p.Only Stmt.Steady → LifeCycle (p.run Db.exec db).2 :=
    fun hp => hp.run_inv (I := LifeCycle) (fun _ _ hs h => h.exec hs) h
  cases job with
  | createPrediction now session params =>
    exact hsteady (only_unanswered (only_createPrediction parse now session params (fun _ hs => hs.1.steady)
      (fun _ => trivial) fun _ h _ => h.active))
  | showPrediction session id => exact triple_unanswered (life_showPrediction session id) _ _ _ h hrun
  | showStock session ticker_symbol feed => exact triple_unanswered (life_showStock h hdue) _ _ _ rfl hrun
  | createPredictionend now session prediction_id content =>
    exact triple_unanswered (life_createPredictionend now session prediction_id content) _ _ _ h hrun
  | predictionEnd => exact life_predictionEnd _ _ _ h hrun
  | verifyStart prediction_id minute_array =>
    exact hsteady (only_verifyStart prediction_id minute_array (fun _ hs => hs.1.steady) (fun _ => trivial)
      fun _ _ ha => ha)
  | verifyEnd predictionend_id now minute_array =>
    exact hsteady (only_verifyEnd predictionend_id now minute_array (fun _ hs => hs.1.steady) (fun _ => trivial)
      (fun _ _ ha _ => ha) fun _ _ => trivial)
  | googleIntraday ticker_symbol feed =>
    exact hsteady ((mild_googleIntraday ticker_symbol feed).quiet.mono fun _ => Stmt.Quiet.steady)

/-- In every state reached from empty tables by completed requests and jobs, if
no page of a stock finds a prediction due, a prediction is inactive exactly when
one Predictionend belongs to it. -/
theorem inactive_iff_one_predictionend (parse : String → Option Int) {init db : Db} (hp : init.predictions = [])
    (he : init.predictionends = [])
    (h : Serial (fun job db => (Job.run parse job db).2) (Completed parse NothingDue) init db) :
    ∀ p ∈ db.predictions, p.active = false ↔ (db.endings p.id).length = 1 := by
  have h0 : LifeCycle init := by
    refine ⟨⟨by simp [hp], by simp [hp], by simp [he], by simp [he]⟩, by simp [he], fun id => ?_, by simp [hp]⟩
    simp [Db.endings, he]
  have hlife : LifeCycle db := h.inv h0 fun _ _ hj hl => hl.job hj
  intro p hmem
  rw [hlife.ended p hmem]
  cases p.active <;> simp

/-- The tables after the prediction of `mondayForm` was created. -/
def predicted : Db := (mondayForm.run tuesdayAfternoon oneStock).2

/-- The page of the stock, without new bars. -/
def stockPage : Job := .showStock (some 1) "ABC" []

/-- The user ends the prediction. -/
def giveUp : Job := .createPredictionend (1436195000 * 1000000000) (some 1) 1 (some "done")

theorem notDue_predicted : ∀ p ∈ predicted.predictions, NotDue predicted p := by
  intro p hmem
  have hlater : (predicted.predictions.all fun p => predicted.stocks.all fun stock =>
      stock.date.all (· < p.prediction_end_time)) = true := rfl
  simp only [List.all_eq_true, Option.all_eq_true, decide_eq_true_eq] at hlater
  have hbars : predicted.intradayprices = [] := rfl
  intro found hfound
  refine ⟨fun start_price _ b hb => ?_, hlater p hmem found (List.mem_of_find?_eq_some hfound)⟩
  simp [Db.window, hbars] at hb

theorem nothingDue_predicted : NothingDue predicted stockPage := by
  intro id user stock _ _ hstock p hp
  have hrow : predicted.stockTicker "ABC" =
      some ⟨1, "A stock", "ABC", some (1436189400 * 1000000000), some 100, some true, 1⟩ := rfl
  obtain rfl := Option.some.inj (hstock.symm.trans hrow)
  exact notDue_predicted p (activePrediction_found hp).1

/-- The tables after the page was looked at. -/
def viewed : Db := (stockPage.run tuesdayAfternoon predicted).2

/-- The tables after the prediction was then ended by hand. -/
def givenUp : Db := (giveUp.run tuesdayAfternoon viewed).2

theorem inactive_iff_one_predictionend_viewed :
    ∃ p ∈ givenUp.predictions, p.active = false ∧ (givenUp.endings p.id).length = 1 := by
  let Reached (db : Db) : Prop :=
    Serial (fun job db => (Job.run tuesdayAfternoon job db).2) (Completed tuesdayAfternoon NothingDue) oneStock db
  have h₁ : Reached predicted := .run (j := mondayForm) .init ⟨by rfl, trivial⟩
  have h₂ : Reached viewed := .run (j := stockPage) h₁ ⟨by rfl, nothingDue_predicted⟩
  have h₃ : Reached givenUp := .run (j := giveUp) h₂ ⟨by decide +kernel, trivial⟩
  obtain ⟨p, hp, ha⟩ : ∃ p ∈ givenUp.predictions, p.active = false := by decide +kernel
  exact ⟨p, hp, ha, (inactive_iff_one_predictionend tuesdayAfternoon rfl rfl h₃ p hp).1 ha⟩

/-- The page that ends a prediction destroys the Predictionend it has just saved. -/
theorem showStock_destroys_predictionend :
    ¬∀ parse init db, init.predictions = [] → init.predictionends = [] →
      Serial (fun job db => (Job.run parse job db).2) (Completed parse fun _ _ => True) init db →
      ∀ p ∈ db.predictions, p.active = false ↔ (db.endings p.id).length = 1 := by
  intro h
  have hrun := h tuesdayAfternoon oneStock _ rfl rfl
    (.run (j := stockPage) (.run (j := .googleIntraday "ABC" [⟨"ABC", 1436194800 * 1000000000, 112⟩])
      (.run (j := mondayForm) .init ⟨by rfl, trivial⟩) ⟨by rfl, trivial⟩)
      ⟨by decide +kernel, trivial⟩)
  revert hrun
  decide +kernel

end MyStockIQ
