import MyStockIQ.LifeCycle
/-!
# Endings under interleaving

The pass, the pages and the user's own ending read a prediction, and later
deactivate it, destroy the Predictionend they find, and save another. Only the
user's ending asks again, once. An ending is safe in the runs where no
Predictionend of the prediction is saved between a party's last reading of the
prediction and what it then saves or destroys.
-/

open SharedStore Prog

namespace MyStockIQ

section
variable (prediction_id : Nat)

/-- The save of a Predictionend of the prediction. -/
def Stmt.savesEnding : Stmt → Bool
  | .insertPredictionend row => row.prediction_id = prediction_id
  | _ => false

/-- Reading the prediction, or asking whether it has ended, is the check. Saving and
destroying a Predictionend act on it, and a save spoils it. -/
def endingWatch : Watch Stmt where
  checks
    | .select (.prediction id) | .select (.predictionendExists id) => id = prediction_id
    | .select .activePredictions | .select (.activePrediction _ _) => true
    | _ => false
  acts
    | .insertPredictionend row => row.prediction_id = prediction_id
    | .destroyPredictionend id _ => id = prediction_id
    | _ => false
  breaks := Stmt.savesEnding prediction_id

/-- What the tables keep: an active prediction has no Predictionend, and an ended one has one. -/
structure EndedOnce (db : Db) : Prop where
  keyed : Keyed db
  owned : db.endings prediction_id ≠ [] → prediction_id < db.prediction_seq
  unended : ∀ p ∈ db.predictions, p.id = prediction_id → p.active = true → db.endings prediction_id = []
  one : (db.endings prediction_id).length ≤ 1

/-- What a party knows of the prediction: that it was created, that it is inactive, that it had
no Predictionend when last read, and which Predictionends are of other predictions. -/
structure Findings where
  created : Prop
  inactive : Prop
  unended : Prop
  foreign : Nat → Prop

/-- After a reading that found this row of the prediction. -/
def Findings.read (k : Findings) (found : Option Prediction) : Findings where
  created := k.created ∨ found.isSome = true
  inactive := k.inactive ∨ ∃ p, found = some p ∧ p.active = false
  unended := ∃ p, found = some p ∧ p.active = true
  foreign := k.foreign

/-- After a Predictionend of another prediction was found. -/
def Findings.meet (k : Findings) (other : Nat → Prop) : Findings :=
  { k with foreign := fun id => k.foreign id ∨ other id }

def Findings.learn (k : Findings) : Stmt → Db → Findings
  | .select (.prediction id), db => if id = prediction_id then k.read (db.prediction id) else k
  | .select .activePredictions, db => k.read (db.activePredictions.find? (·.id = prediction_id))
  | .select (.activePrediction user_id stock_id), db =>
    k.read ((db.activePrediction user_id stock_id).filter (·.id = prediction_id))
  | .select (.predictionendExists id), db =>
    if id = prediction_id then { k with unended := db.predictionendOf id = none } else k
  | .select (.predictionendOf id), db =>
    if id = prediction_id then k else k.meet fun n => ∃ e, db.predictionendOf id = some e ∧ e.id = n
  | .updatePrediction id changes, _ =>
    if id = prediction_id ∧ changes.active = some false then { k with inactive := k.inactive ∨ k.created } else k
  | .insertPredictionend row, db => if row.prediction_id = prediction_id then k else k.meet (· = db.predictionend_seq)
  | _, _ => k

/-- A Predictionend of the prediction is saved and destroyed only by who found it
without one, and one that is destroyed for another prediction belongs to another. -/
def Findings.may (k : Findings) : Stmt → Prop
  | .insertPredictionend row => row.prediction_id = prediction_id → k.inactive ∧ k.unended
  | .destroyPredictionend id predictionend_id => if id = prediction_id then k.unended else k.foreign predictionend_id
  | .updatePrediction _ changes => changes.active ≠ some true
  | _ => True

/-- The findings are true of the tables. -/
structure Findings.Hold (fresh : Bool) (k : Findings) (db : Db) : Prop where
  created : k.created → prediction_id < db.prediction_seq
  inactive : k.inactive → prediction_id < db.prediction_seq ∧
    ∀ p ∈ db.predictions, p.id = prediction_id → p.active = false
  unended : k.unended → fresh = true → db.endings prediction_id = []
  foreign : ∀ id, k.foreign id → id < db.predictionend_seq ∧
    ∀ e ∈ db.predictionends, e.id = id → e.prediction_id ≠ prediction_id

end

/-! ## The Predictionends after a statement -/

section Exec
variable {prediction_id : Nat} {db : Db} {fresh : Bool} {k : Findings} {stmt : Stmt}

/-- Only a save gives the prediction a Predictionend. -/
theorem endings_length_le (h : stmt.savesEnding prediction_id = false) :
    ((db.exec stmt).endings prediction_id).length ≤ (db.endings prediction_id).length := by
  cases stmt with
  | insertPredictionend row =>
    have hne : row.prediction_id ≠ prediction_id := by simpa [Stmt.savesEnding] using h
    rw [endings_insert, if_neg hne, List.append_nil]
  | updatePredictionend id changes => rw [endings_updatePredictionend]
  | destroyPredictionend id predictionend_id => rw [endings_destroy]; exact List.length_filter_le _ _
  | _ => exact le_refl _

theorem endings_stay_nil (h : stmt.savesEnding prediction_id = false) (hnil : db.endings prediction_id = []) :
    (db.exec stmt).endings prediction_id = [] := by
  have : ((db.exec stmt).endings prediction_id).length ≤ (db.endings prediction_id).length := endings_length_le h
  rw [hnil] at this
  exact List.length_eq_zero_iff.1 (by simpa using this)

theorem prediction_seq_le : db.prediction_seq ≤ (db.exec stmt).prediction_seq := by
  cases stmt with
  | insertPrediction row => exact Nat.le_succ _
  | _ => exact le_refl _

theorem predictionend_seq_le : db.predictionend_seq ≤ (db.exec stmt).predictionend_seq := by
  cases stmt with
  | insertPredictionend row => exact Nat.le_succ _
  | _ => exact le_refl _

/-- A row of the tables is there before the statement, as active and under its id, or is new. -/
theorem prediction_before (hmay : k.may prediction_id stmt) {p : Prediction} (hp : p ∈ (db.exec stmt).predictions) :
    (∃ q ∈ db.predictions, q.id = p.id ∧ (p.active = true → q.active = true)) ∨ p.id = db.prediction_seq := by
  cases stmt with
  | insertPrediction row =>
    rcases mem_inserted hp with hp | rfl
    · exact .inl ⟨p, hp, rfl, id⟩
    · exact .inr rfl
  | updatePrediction id changes =>
    rcases mem_updated hp with ⟨hp, -⟩ | ⟨q, hq, -, rfl⟩
    · exact .inl ⟨p, hp, rfl, fun h => h⟩
    · exact .inl ⟨q, hq, rfl, changes.active_of_set hmay⟩
  | destroyPrediction id => exact .inl ⟨p, List.mem_of_mem_filter hp, rfl, fun h => h⟩
  | _ => exact .inl ⟨p, hp, rfl, fun h => h⟩

/-- A Predictionend is there before the statement, under its id and its prediction, or is new. -/
theorem predictionend_before {e : Predictionend} (he : e ∈ (db.exec stmt).predictionends) :
    (∃ f ∈ db.predictionends, f.id = e.id ∧ f.prediction_id = e.prediction_id) ∨ e.id = db.predictionend_seq := by
  cases stmt with
  | insertPredictionend row =>
    rcases mem_inserted he with he | rfl
    · exact .inl ⟨e, he, rfl, rfl⟩
    · exact .inr rfl
  | updatePredictionend id changes =>
    rcases mem_updated he with ⟨he, -⟩ | ⟨f, hf, -, rfl⟩
    · exact .inl ⟨e, he, rfl, rfl⟩
    · exact .inl ⟨f, hf, rfl, rfl⟩
  | destroyPredictionend id predictionend_id => exact .inl ⟨e, List.mem_of_mem_filter he, rfl, rfl⟩
  | _ => exact .inl ⟨e, he, rfl, rfl⟩

theorem EndedOnce.exec (h : EndedOnce prediction_id db) (hk : k.Hold prediction_id fresh db)
    (hmay : k.may prediction_id stmt) (hfresh : (endingWatch prediction_id).acts stmt = true → fresh = true) :
    EndedOnce prediction_id (db.exec stmt) := by
  by_cases hs : stmt.savesEnding prediction_id = true
  · -- A save acts on a fresh reading, so the tables still have no Predictionend of the prediction.
    cases stmt with
    | insertPredictionend row =>
      have hrow : row.prediction_id = prediction_id := by simpa [Stmt.savesEnding] using hs
      obtain ⟨hinactive, hunended⟩ := hmay hrow
      obtain ⟨hlt, hoff⟩ := hk.inactive hinactive
      have hnil := hk.unended hunended (hfresh hs)
      refine ⟨h.keyed.exec _, fun _ => hlt, fun p hp hid ha => ?_, ?_⟩
      · rw [hoff p hp hid] at ha; cases ha
      · rw [endings_insert, hnil, if_pos hrow]; exact le_refl _
    | _ => cases hs
  · have hs : stmt.savesEnding prediction_id = false := by simpa using hs
    refine ⟨h.keyed.exec _, fun hne => ?_, fun p hp hid ha => ?_, (endings_length_le hs).trans h.one⟩
    · refine lt_of_lt_of_le (h.owned fun hnil => hne (endings_stay_nil hs hnil)) prediction_seq_le
    · refine endings_stay_nil hs ?_
      rcases prediction_before hmay hp with ⟨q, hq, hqid, hqa⟩ | hnew
      · exact h.unended q hq (hqid.trans hid) (hqa ha)
      · -- No Predictionend can belong to a prediction that was not there.
        by_contra hne
        have := h.owned hne
        omega

/-- What was true stays true, freshness apart. -/
theorem Findings.Hold.exec (hk : k.Hold prediction_id fresh db) {k' : Findings} (hmay : k'.may prediction_id stmt) :
    k.Hold prediction_id (!stmt.savesEnding prediction_id && fresh) (db.exec stmt) := by
  refine ⟨fun hc => lt_of_lt_of_le (hk.created hc) prediction_seq_le, fun hi => ?_, fun hu hf => ?_, fun id hid => ?_⟩
  · obtain ⟨hlt, hoff⟩ := hk.inactive hi
    refine ⟨lt_of_lt_of_le hlt prediction_seq_le, fun p hp hpid => ?_⟩
    rcases prediction_before hmay hp with ⟨q, hq, hqid, hqa⟩ | hnew
    · by_contra ha
      have := hoff q hq (hqid.trans hpid)
      rw [hqa (by simpa using ha)] at this
      cases this
    · omega
  · simp only [Bool.and_eq_true, Bool.not_eq_true'] at hf
    exact endings_stay_nil hf.1 (hk.unended hu hf.2)
  · obtain ⟨hlt, hne⟩ := hk.foreign id hid
    refine ⟨lt_of_lt_of_le hlt predictionend_seq_le, fun e he heid => ?_⟩
    rcases predictionend_before he with ⟨f, hf, hfid, hfp⟩ | hnew
    · rw [← hfp]; exact hne f hf (hfid.trans heid)
    · omega

theorem hold_read (hk : k.Hold prediction_id fresh db) (h : EndedOnce prediction_id db) {found : Option Prediction}
    (hfound : ∀ p, found = some p → p ∈ db.predictions ∧ p.id = prediction_id) (fresh' : Bool) :
    (k.read found).Hold prediction_id fresh' db := by
  have hlt : ∀ p, found = some p → prediction_id < db.prediction_seq := by
    intro p hp
    obtain ⟨hmem, hid⟩ := hfound p hp
    exact hid ▸ h.keyed.prediction_lt p hmem
  refine ⟨fun hc => ?_, fun hi => ?_, fun ⟨p, hp, ha⟩ _ => ?_, hk.foreign⟩
  · rcases hc with hc | hc
    · exact hk.created hc
    · obtain ⟨p, hp⟩ := Option.isSome_iff_exists.1 hc
      exact hlt p hp
  · rcases hi with hi | ⟨p, hp, ha⟩
    · exact hk.inactive hi
    · obtain ⟨hmem, hid⟩ := hfound p hp
      refine ⟨hlt p hp, fun q hq hqid => ?_⟩
      rw [h.keyed.prediction_ext hq hmem (hqid.trans hid.symm)]
      exact ha
  · obtain ⟨hmem, hid⟩ := hfound p hp
    exact h.unended p hmem hid ha

theorem hold_meet (hk : k.Hold prediction_id fresh db) {other : Nat → Prop}
    (hother : ∀ id, other id → id < db.predictionend_seq ∧
      ∀ e ∈ db.predictionends, e.id = id → e.prediction_id ≠ prediction_id) :
    (k.meet other).Hold prediction_id fresh db :=
  ⟨hk.created, hk.inactive, hk.unended, fun id hid => hid.elim (hk.foreign id) (hother id)⟩

theorem predictionendOf_found {id : Nat} {e : Predictionend} (h : db.predictionendOf id = some e) :
    e ∈ db.predictionends ∧ e.prediction_id = id := by
  have := List.mem_of_getLast? h
  simpa [Db.endings] using this

/-- What a reading teaches is true. -/
theorem hold_select (hk : k.Hold prediction_id fresh db) (h : EndedOnce prediction_id db) (query : Query) :
    (k.learn prediction_id (.select query) db).Hold prediction_id
      ((endingWatch prediction_id).checks (.select query) || fresh) db := by
  cases query with
  | prediction id =>
    by_cases hid : id = prediction_id
    · simp only [Findings.learn, if_pos hid]
      exact hold_read hk h (fun p hp => hid ▸ prediction_found hp) _
    · simpa [Findings.learn, endingWatch, hid] using hk
  | activePredictions =>
    refine hold_read hk h (fun p hp => ⟨?_, by simpa using List.find?_some hp⟩) _
    exact (mem_activePredictions.1 (List.mem_of_find?_eq_some hp)).1
  | activePrediction user_id stock_id =>
    refine hold_read hk h (fun p hp => ?_) _
    obtain ⟨hfound, hid⟩ := Option.filter_eq_some_iff.1 hp
    exact ⟨(activePrediction_found hfound).1, by simpa using hid⟩
  | predictionendExists id =>
    by_cases hid : id = prediction_id
    · simp only [Findings.learn, if_pos hid]
      exact ⟨hk.created, hk.inactive, fun hnone _ => endings_nil (hid ▸ hnone), hk.foreign⟩
    · simpa [Findings.learn, endingWatch, hid] using hk
  | predictionendOf id =>
    by_cases hid : id = prediction_id
    · simpa [Findings.learn, endingWatch, hid] using hk
    · simp only [Findings.learn, if_neg hid]
      refine hold_meet (by simpa [endingWatch] using hk) ?_
      rintro n ⟨e, he, rfl⟩
      obtain ⟨hmem, hof⟩ := predictionendOf_found he
      refine ⟨h.keyed.predictionend_lt e hmem, fun f hf hfid => ?_⟩
      rw [h.keyed.predictionend_ext hf hmem hfid, hof]
      exact hid
  | _ => exact hk

/-- What a statement teaches is true of the tables it leaves. -/
theorem Findings.Hold.learn (hk : k.Hold prediction_id fresh db) (h : EndedOnce prediction_id db)
    (hmay : k.may prediction_id stmt) :
    (k.learn prediction_id stmt db).Hold prediction_id
      (!stmt.savesEnding prediction_id && ((endingWatch prediction_id).checks stmt || fresh)) (db.exec stmt) := by
  have hkept := hk.exec hmay
  cases stmt with
  | select query => exact hold_select hk h query
  | updatePrediction id changes =>
    simp only [Findings.learn]
    split
    · next hoff =>
      obtain ⟨rfl, hoff⟩ := hoff
      refine ⟨hkept.created, fun hi => ?_, hkept.unended, hkept.foreign⟩
      rcases hi with hi | hc
      · exact hkept.inactive hi
      · refine ⟨hk.created hc, fun p hp hid => ?_⟩
        obtain ⟨q, -, rfl⟩ := List.mem_map.1 hp
        rw [updated_key Prediction.id changes.set (fun _ => rfl)] at hid
        rw [if_pos hid, PredictionChanges.set, hoff]
        rfl
    · exact hkept
  | insertPredictionend row =>
    by_cases hrow : row.prediction_id = prediction_id
    · simpa [Findings.learn, endingWatch, hrow] using hkept
    · simp only [Findings.learn, if_neg hrow]
      refine hold_meet (by simpa [endingWatch] using hkept) ?_
      rintro _ rfl
      refine ⟨Nat.lt_succ_self _, fun e he hid => ?_⟩
      rcases mem_inserted he with he | rfl
      · exact absurd hid (h.keyed.predictionend_lt e he).ne
      · exact hrow
  | _ => exact hkept

/-- A party ends the prediction only on what it found out. -/
def endingDiscipline (prediction_id : Nat) : Discipline Db.exec (endingWatch prediction_id) Findings where
  inv := EndedOnce prediction_id
  learn k stmt db := k.learn prediction_id stmt db
  may k := k.may prediction_id
  sound fresh k db := k.Hold prediction_id fresh db
  keep h hk hmay hfresh := h.exec hk hmay hfresh
  own h hk hmay _ := hk.learn h hmay
  other _ _ hmay _ hk' := hk'.exec hmay

end Exec

/-! ## The programs -/

/-- Nothing known is lost. -/
structure Findings.Grows (k k' : Findings) : Prop where
  created : k.created → k'.created
  inactive : k.inactive → k'.inactive
  unended : k.unended → k'.unended
  foreign : ∀ id, k.foreign id → k'.foreign id

theorem Findings.Grows.rfl {k : Findings} : k.Grows k := ⟨id, id, id, fun _ h => h⟩

theorem Findings.Grows.trans {k₁ k₂ k₃ : Findings} (h : k₁.Grows k₂) (h' : k₂.Grows k₃) : k₁.Grows k₃ :=
  ⟨h'.created ∘ h.created, h'.inactive ∘ h.inactive, h'.unended ∘ h.unended,
    fun id hid => h'.foreign id (h.foreign id hid)⟩

/-- What must be known to end the prediction of an object. -/
structure Held (prediction_id : Nat) (r : Record) (k : Findings) : Prop where
  own : r.row.id = prediction_id → k.created ∧ k.unended ∧ (r.row.active = false → k.inactive)
  other : r.row.id ≠ prediction_id → ∀ e, r.predictionend = some e → k.foreign e.id

section Programs
variable {prediction_id : Nat} {k k' : Findings} {self : Record} {α : Type}

theorem Held.grow (h : Held prediction_id self k) (hg : k.Grows k') : Held prediction_id self k' := by
  refine ⟨fun hid => ?_, fun hid e he => hg.foreign _ (h.other hid e he)⟩
  obtain ⟨hc, hu, hi⟩ := h.own hid
  exact ⟨hg.created hc, hg.unended hu, fun ha => hg.inactive (hi ha)⟩

theorem Held.of_keeps (h : Held prediction_id self k) {a : Record} (hk : Keeps self a) : Held prediction_id a k := by
  obtain ⟨hrow, hend, -⟩ := hk
  exact ⟨by rw [hrow]; exact h.own, by rw [hrow, hend]; exact h.other⟩

/-- The object is held still, and nothing was forgotten since `k`. -/
def HeldSince (prediction_id : Nat) (k k' : Findings) (self : Record) : Prop := k.Grows k' ∧ Held prediction_id self k'

theorem HeldSince.trans {k'' : Findings} {a : Record} (h : k.Grows k') (h' : HeldSince prediction_id k' k'' a) :
    HeldSince prediction_id k k'' a := ⟨h.trans h'.1, h'.2⟩

theorem Stmt.Quiet.silent_ending {stmt : Stmt} (h : stmt.Quiet) : (endingDiscipline prediction_id).Silent stmt := by
  intro k
  cases stmt with
  | select query => cases query <;> first | exact ⟨trivial, fun _ => rfl⟩ | exact h.elim
  | updatePrediction id changes => exact h.elim
  | insertPredictionend row => exact h.elim
  | destroyPredictionend id predictionend_id => exact h.elim
  | _ => exact ⟨trivial, fun _ => rfl⟩

theorem Quietly.silent_ending {p : Request α} (h : Quietly p) : p.Only (endingDiscipline prediction_id).Silent :=
  h.mono fun _ => Stmt.Quiet.silent_ending

theorem Quietly.allows_ending {p : Request α} (h : Quietly p) :
    (endingDiscipline prediction_id).Allows k p fun _ _ => True := .silent h.silent_ending fun _ => trivial

theorem grows_update (id : Nat) (changes : PredictionChanges) (db : Db) :
    k.Grows (k.learn prediction_id (.updatePrediction id changes) db) := by
  simp only [Findings.learn]
  split
  · exact ⟨fun h => h, .inl, fun h => h, fun _ h => h⟩
  · exact .rfl

theorem allows_update {assigned : PredictionChanges} (ha : assigned.active ≠ some true)
    (h : Held prediction_id self k) :
    (endingDiscipline prediction_id).Allows k (self.update assigned)
      fun k' self' => HeldSince prediction_id k k' self' ∧ self'.row = assigned.set self.row := by
  refine .bind (.silent_ends (Quietly.silent_ending (mild_loadStock _ _).quiet) (loadStock_keeps _ _)
    fun ⟨loaded, stock⟩ hkeeps => ?_)
  dsimp only at hkeeps ⊢
  have hrow := hkeeps.1
  refine .exec_bind (fun hd => ha (dirty_some hd)) fun db _ => ?_
  refine .silent_bind (Quietly.silent_ending (mild_updateStockPredictionCount _).quiet) fun stock => ?_
  have hset : (assigned.dirty self.row).set loaded.row = assigned.set self.row := by
    rw [hrow, PredictionChanges.set_dirty]
  have hgrows : k.Grows (k.learn prediction_id (.updatePrediction loaded.row.id (assigned.dirty self.row)) db) :=
    grows_update _ _ _
  refine ⟨⟨hgrows, ?_⟩, hset⟩
  have hheld := (h.of_keeps hkeeps).grow hgrows
  refine ⟨fun hid => ?_, hheld.other⟩
  obtain ⟨hc, hu, hi⟩ := hheld.own hid
  refine ⟨hc, hu, fun hoff => ?_⟩
  dsimp only at hoff
  rw [hset] at hoff
  have hoff : assigned.active.getD self.row.active = false := hoff
  -- Either the row was inactive in memory already, or it is being deactivated.
  cases hrowa : self.row.active with
  | false => exact hi (by rw [hrow, hrowa])
  | true =>
    cases haa : assigned.active with
    | none => rw [haa, hrowa] at hoff; cases hoff
    | some a =>
      rw [haa] at hoff
      have hchanges : (assigned.dirty self.row).active = some false := by
        simp [PredictionChanges.dirty, dirty, haa, hrowa, show a = false from hoff]
      have hlearn : loaded.row.id = prediction_id ∧ (assigned.dirty self.row).active = some false := ⟨hid, hchanges⟩
      show Findings.inactive (if _ then _ else _)
      rw [if_pos hlearn]
      exact .inr ((h.of_keeps hkeeps).own hid).1

theorem allows_buildPredictionend (h : Held prediction_id self k) :
    (endingDiscipline prediction_id).Allows k self.buildPredictionend fun k' _ => k.Grows k' := by
  unfold Record.buildPredictionend Record.loadPredictionend
  cases he : self.predictionend with
  | some e =>
    refine ⟨?_, fun _ _ => .rfl⟩
    show if self.row.id = prediction_id then k.unended else k.foreign e.id
    split
    · next hid => exact (h.own hid).2.1
    · next hid => exact h.other hid e he
  | none =>
    refine ⟨trivial, fun db _ => ?_⟩
    have hgrows : k.Grows (k.learn prediction_id (.select (.predictionendOf self.row.id)) db) := by
      simp only [Findings.learn]
      split
      · exact .rfl
      · exact ⟨fun h => h, fun h => h, fun h => h, fun _ => .inl⟩
    dsimp only
    cases hof : db.predictionendOf self.row.id with
    | none => exact hgrows
    | some e =>
      refine ⟨?_, fun _ _ => hgrows⟩
      show if self.row.id = prediction_id then _ else Findings.foreign (if _ then _ else _) e.id
      split
      · next hid => exact hgrows.unended (h.own hid).2.1
      · exact .inr ⟨e, hof, rfl⟩

theorem allows_endAt (h : Held prediction_id self k) (actual_end_time : Time) (actual_end_price : Option Rat) :
    (endingDiscipline prediction_id).Allows k (self.endAt actual_end_time actual_end_price)
      (HeldSince prediction_id k) := by
  refine .bind ((allows_update (by simp) h).mono fun k₁ self₁ ⟨⟨hg₁, h₁⟩, hrow⟩ => ?_)
  refine .bind ((allows_buildPredictionend h₁).mono fun k₂ _ hg₂ => ?_)
  -- Deactivated first, the prediction is known to be inactive when the row is saved.
  have hoff : self₁.row.active = false := by rw [hrow]; rfl
  have h₂ := h₁.grow hg₂
  refine .query_bind (fun hid => ?_) fun db _ => ?_
  · obtain ⟨-, hu, hi⟩ := h₂.own hid
    exact ⟨hi hoff, hu⟩
  · refine .silent_ends (Quietly.silent_ending (mild_announce _ _).quiet) (announce_keeps _ _) fun a hkeeps => ?_
    -- The new row is remembered as foreign if it is another prediction's.
    by_cases hid : self₁.row.id = prediction_id
    · refine ⟨hg₁.trans (hg₂.trans ?_), Held.of_keeps ?_ hkeeps⟩
      · show k₂.Grows (if _ then _ else _)
        rw [if_pos hid]
        exact .rfl
      · show Held prediction_id _ (if _ then _ else _)
        rw [if_pos hid]
        exact ⟨h₂.own, fun hne => absurd hid hne⟩
    · have hgrows : k₂.Grows (k₂.meet (· = db.predictionend_seq)) := ⟨fun h => h, fun h => h, fun h => h, fun _ => .inl⟩
      refine ⟨hg₁.trans (hg₂.trans ?_), Held.of_keeps ?_ hkeeps⟩
      · show k₂.Grows (if _ then _ else _)
        rw [if_neg hid]
        exact hgrows
      · show Held prediction_id _ (if _ then _ else _)
        rw [if_neg hid]
        refine ⟨fun hid' => absurd hid' hid, fun _ e he => ?_⟩
        cases he
        exact .inr rfl

theorem Held.since (h : Held prediction_id self k) : HeldSince prediction_id k k self := ⟨.rfl, h⟩

theorem allows_scan (h : Held prediction_id self k) (prices : List Intradayprice) :
    (endingDiscipline prediction_id).Allows k (self.scan prices) (HeldSince prediction_id k) := by
  induction prices with
  | nil => exact h.since
  | cons price prices ih =>
    unfold Record.scan
    split
    · trivial
    · split
      · exact allows_endAt h _ _
      · exact ih

theorem allows_exceedsEndPrice (h : Held prediction_id self k) :
    (endingDiscipline prediction_id).Allows k self.exceedsEndPrice (HeldSince prediction_id k) := by
  refine .silent_bind (Quietly.silent_ending (quiet_select trivial)) fun found => ?_
  cases found with
  | none => trivial
  | some stock =>
    exact .silent_bind (Quietly.silent_ending (quiet_select trivial)) fun prices => allows_scan h prices

theorem allows_exceedsEndTime (h : Held prediction_id self k) :
    (endingDiscipline prediction_id).Allows k self.exceedsEndTime (HeldSince prediction_id k) := by
  refine .bind (.silent_ends (Quietly.silent_ending (mild_loadStock _ _).quiet) (loadStock_keeps _ _)
    fun ⟨loaded, stock⟩ hkeeps => ?_)
  refine .silent_bind (only_orNil _ _) fun date => ?_
  dsimp only at hkeeps ⊢
  split
  · exact allows_endAt (h.of_keeps hkeeps) _ _
  · exact (h.of_keeps hkeeps).since

theorem allows_updateScore (h : Held prediction_id self k) :
    (endingDiscipline prediction_id).Allows k self.updateScore (HeldSince prediction_id k) := by
  refine .silent_bind (only_percent _ _) fun prediction_percentage => ?_
  refine .bind (.silent_ends (Quietly.silent_ending (mild_loadStock _ _).quiet) (loadStock_keeps _ _)
    fun ⟨loaded, stock⟩ hkeeps => ?_)
  refine .silent_bind (only_percent _ _) fun actual_percentage => ?_
  exact (allows_update (by simp) (h.of_keeps hkeeps)).mono fun _ _ hpost => hpost.1

theorem allows_bringUpToDate (h : Held prediction_id self k) :
    (endingDiscipline prediction_id).Allows k self.bringUpToDate (HeldSince prediction_id k) := by
  refine .bind ((allows_exceedsEndPrice h).mono fun k₁ self₁ ⟨hg₁, h₁⟩ => ?_)
  refine .bind ((allows_exceedsEndTime h₁).mono fun k₂ self₂ ⟨hg₂, h₂⟩ => ?_)
  exact (allows_updateScore h₂).mono fun k₃ self₃ hpost => HeldSince.trans (hg₁.trans hg₂) hpost

/-- An active row that was just read. -/
theorem held_read {row : Prediction} {found : Option Prediction} {stock : Option Stock} (ha : row.active = true)
    (hfound : row.id = prediction_id → found = some row) :
    Held prediction_id { row := row, stock := stock } (k.read found) := by
  refine ⟨fun hid => ?_, fun _ e he => by cases he⟩
  have hrow := hfound hid
  refine ⟨.inr (by rw [hrow]; rfl), ⟨row, hrow, ha⟩, fun hoff => ?_⟩
  rw [ha] at hoff
  cases hoff

/-- The pass brings every prediction of its list up to date on one reading of all. -/
theorem allows_predictionEnd : (endingDiscipline prediction_id).Allows k predictionEnd fun _ _ => True := by
  refine .query_bind trivial fun db hdb => ?_
  -- The findings of the reading last through the loop.
  refine (Discipline.Allows.each (I := fun k' =>
    (k.read (db.activePredictions.find? (·.id = prediction_id))).Grows k') _ (fun row hrow k' hk' => ?_) .rfl).mono
    fun _ _ _ => trivial
  have ha : row.active = true := (mem_activePredictions.1 hrow).2
  have hheld : Held prediction_id { row := row } k' := by
    refine Held.grow (held_read ha fun hid => ?_) hk'
    subst hid
    have hkeys : UniqueKeys Prediction.id db.activePredictions :=
      List.pairwise_reverse.2 ((hdb.keyed.prediction_inj.filter _).imp fun hne => hne.symm)
    exact hkeys.lookup_eq hrow
  exact .bind ((allows_bringUpToDate hheld).mono fun _ _ hpost => hk'.trans hpost.1)

theorem allows_redirectNonUser {session : Option Nat} {action : User → Request Reply}
    (h : ∀ user, (endingDiscipline prediction_id).Allows k (action user) fun _ _ => True) :
    (endingDiscipline prediction_id).Allows k (redirectNonUser session action) fun _ _ => True := by
  refine .silent_bind (Quietly.silent_ending (mild_currentUser _).quiet) fun current_user => ?_
  cases current_user with
  | none => trivial
  | some user => exact h user

theorem allows_orNil_bind {β : Type} {a : Option α} {method : String} {f : α → Request β} {Q : Findings → β → Prop}
    (h : ∀ b, a = some b → (endingDiscipline prediction_id).Allows k (f b) Q) :
    (endingDiscipline prediction_id).Allows k ((orNil a method).bind f) Q := by
  cases a with
  | none => trivial
  | some b => exact h b rfl

theorem allows_showPrediction (session : Option Nat) (id : Nat) :
    (endingDiscipline prediction_id).Allows k (PredictionsController.show session id) fun _ _ => True := by
  refine allows_redirectNonUser fun user => .query_bind trivial fun db hdb => ?_
  refine allows_orNil_bind fun row hrow => .silent_bind (Quietly.silent_ending (quiet_select trivial)) fun stock => ?_
  refine .seq (R := fun _ _ => True) ?_ fun _ _ => .silent_bind (only_orNil _ _) fun _ => trivial
  unfold showPrediction
  split
  · next ha =>
    refine .seq (allows_bringUpToDate ?_) fun _ _ => trivial
    by_cases hid : id = prediction_id
    · show Held _ _ (if _ then _ else _)
      rw [if_pos hid]
      exact held_read ha fun _ => hrow
    · refine ⟨fun hrowid => absurd ((prediction_found hrow).2.symm.trans hrowid) hid, fun _ e he => by cases he⟩
  · trivial

theorem allows_showStock (session : Option Nat) (ticker_symbol : String) (feed : List Intradayprice) :
    (endingDiscipline prediction_id).Allows k (StocksController.show session ticker_symbol feed) fun _ _ => True := by
  refine allows_redirectNonUser fun user => .silent_bind (Quietly.silent_ending (quiet_select trivial)) fun found => ?_
  refine .silent_bind (only_orNil _ _) fun stock => ?_
  refine .silent_bind (Quietly.silent_ending (quiet_viewStock _ _)) fun _ => ?_
  refine .seq (R := fun _ _ => True) (.query_bind trivial fun db hdb => ?_) fun _ _ => trivial
  split
  · refine .query_bind trivial fun db hdb => allows_orNil_bind fun row hrow => ?_
    have ha : row.active = true := (activePrediction_found hrow).2
    refine .bind ((allows_bringUpToDate (held_read ha fun hid => ?_)).mono fun _ self hpost => ?_)
    · rw [hrow]
      simp [Option.filter, hid]
    · exact (allows_buildPredictionend hpost.2).mono fun _ _ _ => trivial
  · trivial

theorem allows_endByHand (h : Held prediction_id self k) (stock : Stock) (current_user : User) (now : Time)
    (content : Option String) :
    (endingDiscipline prediction_id).Allows k (endByHand self stock current_user now content) fun _ _ => True := by
  refine .bind ((allows_update (by simp) h).mono fun k₁ self₁ ⟨⟨_, h₁⟩, hrow⟩ => ?_)
  refine .bind ((allows_buildPredictionend h₁).mono fun k₂ _ hg₂ => ?_)
  refine .silent_bind (only_orNil _ _) fun actual_end_time => ?_
  refine .query_bind (fun hid => ?_) fun db _ => ?_
  · obtain ⟨-, hu, hi⟩ := (h₁.grow hg₂).own hid
    exact ⟨hi (by rw [hrow]; rfl), hu⟩
  · refine Quietly.allows_ending ?_
    exact .bind (quiet_write trivial) fun _ => .bind (mild_addTags _ _ _ _).quiet fun _ =>
      .bind (mild_streamCreate! _).quiet fun _ => .bind (mild_streamCreate! _).quiet fun _ => (mild_targetTags _ _).quiet

theorem allows_closePrediction {row : Prediction} (h : Held prediction_id { row := row } k) (now : Time)
    (session : Option Nat) (content : Option String) :
    (endingDiscipline prediction_id).Allows k (closePrediction row now session content) fun _ _ => True := by
  refine .silent_bind (Quietly.silent_ending (mild_currentUser _).quiet) fun found =>
    .silent_bind (only_orNil _ _) fun user => ?_
  refine .bind (.silent_ends (Quietly.silent_ending (mild_loadStock _ _).quiet) (loadStock_keeps _ _)
    fun ⟨loaded, stock⟩ hkeeps => ?_)
  refine .silent_bind (Quietly.silent_ending (mild_startedOrChildren _ _).quiet) fun ended => ?_
  cases ended with
  | true =>
    exact .seq (allows_endByHand (h.of_keeps hkeeps) stock user now content) fun _ _ => trivial
  | false =>
    refine .seq (R := fun _ _ => True) (.seq (allows_buildPredictionend (h.of_keeps hkeeps)) fun _ _ => ?_) fun _ _ =>
      trivial
    exact ⟨trivial, fun _ _ => trivial⟩

theorem allows_createPredictionend (now : Time) (session : Option Nat) (id : Nat) (content : Option String) :
    (endingDiscipline prediction_id).Allows k (PredictionendsController.create now session id content)
      fun _ _ => True := by
  refine .query_bind trivial fun _ _ => ?_
  split
  · refine .query_bind trivial fun db hdb => allows_orNil_bind fun row hrow => .query_bind trivial fun db' hdb' => ?_
    split
    · trivial
    · -- The row was read first, then found without a Predictionend.
      next hnone =>
      have hid := (prediction_found hrow).2
      refine allows_closePrediction ⟨fun hrowid => ?_, fun _ e he => by cases he⟩ now session content
      have hnone : db'.predictionendOf row.id = none := by simpa using hnone
      show Findings.created (if _ then _ else _) ∧ Findings.unended (if _ then _ else _) ∧
        (_ → Findings.inactive (if _ then _ else _))
      rw [if_pos hrowid]
      show Findings.created (if _ then _ else _) ∧ _ ∧ (_ → Findings.inactive (if _ then _ else _))
      rw [if_pos (hid.symm.trans hrowid)]
      exact ⟨.inr (by rw [hrow]; rfl), hnone, fun hoff => .inr ⟨row, hrow, hoff⟩⟩
  · trivial

theorem job_allowed_ending (parse : String → Option Int) (job : Job) :
    (endingDiscipline prediction_id).Allows k (job.request parse) fun _ _ => True := by
  have hmild : ∀ stmt : Stmt, stmt.Mild → ∀ k, (endingDiscipline prediction_id).may k stmt :=
    fun stmt hs k => (hs.1.silent_ending k).1
  have hkept : ∀ id (changes : PredictionChanges), changes.active = none →
      ∀ k, (endingDiscipline prediction_id).may k (.updatePrediction id changes) :=
    fun id changes ha k => changes.ne_activate ha
  cases job with
  | createPrediction now session params =>
    exact .free (only_unanswered (only_createPrediction parse now session params hmild (fun _ _ => trivial)
      fun _ _ _ _ => trivial))
  | showPrediction session id => exact .seq (allows_showPrediction session id) fun _ _ => trivial
  | showStock session ticker_symbol feed =>
    exact .seq (allows_showStock session ticker_symbol feed) fun _ _ => trivial
  | createPredictionend now session id content =>
    exact .seq (allows_createPredictionend now session id content) fun _ _ => trivial
  | predictionEnd => exact allows_predictionEnd
  | verifyStart id minute_array =>
    exact .free (only_verifyStart id minute_array hmild (fun _ _ => trivial) hkept)
  | verifyEnd id now minute_array =>
    exact .free (only_verifyEnd id now minute_array hmild (fun _ _ => trivial)
      (fun id changes ha _ => hkept id changes ha) fun _ _ _ => trivial)
  | googleIntraday ticker_symbol feed => exact (mild_googleIntraday ticker_symbol feed).quiet.allows_ending

end Programs

/-! ## Interleaved endings -/

/-- The end worker's update of a Predictionend. -/
def Stmt.verifiesEnd : Stmt → Bool
  | .updatePredictionend _ _ => true
  | _ => false

section
variable {prediction_id : Nat} {db : Db} {fresh : Bool} {k : Findings} {stmt : Stmt}

/-- On true findings, only a verification touches the Predictionend. -/
theorem ending_stays (hk : k.Hold prediction_id fresh db) (hmay : k.may prediction_id stmt)
    (hfresh : (endingWatch prediction_id).acts stmt = true → fresh = true) (hv : stmt.verifiesEnd = false)
    {e : Predictionend} (he : e ∈ db.endings prediction_id) : e ∈ (db.exec stmt).endings prediction_id := by
  cases stmt with
  | insertPredictionend row => rw [endings_insert]; exact List.mem_append_left _ he
  | updatePredictionend id changes => cases hv
  | destroyPredictionend id predictionend_id =>
    rw [endings_destroy]
    refine List.mem_filter.2 ⟨he, decide_eq_true fun hid => ?_⟩
    have hmay : if id = prediction_id then k.unended else k.foreign predictionend_id := hmay
    split at hmay
    · next hown =>
      rw [hk.unended hmay (hfresh (by simpa [endingWatch] using hown))] at he
      simp at he
    · obtain ⟨hmem, hof⟩ := List.mem_filter.1 he
      exact (hk.foreign _ hmay).2 e hmem hid (by simpa using hof)
  | _ => exact he

/-- A verification keeps the row's id and its closing comment. -/
theorem ending_survives (hk : k.Hold prediction_id fresh db) (hmay : k.may prediction_id stmt)
    (hfresh : (endingWatch prediction_id).acts stmt = true → fresh = true) {e : Predictionend}
    (he : e ∈ db.endings prediction_id) :
    ∃ f ∈ (db.exec stmt).endings prediction_id, f.id = e.id ∧ f.content = e.content := by
  by_cases hv : stmt.verifiesEnd = true
  · cases stmt with
    | updatePredictionend id changes =>
      obtain ⟨hmem, hof⟩ := List.mem_filter.1 he
      refine ⟨if e.id = id then changes.set e else e, List.mem_filter.2 ⟨List.mem_map.2 ⟨e, hmem, rfl⟩, ?_⟩, ?_⟩
      · split <;> exact hof
      · split <;> exact ⟨rfl, rfl⟩
    | _ => cases hv
  · exact ⟨e, ending_stays hk hmay hfresh (by simpa using hv) he, rfl, rfl⟩

end

/-- No other job issues such an update. -/
theorem only_worker_verifies (parse : String → Option Int) (job : Job)
    (h : ∀ predictionend_id now minute_array, job ≠ .verifyEnd predictionend_id now minute_array) :
    (job.request parse).Only fun stmt => stmt.verifiesEnd = false := by
  have hregular : ∀ stmt : Stmt, stmt.Regular → stmt.verifiesEnd = false := by
    intro stmt hs
    cases stmt with
    | updatePredictionend id changes => exact hs.elim
    | _ => rfl
  have hmild : ∀ stmt : Stmt, stmt.Mild → stmt.verifiesEnd = false := fun stmt hs => hregular stmt hs.1.plain.regular
  cases job with
  | createPrediction now session params =>
    exact only_unanswered (only_createPrediction parse now session params hmild (fun _ => rfl) fun _ _ _ => rfl)
  | showPrediction session id => exact (only_unanswered (gentle_showPrediction session id).plain.regular).mono hregular
  | showStock session ticker_symbol feed =>
    exact (only_unanswered (plain_showStock session ticker_symbol feed).regular).mono hregular
  | createPredictionend now session id content =>
    exact (only_unanswered (tame_createPredictionend now session id content).plain.regular).mono hregular
  | predictionEnd => exact gentle_predictionEnd.plain.regular.mono hregular
  | verifyStart id minute_array => exact only_verifyStart id minute_array hmild (fun _ => rfl) fun _ _ _ => rfl
  | verifyEnd id now minute_array => exact absurd rfl (h id now minute_array)
  | googleIntraday ticker_symbol feed => exact (mild_googleIntraday ticker_symbol feed).mono hmild

/-- Whatever the requests and jobs and their order, if each party saves and
destroys a Predictionend of a prediction on a reading of it that no other save
has overtaken, then at most one is there, it stays with its closing comment, and
nothing else of it changes but in a verification, which only the worker makes. -/
theorem ending_kept (parse : String → Option Int) (prediction_id : Nat) {init : Db} (hp : init.predictions = [])
    (he : init.predictionends = []) {c : Config Stmt Db Error}
    (h : Reach Db.exec (endingWatch prediction_id) (Requested parse) (Fresh (endingWatch prediction_id))
      (.idle init) c) :
    (c.store.endings prediction_id).length ≤ 1 ∧
    (∀ e ∈ c.store.endings prediction_id,
      (∀ d, Reach Db.exec (endingWatch prediction_id) (Requested parse) (Fresh (endingWatch prediction_id)) c d →
        ∃ f ∈ d.store.endings prediction_id, f.id = e.id ∧ f.content = e.content) ∧
      (∀ d, Reach Db.exec (endingWatch prediction_id) (Requested parse)
          (fun seen version stmt => Fresh (endingWatch prediction_id) seen version stmt ∧ stmt.verifiesEnd = false)
          c d →
        e ∈ d.store.endings prediction_id)) ∧
    ∀ job : Job, (∀ predictionend_id now minute_array, job ≠ .verifyEnd predictionend_id now minute_array) →
      (job.request parse).Only fun stmt => stmt.verifiesEnd = false := by
  have hadm : ∀ p, Requested parse p → ∃ k, (∀ fresh db, EndedOnce prediction_id db →
      Findings.Hold prediction_id fresh k db) ∧ (endingDiscipline prediction_id).Allows k p fun _ _ => True := by
    rintro _ ⟨job, rfl⟩
    exact ⟨⟨False, False, False, fun _ => False⟩, fun _ _ _ => ⟨False.elim, False.elim, fun h => h.elim,
      fun _ h => h.elim⟩, job_allowed_ending parse job⟩
  have h0 : EndedOnce prediction_id init := by
    refine ⟨⟨by simp [hp], by simp [hp], by simp [he], by simp [he]⟩, ?_, by simp [hp], ?_⟩ <;> simp [Db.endings, he]
  have hc : c.Sound (endingDiscipline prediction_id) :=
    h.disciplined (endingDiscipline prediction_id) hadm (sound_idle _ h0) fun _ _ _ hf => hf
  refine ⟨hc.1.one, fun e hmem => ⟨fun d hd => ?_, fun d hd => ?_⟩, only_worker_verifies parse⟩
  · refine hd.kept (endingDiscipline prediction_id) hadm hc (fun _ _ _ hf => hf)
      (J := fun db => ∃ f ∈ db.endings prediction_id, f.id = e.id ∧ f.content = e.content) ?_ ⟨e, hmem, rfl, rfl⟩
    rintro db k stmt seen version - hk hmay hf ⟨f, hf', hid, hcontent⟩
    obtain ⟨g, hg, hgid, hgcontent⟩ := ending_survives hk hmay (fun ha => by simpa using hf ha) hf'
    exact ⟨g, hg, hgid.trans hid, hgcontent.trans hcontent⟩
  · refine hd.kept (endingDiscipline prediction_id) hadm hc (fun _ _ _ hf => hf.1)
      (J := fun db => e ∈ db.endings prediction_id) ?_ hmem
    intro db k stmt seen version _ hk hmay hf he
    exact ending_stays hk hmay (fun ha => by simpa using hf.1 ha) hf.2 he

/-- A prediction is created, a bar beyond it is stored, the pass runs, and the user ends it. -/
def parties : List (Request Unit) :=
  [mondayForm, .googleIntraday "ABC" [⟨"ABC", 1436194800 * 1000000000, 112⟩], .predictionEnd, giveUp].map
    (Job.request tuesdayAfternoon)

theorem parties_requested : ∀ p ∈ parties, Requested tuesdayAfternoon p := by
  intro p hp
  obtain ⟨job, -, rfl⟩ := List.mem_map.1 hp
  exact ⟨job, rfl⟩

/-- The user ends the prediction, and nothing else has read it. -/
def endedByHand : Config Stmt Db Error :=
  (started oneStock parties).turns Db.exec (endingWatch 1)
    (List.replicate 30 0 ++ List.replicate 20 1 ++ List.replicate 40 3)

/-- A pass that reads after the user's ending leaves it alone. -/
theorem ending_kept_by_later_pass : ∃ e ∈ endedByHand.store.endings 1,
    ∃ f ∈ (endedByHand.turns Db.exec (endingWatch 1) (List.replicate 40 2)).store.endings 1,
      f.id = e.id ∧ f.content = e.content := by
  have hrun : Reach Db.exec (endingWatch 1) (Requested tuesdayAfternoon) (Fresh (endingWatch 1)) (.idle oneStock)
      endedByHand := (reach_started oneStock parties_requested).turns_fresh (by decide)
  obtain ⟨-, hkept, -⟩ := ending_kept tuesdayAfternoon 1 rfl rfl hrun
  obtain ⟨e, he⟩ := List.exists_mem_of_length_pos (by decide : 0 < (endedByHand.store.endings 1).length)
  exact ⟨e, he, (hkept e he).1 _ (Reach.refl.turns_fresh (by decide))⟩

/-- The pass has read its list when the user ends the prediction. -/
def endedDuringPass : Config Stmt Db Error :=
  (started oneStock parties).turns Db.exec (endingWatch 1)
    (List.replicate 30 0 ++ List.replicate 20 1 ++ [2] ++ List.replicate 40 3)

/-- The pass then destroys the user's ending, comment and all, and saves its own. -/
theorem pass_destroys_ending :
    ¬∀ parse prediction_id init (c : Config Stmt Db Error), init.predictions = [] → init.predictionends = [] →
      Reach Db.exec (endingWatch prediction_id) (Requested parse) Anytime (.idle init) c →
      (c.store.endings prediction_id).length ≤ 1 ∧ ∀ e ∈ c.store.endings prediction_id,
        ∀ d, Reach Db.exec (endingWatch prediction_id) (Requested parse) Anytime c d →
          ∃ f ∈ d.store.endings prediction_id, f.id = e.id ∧ f.content = e.content := by
  intro h
  obtain ⟨-, hkept⟩ := h tuesdayAfternoon 1 oneStock endedDuringPass rfl rfl
    ((reach_started oneStock parties_requested).turns _)
  have hdone : endedDuringPass.store.endings 1 ≠ [] := by decide +kernel
  obtain ⟨e, he⟩ := List.exists_mem_of_ne_nil _ hdone
  obtain ⟨f, hf, hid, -⟩ := hkept e he _ (Reach.refl.turns (List.replicate 40 2))
  have hother : ∀ e ∈ endedDuringPass.store.endings 1,
      ∀ f ∈ (endedDuringPass.turns Db.exec (endingWatch 1) (List.replicate 40 2)).store.endings 1, f.id ≠ e.id := by
    decide +kernel
  exact hother e he f hf hid

end MyStockIQ
