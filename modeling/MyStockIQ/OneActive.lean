import MyStockIQ.Effects
/-!
# One active prediction per user and stock

`create` asks whether the user has an active prediction on the stock, and saves
later. Nothing in the schema keeps two requests from both asking first. The rule
holds in the runs where no other prediction of the user on the stock is saved
between the two.
-/

open SharedStore Prog

namespace MyStockIQ

/-- The active predictions of a user on a stock. -/
def Db.activeCount (db : Db) (user_id stock_id : Nat) : Nat :=
  db.predictions.countP fun p => p.active ∧ p.user_id = user_id ∧ p.stock_id = stock_id

section
variable (user_id stock_id : Nat)

/-- The save of a prediction of the user on the stock. -/
def Stmt.creates : Stmt → Bool
  | .insertPrediction row => row.user_id = user_id ∧ row.stock_id = stock_id
  | _ => false

/-- `active_prediction_exists?` is the check, the save acts on it, and another save spoils it. -/
def createWatch : Watch Stmt where
  checks
    | .select (.activePredictionExists u s) => u = user_id ∧ s = stock_id
    | _ => false
  acts := Stmt.creates user_id stock_id
  breaks := Stmt.creates user_id stock_id

/-- `l` saves a prediction of the user on the stock only if `k`, and activates nothing. -/
def MayCreate (k : Prop) : Stmt → Prop
  | .insertPrediction row => row.user_id = user_id ∧ row.stock_id = stock_id → k
  | .updatePrediction _ changes => changes.active ≠ some true
  | _ => True

theorem countP_append_singleton {α : Type} (p : α → Bool) (l : List α) (a : α) :
    (l ++ [a]).countP p = l.countP p + if p a then 1 else 0 := by
  rw [List.countP_append, List.countP_singleton]

/-- Only a save of the user on the stock raises the count. -/
theorem activeCount_exec {k : Prop} {db : Db} {stmt : Stmt} (hmay : MayCreate user_id stock_id k stmt)
    (hno : stmt.creates user_id stock_id = false) :
    (db.exec stmt).activeCount user_id stock_id ≤ db.activeCount user_id stock_id := by
  cases stmt with
  | insertPrediction row =>
    simp only [Db.activeCount, Db.exec, countP_append_singleton]
    have : ¬(row.user_id = user_id ∧ row.stock_id = stock_id) := by simpa [Stmt.creates] using hno
    simp [this]
  | updatePrediction id changes =>
    simp only [Db.activeCount, Db.exec, List.countP_map]
    refine List.countP_mono_left fun p _ hp => ?_
    simp only [Function.comp, decide_eq_true_eq] at hp ⊢
    by_cases hid : p.id = id
    · rw [if_pos hid] at hp
      exact ⟨changes.active_of_set hmay hp.1, hp.2⟩
    · rwa [if_neg hid] at hp
  | destroyPrediction id => exact (List.filter_sublist (p := fun p : Prediction => decide (p.id ≠ id))).countP_le
  | _ => exact le_refl _

/-- A save raises the count by at most one. -/
theorem activeCount_insert (db : Db) (row : Prediction) :
    (db.exec (.insertPrediction row)).activeCount user_id stock_id ≤ db.activeCount user_id stock_id + 1 := by
  simp only [Db.activeCount, Db.exec, countP_append_singleton]
  split <;> omega

/-- The check of `create` fails when an active prediction is there. -/
theorem activeCount_none {db : Db} (h : db.activePrediction user_id stock_id = none) :
    db.activeCount user_id stock_id = 0 := by
  rw [Db.activePrediction, List.find?_eq_none] at h
  refine List.countP_eq_zero.2 fun p hp => ?_
  simp only [decide_eq_true_eq, not_and]
  intro ha hu hs
  exact h p (mem_activePredictions.2 ⟨hp, ha⟩) (by simp [hu, hs])

/-- What a request knows: that the user has no active prediction on the stock. -/
def createDiscipline : Discipline Db.exec (createWatch user_id stock_id) Prop where
  inv db := db.activeCount user_id stock_id ≤ 1
  learn k
    | .select (.activePredictionExists u s), db =>
      if u = user_id ∧ s = stock_id then db.activePrediction u s = none else k
    | _, _ => k
  may := MayCreate user_id stock_id
  sound fresh k db := k → fresh = true → db.activeCount user_id stock_id = 0
  keep := by
    intro db k stmt fresh hinv hsound hmay hfresh
    cases hc : stmt.creates user_id stock_id with
    | false => exact (activeCount_exec user_id stock_id hmay hc).trans hinv
    | true =>
      cases stmt with
      | insertPrediction row =>
        have hk : k := hmay (by simpa [Stmt.creates] using hc)
        have h0 := hsound hk (hfresh hc)
        have h1 := activeCount_insert user_id stock_id db row
        omega
      | _ => cases hc
  own := by
    intro db k stmt fresh hinv hsound hmay hfresh hk hfr
    simp only [Bool.and_eq_true, Bool.not_eq_true', Bool.or_eq_true] at hfr
    obtain ⟨hno, hfr⟩ := hfr
    have hle : (db.exec stmt).activeCount user_id stock_id ≤ db.activeCount user_id stock_id :=
      activeCount_exec user_id stock_id hmay hno
    have hkept : k → fresh = true → (db.exec stmt).activeCount user_id stock_id = 0 := by
      intro hk hfr
      have := hsound hk hfr
      omega
    split at hk
    · -- The check, if it is about this user and this stock, counts afresh.
      next u s =>
      by_cases hus : u = user_id ∧ s = stock_id
      · obtain ⟨rfl, rfl⟩ := hus
        rw [if_pos ⟨rfl, rfl⟩] at hk
        exact activeCount_none _ _ hk
      · rw [if_neg hus] at hk
        exact hkept hk (hfr.resolve_left (by simp [createWatch, hus]))
    · exact hkept hk (hfr.resolve_left (by simp [createWatch]))
  other := by
    intro db k stmt fresh k' fresh' hinv hsound hmay hfresh hsound' hk' hfr
    simp only [Bool.and_eq_true, Bool.not_eq_true'] at hfr
    have hle : (db.exec stmt).activeCount user_id stock_id ≤ db.activeCount user_id stock_id :=
      activeCount_exec user_id stock_id hmay hfr.1
    have := hsound' hk' hfr.2
    omega

/-! ## The programs -/

theorem Stmt.Quiet.silent_create {stmt : Stmt} (h : stmt.Quiet) : (createDiscipline user_id stock_id).Silent stmt := by
  intro k
  cases stmt with
  | select query => cases query <;> first | exact ⟨trivial, fun _ => rfl⟩ | exact h.elim
  | insertPrediction row => exact h.elim
  | updatePrediction id changes => exact h.elim
  | _ => exact ⟨trivial, fun _ => rfl⟩

theorem Stmt.Regular.mayCreate {stmt : Stmt} (h : stmt.Regular) (k : Prop) : MayCreate user_id stock_id k stmt := by
  cases stmt with
  | insertPrediction row => exact h.elim
  | updatePrediction id changes => exact h.1
  | _ => trivial

variable {user_id stock_id} {k : Prop} {α : Type}

theorem Quietly.silent_create {p : Request α} (h : Quietly p) : p.Only (createDiscipline user_id stock_id).Silent :=
  h.mono fun _ => Stmt.Quiet.silent_create user_id stock_id

theorem Regularly.allows_create {p : Request α} (h : Regularly p) :
    (createDiscipline user_id stock_id).Allows k p fun _ _ => True :=
  .free (h.mono fun _ => Stmt.Regular.mayCreate user_id stock_id)

theorem allows_savePrediction {row : Prediction} {tag_id : Nat}
    (h : row.user_id = user_id ∧ row.stock_id = stock_id → k) :
    (createDiscipline user_id stock_id).Allows k (savePrediction row tag_id) fun _ _ => True := by
  refine .silent_bind (Quietly.silent_create (quiet_select trivial)) fun found =>
    .silent_bind (only_orNil _ _) fun stock => ?_
  refine .bind ⟨h, fun db _ => ?_⟩
  refine Regularly.allows_create (Quietly.regular ?_)
  exact .bind (quiet_write trivial) fun _ => .bind (mild_updateStockPredictionCount stock).quiet fun _ => trivial

theorem allows_createPrediction (parse : String → Option Int) (now : Time) (session : Option Nat)
    (params : PredictionParams) :
    (createDiscipline user_id stock_id).Allows k (PredictionsController.create parse now session params)
      fun _ _ => True := by
  refine .silent_bind (mild_currentUser session).quiet.silent_create fun user =>
    .silent_bind (Quietly.silent_create (quiet_select trivial)) fun found => ?_
  cases found with
  | none => trivial
  | some stock =>
    refine .silent_bind (only_orNil _ _) fun start_time => .silent_bind (only_orNil _ _) fun user =>
      .silent_bind (only_endTime _ _) fun end_time => .silent_bind (only_endPrice _ _) fun end_price =>
        .silent_bind (mild_addTags _ _ _ _).quiet.silent_create fun tags => ?_
    cases end_price with
    | none => trivial
    | some end_price =>
      cases end_time with
      | none => trivial
      | some end_time =>
        refine .bind ⟨trivial, fun db _ => ?_⟩
        rw [allows_ret]
        split
        · -- No message, so the check found nothing, and nothing in between asks or saves.
          next hnone =>
          refine .seq (allows_savePrediction fun hrow => ?_) fun _ _ => ?_
          · have hfound := (refusals_nil hnone).1
            rw [Option.isSome_eq_false_iff, Option.isNone_iff_eq_none] at hfound
            exact (if_pos hrow).mpr hfound
          · refine Regularly.allows_create (Quietly.regular ?_)
            exact .bind (mild_announcePrediction _ _ _ _).quiet fun _ => trivial
        · trivial

/-- Only the form makes predictions. -/
theorem mayCreate_job (parse : String → Option Int) {job : Job}
    (hform : ¬∃ now session params, job = .createPrediction now session params) :
    (job.request parse).Only fun stmt => ∀ k, MayCreate user_id stock_id k stmt := by
  have hregular : ∀ {p : Request Unit}, Regularly p → p.Only fun stmt => ∀ k, MayCreate user_id stock_id k stmt :=
    fun hp => hp.mono fun _ hs => hs.mayCreate user_id stock_id
  cases job with
  | createPrediction now session params => exact absurd ⟨now, session, params, rfl⟩ hform
  | showPrediction session id => exact hregular (only_unanswered (gentle_showPrediction session id).plain.regular)
  | showStock session ticker_symbol feed =>
    exact hregular (only_unanswered (plain_showStock session ticker_symbol feed).regular)
  | createPredictionend now session prediction_id content =>
    exact hregular (only_unanswered (tame_createPredictionend now session prediction_id content).plain.regular)
  | predictionEnd => exact hregular gentle_predictionEnd.plain.regular
  | verifyStart prediction_id minute_array =>
    exact only_verifyStart prediction_id minute_array (fun _ hs => hs.1.plain.regular.mayCreate _ _)
      (fun _ _ => trivial) fun id changes ha k => changes.ne_activate ha
  | verifyEnd predictionend_id now minute_array =>
    exact only_verifyEnd predictionend_id now minute_array (fun _ hs => hs.1.plain.regular.mayCreate _ _)
      (fun _ _ => trivial) (fun id changes ha _ k => changes.ne_activate ha) fun _ _ _ => trivial
  | googleIntraday ticker_symbol feed => exact hregular (mild_googleIntraday ticker_symbol feed).quiet.regular

theorem job_allowed_create (parse : String → Option Int) (job : Job) :
    (createDiscipline user_id stock_id).Allows k (job.request parse) fun _ _ => True := by
  by_cases hform : ∃ now session params, job = .createPrediction now session params
  · obtain ⟨now, session, params, rfl⟩ := hform
    exact .seq (allows_createPrediction parse now session params) fun _ _ => trivial
  · exact .free (mayCreate_job parse hform)

end

/-! ## Interleaved requests -/

/-- Whatever the requests and their order, if no prediction of a user on a stock
is saved between the check and the save of another, there are never two active. -/
theorem one_active_prediction (parse : String → Option Int) (user_id stock_id : Nat) {init : Db}
    (h0 : init.activeCount user_id stock_id ≤ 1) {c : Config Stmt Db Error}
    (h : Reach Db.exec (createWatch user_id stock_id) (Requested parse) (Fresh (createWatch user_id stock_id))
      (.idle init) c) : c.store.activeCount user_id stock_id ≤ 1 := by
  refine (h.disciplined (createDiscipline user_id stock_id) (fun p hp => ?_) (sound_idle _ h0) fun _ _ _ hf => hf).1
  obtain ⟨job, rfl⟩ := hp
  exact ⟨False, fun _ _ _ => False.elim, job_allowed_create parse job⟩

/-- Two submissions of one form. -/
def twoForms : List (Request Unit) := [mondayForm.request tuesdayAfternoon, mondayForm.request tuesdayAfternoon]

theorem twoForms_requested : ∀ p ∈ twoForms, Requested tuesdayAfternoon p := by
  intro p hp
  simp only [twoForms, List.mem_cons, List.not_mem_nil, or_false, or_self] at hp
  exact ⟨mondayForm, hp⟩

/-- The second form is checked and saved before the first is checked, which is then refused. -/
theorem one_active_prediction_refused :
    ((started oneStock twoForms).turns Db.exec (createWatch 1 1)
      (List.replicate 3 0 ++ List.replicate 30 1 ++ List.replicate 30 0)).store.activeCount 1 1 ≤ 1 :=
  one_active_prediction tuesdayAfternoon 1 1 (by decide)
    ((reach_started oneStock twoForms_requested).turns_fresh (by rfl))

/-- Both forms are checked before either is saved. -/
theorem createPrediction_races :
    ¬∀ parse user_id stock_id init (c : Config Stmt Db Error), init.activeCount user_id stock_id ≤ 1 →
      Reach Db.exec (createWatch user_id stock_id) (Requested parse) Anytime (.idle init) c →
      c.store.activeCount user_id stock_id ≤ 1 := by
  intro h
  have hrun := h tuesdayAfternoon 1 1 oneStock _ (by decide) ((reach_started oneStock twoForms_requested).turns
    (List.replicate 7 0 ++ List.replicate 30 1 ++ List.replicate 30 0))
  revert hrun
  decide +kernel

end MyStockIQ
