import MyStockIQ.Effects
/-!
# The graph times mirror the timestamps

The `graph_*` columns are copies, in milliseconds since the epoch, of the
timestamps beside them. Creating and ending a prediction write both halves of a
pair. The two verification workers write only the timestamp, so the pair stays
equal as long as the minute they find is in the second it replaces.
-/

open SharedStore Prog

namespace MyStockIQ

/-- Each graph time is the Unix time of its timestamp, in milliseconds. -/
structure GraphTimesMirror (db : Db) : Prop where
  start_time : ∀ p ∈ db.predictions, p.graph_start_time = 1000 * toI p.start_time
  end_time : ∀ p ∈ db.predictions, p.graph_end_time = 1000 * toI p.prediction_end_time
  actual_end_time : ∀ e ∈ db.predictionends, e.graph_end_time = 1000 * toI e.actual_end_time

/-- Whatever minute a verification finds is in the second of the time it replaces. -/
def InTheSameSecond (db : Db) : Job → Prop
  | .verifyStart prediction_id minute_array => ∀ row, db.prediction prediction_id = some row →
      ∀ m, Earliest minute_array row.start_time m → toI m.date = toI row.start_time
  | .verifyEnd predictionend_id now minute_array => ∀ row, db.predictionend predictionend_id = some row →
      row.actual_end_time + 1800 * 1000000000 ≤ now →
      ∀ m, Earliest minute_array row.actual_end_time m → toI m.date = toI row.actual_end_time
  | _ => True

/-! ## One statement -/

/-- A statement that writes both halves of a pair, or neither. -/
def Stmt.Mirrored : Stmt → Prop
  | .insertPrediction row =>
    row.graph_start_time = graphTime row.start_time ∧ row.graph_end_time = graphTime row.prediction_end_time
  | .updatePrediction _ changes => changes.start_time = none
  | .insertPredictionend row => row.graph_end_time = graphTime row.actual_end_time
  | .updatePredictionend _ changes => changes.actual_end_time = none
  | _ => True

theorem graphTime_eq (t : Time) : graphTime t = 1000 * toI t := by
  unfold graphTime
  omega

theorem GraphTimesMirror.exec {db : Db} (h : GraphTimesMirror db) {stmt : Stmt} (hs : stmt.Mirrored) :
    GraphTimesMirror (db.exec stmt) := by
  cases stmt with
  | insertPrediction row =>
    refine ⟨fun p hp => ?_, fun p hp => ?_, h.actual_end_time⟩
    · rcases mem_inserted hp with hp | rfl
      · exact h.start_time p hp
      · exact hs.1.trans (graphTime_eq _)
    · rcases mem_inserted hp with hp | rfl
      · exact h.end_time p hp
      · exact hs.2.trans (graphTime_eq _)
  | insertPredictionend row =>
    refine ⟨h.start_time, h.end_time, fun e he => ?_⟩
    rcases mem_inserted he with he | rfl
    · exact h.actual_end_time e he
    · exact Eq.trans hs (graphTime_eq _)
  | updatePrediction id changes =>
    refine ⟨fun p hp => ?_, fun p hp => ?_, h.actual_end_time⟩
    · rcases mem_updated hp with ⟨hp, -⟩ | ⟨q, hq, -, rfl⟩
      · exact h.start_time p hp
      · simpa [PredictionChanges.set, show changes.start_time = none from hs] using h.start_time q hq
    · rcases mem_updated hp with ⟨hp, -⟩ | ⟨q, hq, -, rfl⟩
      · exact h.end_time p hp
      · exact h.end_time q hq
  | updatePredictionend id changes =>
    refine ⟨h.start_time, h.end_time, fun e he => ?_⟩
    rcases mem_updated he with ⟨he, -⟩ | ⟨f, hf, -, rfl⟩
    · exact h.actual_end_time e he
    · simpa [PredictionendChanges.set, show changes.actual_end_time = none from hs] using h.actual_end_time f hf
  | destroyPrediction id =>
    exact ⟨fun p hp => h.start_time p (List.mem_of_mem_filter hp),
      fun p hp => h.end_time p (List.mem_of_mem_filter hp), h.actual_end_time⟩
  | destroyPredictionend prediction_id id =>
    exact ⟨h.start_time, h.end_time, fun e he => h.actual_end_time e (List.mem_of_mem_filter he)⟩
  | _ => exact ⟨h.start_time, h.end_time, h.actual_end_time⟩

/-! ## One job -/

theorem Stmt.Quiet.mirrored {stmt : Stmt} (h : stmt.Quiet) : stmt.Mirrored := by
  cases stmt <;> trivial

theorem Stmt.Regular.mirrored {stmt : Stmt} (h : stmt.Regular) : stmt.Mirrored := by
  cases stmt with
  | insertPrediction row => exact h.elim
  | updatePrediction id changes => exact h.2
  | insertPredictionend row => exact h.1
  | updatePredictionend id changes => exact h.elim
  | _ => trivial

theorem GraphTimesMirror.run {db : Db} (h : GraphTimesMirror db) {p : Request Unit} (hp : p.Only Stmt.Mirrored) :
    GraphTimesMirror (p.run Db.exec db).2 :=
  hp.run_inv (I := GraphTimesMirror) (fun _ _ hs h => h.exec hs) h

/-- While the start of `row` is being verified: the pairs mirror, and the rows
with its id still have its second as their start time. -/
def Starting (row : Prediction) (db : Db) : Prop :=
  GraphTimesMirror db ∧ ∀ p ∈ db.predictions, p.id = row.id → toI p.start_time = toI row.start_time

/-- The statements of a start verification. -/
def StartStatement (row : Prediction) (stmt : Stmt) : Prop :=
  stmt.Quiet ∨ ∃ changes, stmt = .updatePrediction row.id changes ∧
    ∀ t, changes.start_time = some t → toI t = toI row.start_time

theorem Starting.exec {row : Prediction} {db : Db} (h : Starting row db) {stmt : Stmt}
    (hs : StartStatement row stmt) : Starting row (db.exec stmt) := by
  obtain ⟨hm, hrow⟩ := h
  rcases hs with hq | ⟨changes, rfl, ht⟩
  · have hp : (db.exec stmt).predictions = db.predictions := congrArg Prod.fst (core_exec_quiet hq db)
    exact ⟨hm.exec hq.mirrored, hp ▸ hrow⟩
  · have hset : ∀ p ∈ db.predictions, p.id = row.id → toI (changes.set p).start_time = toI row.start_time := by
      intro p hp hid
      show toI (changes.start_time.getD p.start_time) = _
      cases hc : changes.start_time with
      | none => exact hrow p hp hid
      | some t => exact ht t hc
    refine ⟨⟨fun p hp => ?_, fun p hp => ?_, hm.actual_end_time⟩, fun p hp hid => ?_⟩
    · rcases mem_updated hp with ⟨hp, -⟩ | ⟨q, hq, hid, rfl⟩
      · exact hm.start_time p hp
      · rw [hset q hq hid, ← hrow q hq hid]
        exact hm.start_time q hq
    · rcases mem_updated hp with ⟨hp, -⟩ | ⟨q, hq, -, rfl⟩
      · exact hm.end_time p hp
      · exact hm.end_time q hq
    · rcases mem_updated hp with ⟨-, hne⟩ | ⟨q, hq, hid, rfl⟩
      · exact absurd hid hne
      · exact hset q hq hid

theorem mirror_verifyStart {db : Db} (hk : Keyed db) (h : GraphTimesMirror db) {prediction_id : Nat}
    {minute_array : List Intradayprice} (hsec : InTheSameSecond db (.verifyStart prediction_id minute_array)) :
    GraphTimesMirror ((PredictionstartWorker.perform prediction_id minute_array).run Db.exec db).2 := by
  unfold PredictionstartWorker.perform
  simp only [bind_eq, select, query_bind, run_step]
  cases hf : db.prediction prediction_id with
  | none => exact h
  | some row =>
    obtain ⟨hrow, hid⟩ := prediction_found hf
    have hstart : Starting row db := ⟨h, fun p hp hpid => by rw [hk.prediction_ext hp hrow hpid]⟩
    have hq : ∀ stmt : Stmt, stmt.Mild → StartStatement row stmt := fun _ hs => .inl hs.1
    refine (Prog.Only.run_inv (A := StartStatement row) (I := Starting row) ?_ (fun _ _ hs h => h.exec hs) hstart).1
    refine .bind_ends ((mild_loadStock _ _).mono hq) (loadStock_row _ _) fun loaded hself => ?_
    obtain ⟨self, stock⟩ := loaded
    dsimp only at hself ⊢
    cases hmin : minMinute minute_array row.start_time with
    | none => trivial
    | some m =>
      refine .bind (only_update hq (.inr ⟨_, by rw [hself], fun t ht => ?_⟩)) fun _ => trivial
      obtain rfl : m.date = t := Option.some.inj (dirty_some ht)
      exact hsec row hf m (minMinute_earliest hmin)

/-- While the end of `row` is being verified. -/
def Finishing (row : Predictionend) (db : Db) : Prop :=
  GraphTimesMirror db ∧ ∀ e ∈ db.predictionends, e.id = row.id → toI e.actual_end_time = toI row.actual_end_time

/-- The statements of an end verification. -/
def EndStatement (row : Predictionend) (stmt : Stmt) : Prop :=
  stmt.Quiet ∨ (∃ query, stmt = .select query) ∨
    (∃ id changes, stmt = .updatePrediction id changes ∧ changes.start_time = none) ∨
    ∃ changes, stmt = .updatePredictionend row.id changes ∧
      ∀ t, changes.actual_end_time = some t → toI t = toI row.actual_end_time

theorem Finishing.exec {row : Predictionend} {db : Db} (h : Finishing row db) {stmt : Stmt}
    (hs : EndStatement row stmt) : Finishing row (db.exec stmt) := by
  obtain ⟨hm, hrow⟩ := h
  rcases hs with hq | ⟨query, rfl⟩ | ⟨id, changes, rfl, ht⟩ | ⟨changes, rfl, ht⟩
  · have he : (db.exec stmt).predictionends = db.predictionends :=
      congrArg (fun core => core.2.1) (core_exec_quiet hq db)
    exact ⟨hm.exec hq.mirrored, he ▸ hrow⟩
  · exact ⟨hm, hrow⟩
  · exact ⟨hm.exec ht, hrow⟩
  · have hset : ∀ e ∈ db.predictionends, e.id = row.id →
        toI (changes.set e).actual_end_time = toI row.actual_end_time := by
      intro e he hid
      show toI (changes.actual_end_time.getD e.actual_end_time) = _
      cases hc : changes.actual_end_time with
      | none => exact hrow e he hid
      | some t => exact ht t hc
    refine ⟨⟨hm.start_time, hm.end_time, fun e he => ?_⟩, fun e he hid => ?_⟩
    · rcases mem_updated he with ⟨he, -⟩ | ⟨f, hf, hid, rfl⟩
      · exact hm.actual_end_time e he
      · rw [hset f hf hid, ← hrow f hf hid]
        exact hm.actual_end_time f hf
    · rcases mem_updated he with ⟨-, hne⟩ | ⟨f, hf, hid, rfl⟩
      · exact absurd hid hne
      · exact hset f hf hid

theorem mirror_verifyEnd {db : Db} (hk : Keyed db) (h : GraphTimesMirror db) {predictionend_id : Nat} {now : Time}
    {minute_array : List Intradayprice} (hsec : InTheSameSecond db (.verifyEnd predictionend_id now minute_array)) :
    GraphTimesMirror ((PredictionendWorker.perform predictionend_id now minute_array).run Db.exec db).2 := by
  unfold PredictionendWorker.perform
  simp only [bind_eq, select, query_bind, run_step]
  cases hf : db.predictionend predictionend_id with
  | none => exact h
  | some row =>
    obtain ⟨hrow, hid⟩ := predictionend_found hf
    have hend : Finishing row db := ⟨h, fun e he heid => by rw [hk.predictionend_ext he hrow heid]⟩
    have hq : ∀ stmt : Stmt, stmt.Mild → EndStatement row stmt := fun _ hs => .inl hs.1
    refine (Prog.Only.run_inv (A := EndStatement row) (I := Finishing row) ?_ (fun _ _ hs h => h.exec hs) hend).1
    dsimp only
    by_cases hnow : row.actual_end_time + 1800 * 1000000000 ≤ now
    · rw [if_pos hnow]
      refine ⟨.inr (.inl ⟨_, rfl⟩), fun _ => .bind (only_orNil _ _) fun _ =>
        .bind ((mild_loadStock _ _).mono hq) fun _ => ?_⟩
      cases hmin : minMinute minute_array row.actual_end_time with
      | none => trivial
      | some m =>
        refine .bind ((only_exec _).2 (.inr (.inr (.inr ⟨_, by rw [hid], fun t ht => ?_⟩)))) fun _ =>
          .bind (only_finalUpdateScore hq (fun _ => .inr (.inl ⟨_, rfl⟩))
            fun _ _ _ ht _ => .inr (.inr (.inl ⟨_, _, rfl, ht⟩))) fun _ => trivial
        obtain rfl : m.date = t := Option.some.inj (dirty_some ht)
        exact hsec row hf hnow m (minMinute_earliest hmin)
    · rw [if_neg hnow]; trivial

/-- Every request and job keeps the mirror, if a verification finds its minute in the same second. -/
theorem GraphTimesMirror.job {parse : String → Option Int} {db : Db} (hk : Keyed db) (h : GraphTimesMirror db)
    {job : Job} (hsec : InTheSameSecond db job) : GraphTimesMirror (job.run parse db).2 := by
  cases job with
  | createPrediction now session params =>
    exact h.run (only_unanswered (only_createPrediction parse now session params (fun _ hs => hs.1.mirrored)
      (fun _ => trivial) fun _ h _ => ⟨h.graph_start_time, h.graph_end_time⟩))
  | showPrediction session id =>
    exact h.run (only_unanswered ((gentle_showPrediction session id).plain.regular.mono fun _ => Stmt.Regular.mirrored))
  | showStock session ticker_symbol feed =>
    exact h.run (only_unanswered
      ((plain_showStock session ticker_symbol feed).regular.mono fun _ => Stmt.Regular.mirrored))
  | createPredictionend now session prediction_id content =>
    exact h.run (only_unanswered ((tame_createPredictionend now session prediction_id content).plain.regular.mono
      fun _ => Stmt.Regular.mirrored))
  | predictionEnd => exact h.run (gentle_predictionEnd.plain.regular.mono fun _ => Stmt.Regular.mirrored)
  | verifyStart prediction_id minute_array => exact mirror_verifyStart hk h hsec
  | verifyEnd predictionend_id now minute_array => exact mirror_verifyEnd hk h hsec
  | googleIntraday ticker_symbol feed =>
    exact h.run ((mild_googleIntraday ticker_symbol feed).quiet.mono fun _ => Stmt.Quiet.mirrored)

/-- The graph times mirror the timestamps in every state reached by jobs whose
verifications find their minute in the second of the time they replace. -/
theorem graphTimes_mirror (parse : String → Option Int) {init db : Db} (hk : Keyed init) (h0 : GraphTimesMirror init)
    (h : Serial (fun job db => (Job.run parse job db).2) InTheSameSecond init db) : GraphTimesMirror db :=
  (h.inv (I := fun db => Keyed db ∧ GraphTimesMirror db) ⟨hk, h0⟩ fun _ _ hsec hi =>
    ⟨hi.1.run _, hi.2.job hi.1 hsec⟩).2

theorem keyed_oneStock : Keyed oneStock := ⟨by simp [oneStock], .nil, by simp [oneStock], .nil⟩

/-- Creating a prediction, and verifying its start with the very minute it starts at. -/
theorem graphTimes_mirror_verified :
    GraphTimesMirror (Job.run tuesdayAfternoon (.verifyStart 1 [⟨"ABC", 1436191260 * 1000000000, 101⟩])
      (mondayForm.run tuesdayAfternoon oneStock).2).2 := by
  refine graphTimes_mirror tuesdayAfternoon keyed_oneStock
    ⟨by simp [oneStock], by simp [oneStock], by simp [oneStock]⟩
    (.run (j := .verifyStart 1 [⟨"ABC", 1436191260 * 1000000000, 101⟩]) (.run (j := mondayForm) .init trivial) ?_)
  intro row hrow m hm
  have hstart : ((mondayForm.run tuesdayAfternoon oneStock).2.prediction 1).map (·.start_time) =
      some (1436191260 * 1000000000) := rfl
  rw [hrow, Option.map_some, Option.some.injEq] at hstart
  rw [List.mem_singleton.1 hm.1, hstart]

/-- A start verified with a minute one minute later leaves the graph time behind. -/
theorem verifyStart_leaves_graph_start_time :
    ¬ ∀ parse init db, Keyed init → GraphTimesMirror init →
      Serial (fun job db => (Job.run parse job db).2) (fun _ _ => True) init db → GraphTimesMirror db := by
  intro h
  have hrun := h tuesdayAfternoon oneStock _ keyed_oneStock
    ⟨by simp [oneStock], by simp [oneStock], by simp [oneStock]⟩
    (.run (j := .verifyStart 1 [⟨"ABC", 1436191320 * 1000000000, 101⟩]) (.run (j := mondayForm) .init trivial) trivial)
  have hstart : ∀ p ∈ (Job.run tuesdayAfternoon (.verifyStart 1 [⟨"ABC", 1436191320 * 1000000000, 101⟩])
      (mondayForm.run tuesdayAfternoon oneStock).2).2.predictions, p.graph_start_time = 1000 * toI p.start_time :=
    hrun.start_time
  revert hstart
  decide

end MyStockIQ
