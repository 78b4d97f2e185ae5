import MyStockIQ.Effects
/-!
# The score after verification

Two workers rewrite what the final score is computed from: the start worker the
start price, the end worker the end price. Only the end worker computes the
score, so the score is right as long as no start price changes after that.
-/

open SharedStore Prog

namespace MyStockIQ

/-- The score of `p` is the one its prices and the end price of `e` give. -/
def FinalScore (p : Prediction) (e : Predictionend) : Prop :=
  ∃ start_price actual_end_price, p.start_price = some start_price ∧ e.actual_end_price = some actual_end_price ∧
    p.score = calculateScore (percentChange p.prediction_end_price start_price)
      (percentChange actual_end_price start_price)

instance (p : Prediction) (e : Predictionend) : Decidable (FinalScore p e) :=
  decidable_of_iff (p.start_price.any fun start_price => e.actual_end_price.any fun actual_end_price =>
    p.score = calculateScore (percentChange p.prediction_end_price start_price)
      (percentChange actual_end_price start_price)) <| by
    simp only [FinalScore, Option.any_eq_true, decide_eq_true_eq]
    constructor
    · rintro ⟨s, hs, a, ha, h⟩
      exact ⟨s, a, hs, ha, h⟩
    · rintro ⟨s, a, hs, ha, h⟩
      exact ⟨s, hs, a, ha, h⟩

/-- The runs of the two workers. -/
def Job.Verifies : Job → Prop
  | .verifyStart _ _ | .verifyEnd _ _ _ => True
  | _ => False

/-- Only the two workers run, and a start worker that runs after the end was
verified finds the price that is stored. -/
def StartPriceStays (db : Db) : Job → Prop
  | .verifyStart prediction_id minute_array => ∀ p, db.prediction prediction_id = some p →
      (∃ e ∈ db.predictionends, e.prediction_id = p.id ∧ e.end_price_verified = true) →
      ∀ m, Earliest minute_array p.start_time m → p.start_price = some (roundCents m.close_price)
  | .verifyEnd _ _ _ => True
  | _ => False

/-! ## What each worker writes -/

/-- What a start worker assigns from the minute it found. -/
def startChanges (m : Intradayprice) : PredictionChanges where
  start_time := some m.date
  start_price := some (roundCents m.close_price)
  start_price_verified := some true

def endChanges (m : Intradayprice) : PredictionendChanges where
  actual_end_time := some m.date
  actual_end_price := some (roundCents m.close_price)
  end_price_verified := some true

/-- The score an end worker assigns. -/
def scoreChanges (p : Prediction) (start_price actual_end_price : Rat) : PredictionChanges where
  score := some (calculateScore (percentChange p.prediction_end_price start_price)
    (percentChange actual_end_price start_price))

/-- A start worker writes nothing to the core, or the minute it found to its prediction. -/
theorem core_verifyStart (db : Db) (prediction_id : Nat) (minute_array : List Intradayprice) :
    ((PredictionstartWorker.perform prediction_id minute_array).run Db.exec db).2.core = db.core ∨
    ∃ p m, db.prediction prediction_id = some p ∧ Earliest minute_array p.start_time m ∧
      ((PredictionstartWorker.perform prediction_id minute_array).run Db.exec db).2.core =
        (db.exec (.updatePrediction p.id ((startChanges m).dirty p))).core := by
  unfold PredictionstartWorker.perform
  simp only [bind_eq, select, query_bind, run_step, exec_select]
  cases hf : db.prediction prediction_id with
  | none => exact .inl rfl
  | some p =>
    dsimp only
    rcases run_loadStock { row := p } "ticker_symbol" db with ⟨self, stock, hrun, -, hstock, hrow, -⟩ | ⟨hrun, -⟩
    · rw [run_bind_ok Db.exec hrun]
      cases hmin : minMinute minute_array p.start_time with
      | none => exact .inl rfl
      | some m =>
        refine .inr ⟨p, m, rfl, minMinute_earliest hmin, ?_⟩
        dsimp only at hrow ⊢
        rcases run_update self (startChanges m) db with ⟨self', -, -, db', hup, -, -, -, -, -, hcore⟩ | ⟨-, hnone⟩
        · rw [hrow] at hcore
          exact (core_bind_ok hup _).trans hcore
        · simp [Record.stockIn, hstock] at hnone
    · rw [run_bind_error Db.exec hrun]
      exact .inl rfl

theorem run_finalUpdateScore (self : Record) {e : Predictionend} {stock : Stock} {start_price actual_end_price : Rat}
    (hstock : self.stock = some stock) (he : self.predictionend = some e)
    (hs : self.row.start_price = some start_price) (ha : e.actual_end_price = some actual_end_price) (db : Db) :
    (self.finalUpdateScore.run Db.exec db).2.core = (db.exec (.updatePrediction self.row.id
      ((scoreChanges self.row start_price actual_end_price).dirty self.row))).core := by
  unfold Record.finalUpdateScore Record.loadPredictionend
  simp only [hs, he, ha, percent, orNil, bind_eq, ret_bind]
  rcases run_update self (scoreChanges self.row start_price actual_end_price) db with
    ⟨self', -, -, db', hup, -, -, -, -, -, hcore⟩ | ⟨-, hnone⟩
  · exact (congrArg (fun r : Except Error Record × Db => r.2.core) hup).trans hcore
  · simp [Record.stockIn, hstock] at hnone

/-- An end worker writes nothing to the core, or the minute it found to its
Predictionend, and then the score to the prediction. -/
theorem core_verifyEnd (db : Db) (hpriced : ∀ p ∈ db.predictions, p.start_price.isSome = true) (predictionend_id : Nat)
    (now : Time) (minute_array : List Intradayprice) :
    ((PredictionendWorker.perform predictionend_id now minute_array).run Db.exec db).2.core = db.core ∨
    ∃ e p m start_price, db.predictionend predictionend_id = some e ∧ db.prediction e.prediction_id = some p ∧
      p.start_price = some start_price ∧
      ((PredictionendWorker.perform predictionend_id now minute_array).run Db.exec db).2.core =
        ((db.exec (.updatePredictionend e.id ((endChanges m).dirty e))).exec
          (.updatePrediction p.id ((scoreChanges p start_price (roundCents m.close_price)).dirty p))).core := by
  unfold PredictionendWorker.perform
  simp only [bind_eq, select, query_bind, run_step, exec_select]
  cases hf : db.predictionend predictionend_id with
  | none => exact .inl rfl
  | some e =>
    dsimp only
    by_cases hnow : e.actual_end_time + 1800 * 1000000000 ≤ now
    · rw [if_pos hnow, run_step, exec_select]
      cases hp : db.prediction e.prediction_id with
      | none => exact .inl rfl
      | some p =>
        simp only [orNil, ret_bind]
        rcases run_loadStock { row := p } "ticker_symbol" db with ⟨self, stock, hrun, -, hstock, hrow, -⟩ | ⟨hrun, -⟩
        · rw [run_bind_ok Db.exec hrun]
          cases hmin : minMinute minute_array e.actual_end_time with
          | none => exact .inl rfl
          | some m =>
            obtain ⟨start_price, hs⟩ := Option.isSome_iff_exists.1 (hpriced p (prediction_found hp).1)
            refine .inr ⟨e, p, m, start_price, rfl, hp, hs, ?_⟩
            dsimp only at hrow ⊢
            subst hrow
            have hset : ((endChanges m).dirty e).set e = (endChanges m).set e := PredictionendChanges.set_dirty _ _
            have hscore := run_finalUpdateScore { self with predictionend := some (((endChanges m).dirty e).set e) }
              hstock rfl hs (by rw [hset]; rfl)
              (db.exec (.updatePredictionend predictionend_id ((endChanges m).dirty e)))
            rw [← (predictionend_found hf).2] at hscore
            rw [← (predictionend_found hf).2]
            simp only [write, exec_bind, run_step, pure_eq]
            rw [run_bind_ret]
            exact hscore
        · rw [run_bind_error Db.exec hrun]
          exact .inl rfl
    · rw [if_neg hnow]
      exact .inl rfl

/-! ## The law -/

/-- The tables the law is about: a start price everywhere, at most one
Predictionend for each prediction, and a final score where it is verified. -/
structure Scored (db : Db) : Prop where
  keyed : Keyed db
  priced : ∀ p ∈ db.predictions, p.start_price.isSome = true
  one : ∀ e ∈ db.predictionends, ∀ f ∈ db.predictionends, e.prediction_id = f.prediction_id → e.id = f.id
  final : ∀ p ∈ db.predictions, ∀ e ∈ db.predictionends, e.prediction_id = p.id → e.end_price_verified = true →
    FinalScore p e

theorem Scored.of_core {db db' : Db} (h : Scored db) (hc : db'.core = db.core) : Scored db' := by
  have hk := h.keyed.of_core hc
  simp only [Db.core, Prod.mk.injEq] at hc
  obtain ⟨hp, he, -, -⟩ := hc
  exact ⟨hk, by rw [hp]; exact h.priced, by rw [he]; exact h.one, by rw [hp, he]; exact h.final⟩

/-- Verifying a start keeps the law, if a price the score rests on stays. -/
theorem Scored.start {db : Db} (h : Scored db) {p : Prediction} (hp : p ∈ db.predictions) {m : Intradayprice}
    (hm : (∃ e ∈ db.predictionends, e.prediction_id = p.id ∧ e.end_price_verified = true) →
      p.start_price = some (roundCents m.close_price)) :
    Scored (db.exec (.updatePrediction p.id ((startChanges m).dirty p))) := by
  refine ⟨h.keyed.exec _, fun q hq => ?_, h.one, fun q hq e he hid hv => ?_⟩
  · rcases mem_updated hq with ⟨hq, -⟩ | ⟨r, hr, hrp, rfl⟩
    · exact h.priced q hq
    · obtain rfl := h.keyed.prediction_ext hr hp hrp
      rw [PredictionChanges.set_dirty]
      rfl
  · rcases mem_updated hq with ⟨hq, -⟩ | ⟨r, hr, hrp, rfl⟩
    · exact h.final q hq e he hid hv
    · obtain rfl := h.keyed.prediction_ext hr hp hrp
      rw [PredictionChanges.set_dirty] at hid ⊢
      obtain ⟨start_price, actual_end_price, hs, ha, hscore⟩ := h.final r hr e he hid hv
      refine ⟨start_price, actual_end_price, ?_, ha, hscore⟩
      rw [← hs, hm ⟨e, he, hid, hv⟩]
      rfl

/-- Verifying an end establishes the law for its prediction. -/
theorem Scored.finish {db : Db} (h : Scored db) {p : Prediction} {e : Predictionend} (hp : p ∈ db.predictions)
    (he : e ∈ db.predictionends) (hpe : p.id = e.prediction_id) {m : Intradayprice} {start_price : Rat}
    (hs : p.start_price = some start_price) :
    Scored ((db.exec (.updatePredictionend e.id ((endChanges m).dirty e))).exec
      (.updatePrediction p.id ((scoreChanges p start_price (roundCents m.close_price)).dirty p))) := by
  have hbefore : ∀ f ∈ (db.exec (.updatePredictionend e.id ((endChanges m).dirty e))).predictionends,
      ∃ f₀ ∈ db.predictionends, f₀.prediction_id = f.prediction_id ∧ f₀.id = f.id := by
    intro f hf
    rcases mem_updated hf with ⟨hf, -⟩ | ⟨f₀, hf₀, -, rfl⟩
    · exact ⟨f, hf, rfl, rfl⟩
    · exact ⟨f₀, hf₀, rfl, rfl⟩
  refine ⟨(h.keyed.exec _).exec _, fun q hq => ?_, fun f hf g hg hfg => ?_, fun q hq f hf hid hv => ?_⟩
  · rcases mem_updated hq with ⟨hq, -⟩ | ⟨r, hr, hrp, rfl⟩
    · exact h.priced q hq
    · obtain rfl := h.keyed.prediction_ext hr hp hrp
      rw [PredictionChanges.set_dirty]
      exact h.priced r hr
  · obtain ⟨f₀, hf₀, hprediction, hid⟩ := hbefore f hf
    obtain ⟨g₀, hg₀, hprediction', hid'⟩ := hbefore g hg
    rw [← hid, ← hid']
    exact h.one f₀ hf₀ g₀ hg₀ (hprediction.trans (hfg.trans hprediction'.symm))
  · rcases mem_updated hf with ⟨hf, hfe⟩ | ⟨g, hg, hge, rfl⟩
    · rcases mem_updated hq with ⟨hq, -⟩ | ⟨r, hr, hrp, rfl⟩
      · exact h.final q hq f hf hid hv
      · exact absurd (h.one f hf e he (hid.trans (hrp.trans hpe))) hfe
    · obtain rfl := h.keyed.predictionend_ext hg he hge
      rcases mem_updated hq with ⟨hq, hne⟩ | ⟨r, hr, hrp, rfl⟩
      · exact absurd (hid.symm.trans hpe.symm) hne
      · obtain rfl := h.keyed.prediction_ext hr hp hrp
        rw [PredictionChanges.set_dirty, PredictionendChanges.set_dirty]
        exact ⟨start_price, roundCents m.close_price, hs, rfl, rfl⟩

theorem Scored.job {parse : String → Option Int} {db : Db} (h : Scored db) {job : Job} (hj : StartPriceStays db job) :
    Scored (job.run parse db).2 := by
  cases job with
  | verifyStart prediction_id minute_array =>
    rcases core_verifyStart db prediction_id minute_array with hc | ⟨p, m, hp, hm, hc⟩
    · exact h.of_core hc
    · exact (h.start (prediction_found hp).1 fun he => hj p hp he m hm).of_core hc
  | verifyEnd predictionend_id now minute_array =>
    rcases core_verifyEnd db h.priced predictionend_id now minute_array with hc | ⟨e, p, m, s, he, hp, hs, hc⟩
    · exact h.of_core hc
    · exact (h.finish (prediction_found hp).1 (predictionend_found he).1 (prediction_found hp).2 hs).of_core hc
  | _ => exact hj.elim

/-- However the verifications are ordered, a prediction whose start and end are
verified has its final score, if no start worker that runs after the end was
verified finds another price than the one stored. -/
theorem verified_score (parse : String → Option Int) {init db : Db} (hk : Keyed init)
    (hpriced : ∀ p ∈ init.predictions, p.start_price.isSome = true)
    (hone : ∀ e ∈ init.predictionends, ∀ f ∈ init.predictionends, e.prediction_id = f.prediction_id → e.id = f.id)
    (hnew : ∀ e ∈ init.predictionends, e.end_price_verified = false)
    (h : Serial (fun job db => (Job.run parse job db).2) StartPriceStays init db) :
    ∀ p ∈ db.predictions, ∀ e ∈ db.predictionends, e.prediction_id = p.id → p.start_price_verified = true →
      e.end_price_verified = true → FinalScore p e := by
  have h0 : Scored init := ⟨hk, hpriced, hone, fun p _ e he _ hv => by rw [hnew e he] at hv; cases hv⟩
  have hs : Scored db := h.inv h0 fun _ _ hj hs => hs.job hj
  exact fun p hp e he hid _ hv => hs.final p hp e he hid hv

/-- A prediction from 100 to 110 that has just ended, nothing being verified. -/
def justEnded : Db :=
  { oneStock with
    predictions := [⟨1, 1, 1, "up", .finite 0, false, false, some 100, 1436191260 * 1000000000, 110,
      1436277660 * 1000000000, 1436191260000, 1436277660000⟩]
    predictionends := [⟨1, 1, 1436277660 * 1000000000, some 104, false, none, 1436277660000⟩]
    prediction_seq := 2
    predictionend_seq := 2 }

theorem keyed_justEnded : Keyed justEnded :=
  ⟨by simp [justEnded], List.pairwise_singleton _ _, by simp [justEnded], List.pairwise_singleton _ _⟩

def startAt102 : Job := .verifyStart 1 [⟨"ABC", 1436191320 * 1000000000, 102⟩]

def endAt105 : Job := .verifyEnd 1 (1436290000 * 1000000000) [⟨"ABC", 1436277720 * 1000000000, 105⟩]

/-- The tables after the start was verified, then the end. -/
def verifiedInOrder : Db := (endAt105.run tuesdayAfternoon (startAt102.run tuesdayAfternoon justEnded).2).2

theorem verified_score_in_order :
    ∃ p ∈ verifiedInOrder.predictions, ∃ e ∈ verifiedInOrder.predictionends, FinalScore p e := by
  have hlaw := verified_score tuesdayAfternoon keyed_justEnded (by simp [justEnded]) (by simp [justEnded])
    (by simp [justEnded]) (.run (j := endAt105) (.run (j := startAt102) .init ?_) trivial)
  · obtain ⟨p, hp, e, he, hid, hs, hv⟩ : ∃ p ∈ verifiedInOrder.predictions, ∃ e ∈ verifiedInOrder.predictionends,
        e.prediction_id = p.id ∧ p.start_price_verified = true ∧ e.end_price_verified = true := by decide +kernel
    exact ⟨p, hp, e, he, hlaw p hp e he hid hs hv⟩
  · rintro p - ⟨e, he, -, hv⟩
    simp only [justEnded, List.mem_singleton] at he
    rw [he] at hv
    cases hv

/-- End first: the start worker changes the start price, and leaves the score of the old one. -/
theorem verifyStart_leaves_score :
    ¬ ∀ parse init db, Keyed init → (∀ p ∈ init.predictions, ∃ s, p.start_price = some s ∧ 0 < s) →
      (∀ e ∈ init.predictionends, ∀ f ∈ init.predictionends, e.prediction_id = f.prediction_id → e.id = f.id) →
      (∀ e ∈ init.predictionends, e.end_price_verified = false) →
      Serial (fun job db => (Job.run parse job db).2) (fun _ job => job.Verifies) init db →
      ∀ p ∈ db.predictions, ∀ e ∈ db.predictionends, e.prediction_id = p.id → p.start_price_verified = true →
        e.end_price_verified = true → FinalScore p e := by
  intro h
  have hlaw := h tuesdayAfternoon justEnded _ keyed_justEnded (by simp [justEnded]) (by simp [justEnded])
    (by simp [justEnded]) (.run (j := startAt102) (.run (j := endAt105) .init trivial) trivial)
  revert hlaw
  decide +kernel

end MyStockIQ
