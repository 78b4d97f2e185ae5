import MyStockIQ.Saving
/-!
# What a score rewards

Both ways of computing a score take one path through the code, from the price
the stock has or from the one the prediction ended at. `run_scored` says what
either leaves on the record; the rest is about that number.
-/

open SharedStore Prog

namespace MyStockIQ

/-- `self.predictionend`, from memory or from the tables. -/
def Record.predictionendIn (self : Record) (db : Db) : Option Predictionend :=
  self.predictionend.or (db.predictionendOf self.row.id)

/-- `request` computes the score of `self` from the price `actual`. -/
inductive Scores (self : Record) (db : Db) (actual : Rat) : Request Record → Prop
  | current {stock : Stock} : self.stockIn db = some stock → stock.daily_stock_price = some actual →
      Scores self db actual self.updateScore
  | final {predictionend : Predictionend} : self.predictionendIn db = some predictionend →
      predictionend.actual_end_price = some actual → (self.stockIn db).isSome = true →
      Scores self db actual self.finalUpdateScore

theorem run_loadPredictionend {self : Record} {db : Db} {predictionend : Predictionend}
    (h : self.predictionendIn db = some predictionend) :
    self.loadPredictionend.run Db.exec db = (.ok (some predictionend), db) := by
  unfold Record.predictionendIn at h
  unfold Record.loadPredictionend
  cases hp : self.predictionend with
  | some loaded =>
    rw [hp, Option.some_or] at h
    rw [h]
    rfl
  | none =>
    rw [hp, Option.none_or] at h
    simp only [select, query, run_step, exec_select, h, run_ret]

/-- Either way the record ends up with the points its prices give. -/
theorem run_scored {self : Record} {db : Db} {actual start_price : Rat} {request : Request Record}
    (h : Scores self db actual request) (hstart : self.row.start_price = some start_price) (hpos : 0 < start_price) :
    ∃ self' db', request.run Db.exec db = (.ok self', db') ∧
      self'.row.score = .finite (signedPoints start_price self.row.prediction_end_price actual) := by
  have hscore := calculateScore_eq hpos self.row.prediction_end_price actual
  cases h with
  | @current stock hstock hprice =>
    have hin : ({ self with stock := some stock } : Record).stockIn db = some stock := rfl
    unfold Record.updateScore
    simp only [percent, hstart, bind_eq, ret_bind]
    rw [run_bind_ok Db.exec (run_loadStock_eq hstock _)]
    simp only [hprice, hstart, ret_bind, hscore]
    exact ⟨_, _, run_save hin _, rfl⟩
  | @final predictionend hend hprice hstock =>
    obtain ⟨stock, hstock⟩ := Option.isSome_iff_exists.1 hstock
    unfold Record.finalUpdateScore
    simp only [percent, hstart, bind_eq, ret_bind]
    rw [run_bind_ok Db.exec (run_loadPredictionend hend)]
    simp only [orNil, ret_bind, hprice, hscore]
    exact ⟨_, _, run_save hstock _, rfl⟩

/-- The computation of the score of a prediction made at `start_price`, while the price is at `actual`. -/
structure Scoring (start_price prediction_end_price actual : Rat) where
  self : Record
  db : Db
  request : Request Record
  scores : Scores self db actual request
  start : self.row.start_price = some start_price
  predicted : self.row.prediction_end_price = prediction_end_price

/-- It ends, with `score` on the record. -/
def Scoring.Gives {start_price prediction_end_price actual : Rat}
    (scoring : Scoring start_price prediction_end_price actual) (score : Rat) : Prop :=
  ∃ self' db', scoring.request.run Db.exec scoring.db = (.ok self', db') ∧ self'.row.score = .finite score

section
variable {start_price prediction_end_price actual : Rat}

theorem Scoring.gives_iff (scoring : Scoring start_price prediction_end_price actual) (hpos : 0 < start_price)
    (score : Rat) : scoring.Gives score ↔ score = signedPoints start_price prediction_end_price actual := by
  obtain ⟨self', db', hrun, hscore⟩ := run_scored scoring.scores scoring.start hpos
  rw [scoring.predicted] at hscore
  constructor
  · rintro ⟨self'', db'', hrun', hscore'⟩
    obtain ⟨hself, -⟩ := Prod.mk.inj (hrun.symm.trans hrun')
    obtain rfl := Except.ok.inj hself
    exact Number.finite.inj (hscore'.symm.trans hscore)
  · rintro rfl
    exact ⟨self', db', hrun, hscore⟩

end

/-- Every score is as large as the rounded percentage the price has moved by. Above the start price a prediction
gains by a higher price, below it it loses, and two predictions in opposite directions get opposite scores. -/
theorem score_rewards_direction {start_price : Rat} (hpos : 0 < start_price) :
    (∀ prediction_end_price actual, ∀ scoring : Scoring start_price prediction_end_price actual,
      ∃ score, scoring.Gives score ∧ |score| = roundCents |100 * (actual - start_price) / start_price|) ∧
    (∀ prediction_end_price actual actual', actual ≤ actual' →
      ∀ scoring : Scoring start_price prediction_end_price actual,
      ∀ scoring' : Scoring start_price prediction_end_price actual',
      ∀ score score', scoring.Gives score → scoring'.Gives score' →
        if start_price ≤ prediction_end_price then score ≤ score' else score' ≤ score) ∧
    ∀ up down actual, start_price ≤ up → down < start_price →
      ∀ upward : Scoring start_price up actual, ∀ downward : Scoring start_price down actual,
      ∀ score score', upward.Gives score → downward.Gives score' → score' = -score := by
  refine ⟨?_, ?_, ?_⟩
  · intro prediction_end_price actual scoring
    refine ⟨signedPoints start_price prediction_end_price actual, (scoring.gives_iff hpos _).2 rfl, ?_⟩
    exact abs_signedPoints start_price prediction_end_price actual
  · intro prediction_end_price actual actual' hle scoring scoring' score score' h h'
    rw [(scoring.gives_iff hpos score).1 h, (scoring'.gives_iff hpos score').1 h']
    split
    · next hup => exact signedPoints_mono hpos hup hle
    · next hdown => exact signedPoints_anti hpos (not_le.1 hdown) hle
  · intro up down actual hup hdown upward downward score score' h h'
    rw [(upward.gives_iff hpos score).1 h, (downward.gives_iff hpos score').1 h']
    exact signedPoints_neg hup hdown actual

/-- A prediction made at 100, and the stock it is about. -/
def madeAtHundred (prediction_end_price daily_stock_price : Rat) : Record where
  row :=
    { id := 1
      user_id := 1
      stock_id := 1
      content := ""
      score := .finite 0
      active := true
      start_price_verified := true
      start_price := some 100
      start_time := 0
      prediction_end_price := prediction_end_price
      prediction_end_time := 0
      graph_start_time := 0
      graph_end_time := 0 }
  stock := some
    { id := 1
      stock := "Apple"
      ticker_symbol := "AAPL"
      date := none
      daily_stock_price := some daily_stock_price
      viewed := none
      active_predictions := 0 }

def scoredAtHundred (prediction_end_price actual : Rat) : Scoring 100 prediction_end_price actual where
  self := madeAtHundred prediction_end_price actual
  db := oneStock
  request := (madeAtHundred prediction_end_price actual).updateScore
  scores := .current rfl rfl
  start := rfl
  predicted := rfl

/-- A rise by 2.345 percent, seen from above and from below. -/
theorem score_rewards_direction_rise :
    (∃ score, (scoredAtHundred 110 (20469 / 200)).Gives score ∧ |score| = 47 / 20) ∧
    ∀ score score', (scoredAtHundred 110 (20469 / 200)).Gives score → (scoredAtHundred 90 (20469 / 200)).Gives score' →
      score' = -score := by
  obtain ⟨hsize, -, hopposite⟩ := score_rewards_direction (show (0 : Rat) < 100 by norm_num)
  constructor
  · obtain ⟨score, hgives, habs⟩ := hsize 110 (20469 / 200) (scoredAtHundred 110 (20469 / 200))
    refine ⟨score, hgives, habs.trans ?_⟩
    decide +kernel
  · exact hopposite 110 90 (20469 / 200) (by norm_num) (by norm_num) _ _

end MyStockIQ
