import Mathlib.Algebra.Order.Field.Basic
import Mathlib.Algebra.Order.Ring.Rat
import Mathlib.Data.Rat.Floor
import Mathlib.Tactic.Linarith
import Mathlib.Tactic.Positivity
/-!
# Percentages and scores (`app/models/prediction.rb`)

Prices are exact rationals. A percentage of a price of zero is what Ruby's
floats make of it, an infinity or not a number, and so is a score.
-/

namespace MyStockIQ

/-- A Ruby float: exact where finite. -/
inductive Number where
  | finite (q : Rat)
  | infinity (negative : Bool)
  | nan
  deriving DecidableEq

namespace Number

def abs : Number → Number
  | finite q => finite |q|
  | infinity _ => infinity false
  | nan => nan

def neg : Number → Number
  | finite q => finite (-q)
  | infinity negative => infinity !negative
  | nan => nan

/-- `a > b`. -/
def gt : Number → Number → Bool
  | finite a, finite b => b < a
  | infinity negative, finite _ => !negative
  | finite _, infinity negative => negative
  | infinity a, infinity b => !a && b
  | _, _ => false

/-- `a >= 0`. -/
def nonneg : Number → Bool
  | finite q => 0 ≤ q
  | infinity negative => !negative
  | nan => false

/-- `a < 0`. -/
def negative : Number → Bool
  | finite q => q < 0
  | infinity negative => negative
  | nan => false

end Number

/-- `Float#round(2)`: halves go away from zero. -/
def roundCents (q : Rat) : Rat :=
  if q < 0 then -(⌊-q * 100 + 1 / 2⌋ / 100) else ⌊q * 100 + 1 / 2⌋ / 100

def Number.round2 : Number → Number
  | finite q => finite (roundCents q)
  | n => n

/-- `(new_score - base_score)/base_score*100`. -/
def percentChange (new_score base_score : Rat) : Number :=
  if base_score = 0 then
    if new_score = 0 then .nan else .infinity (new_score < 0)
  else .finite ((new_score - base_score) / base_score * 100)

def sameSign (num1 num2 : Number) : Bool :=
  if num1.nonneg && num2.nonneg then true
  else if num1.negative && num2.negative then true
  else false

def calculateScore (prediction_percentage actual_percentage : Number) : Number :=
  if sameSign prediction_percentage actual_percentage then actual_percentage.abs.round2
  else actual_percentage.abs.round2.neg

/-- The test of `exceeds_end_price`: the price has moved further than predicted,
in the predicted direction. -/
def surpasses (prediction_end_price start_price close_price : Rat) : Bool :=
  let prediction_percentage := percentChange prediction_end_price start_price
  let actual_percentage := percentChange close_price start_price
  actual_percentage.abs.gt prediction_percentage.abs && sameSign prediction_percentage actual_percentage

/-- Strictly beyond the predicted price, seen from the price the prediction started at. -/
def Beyond (prediction_end_price start_price close_price : Rat) : Prop :=
  if start_price ≤ prediction_end_price then prediction_end_price < close_price
  else close_price < prediction_end_price

instance (prediction_end_price start_price close_price : Rat) :
    Decidable (Beyond prediction_end_price start_price close_price) :=
  inferInstanceAs (Decidable (if start_price ≤ prediction_end_price then prediction_end_price < close_price
    else close_price < prediction_end_price))

theorem percentChange_pos {new base : Rat} (h : 0 < base) :
    percentChange new base = .finite ((new - base) * (100 / base)) := by
  have hne : base ≠ 0 := h.ne'
  rw [percentChange, if_neg hne]
  congr 1
  ring

theorem sameSign_finite (a b : Rat) : sameSign (.finite a) (.finite b) = true ↔ (0 ≤ a ∧ 0 ≤ b) ∨ (a < 0 ∧ b < 0) := by
  unfold sameSign Number.nonneg Number.negative
  dsimp only
  by_cases h : 0 ≤ a ∧ 0 ≤ b
  · simp [h]
  · by_cases h' : a < 0 ∧ b < 0
    · simp [h']
    · simp only [Bool.and_eq_true, decide_eq_true_eq, h, h', if_false, or_self, Bool.false_eq_true]

/-- With a positive start price, the percentages surpass exactly when the price is beyond. -/
theorem surpasses_iff {end_price start_price close_price : Rat} (h : 0 < start_price) :
    surpasses end_price start_price close_price = true ↔ Beyond end_price start_price close_price := by
  have hr : 0 < 100 / start_price := by positivity
  unfold surpasses
  simp only [percentChange_pos h, Number.abs, Number.gt, Bool.and_eq_true, decide_eq_true_eq, sameSign_finite, abs_mul,
    abs_of_pos hr, mul_lt_mul_iff_left₀ hr, mul_nonneg_iff_of_pos_right hr, mul_neg_iff, hr, not_lt.2 hr.le, and_true,
    and_false, false_or, sub_nonneg, sub_neg]
  unfold Beyond
  by_cases he : start_price ≤ end_price
  · rw [if_pos he]
    constructor
    · rintro ⟨hgt, ⟨-, hc⟩ | ⟨hlt, -⟩⟩
      · rw [abs_of_nonneg (sub_nonneg.2 he), abs_of_nonneg (sub_nonneg.2 hc)] at hgt
        linarith
      · exact absurd hlt (not_lt.2 he)
    · intro hb
      have hc : start_price ≤ close_price := by linarith
      refine ⟨?_, .inl ⟨he, hc⟩⟩
      rw [abs_of_nonneg (sub_nonneg.2 he), abs_of_nonneg (sub_nonneg.2 hc)]
      linarith
  · rw [if_neg he]
    have he' : end_price < start_price := not_le.1 he
    constructor
    · rintro ⟨hgt, ⟨hle, -⟩ | ⟨-, hc⟩⟩
      · exact absurd hle he
      · rw [abs_of_neg (sub_neg.2 he'), abs_of_neg (sub_neg.2 hc)] at hgt
        linarith
    · intro hb
      have hc : close_price < start_price := by linarith
      refine ⟨?_, .inr ⟨he', hc⟩⟩
      rw [abs_of_neg (sub_neg.2 he'), abs_of_neg (sub_neg.2 hc)]
      linarith

/-! ## The size and the direction of a score -/

theorem roundCents_nonneg {q : Rat} (h : 0 ≤ q) : 0 ≤ roundCents q := by
  unfold roundCents
  rw [if_neg (not_lt.2 h)]
  have hfloor : (0 : ℤ) ≤ ⌊q * 100 + 1 / 2⌋ := Int.floor_nonneg.2 (by linarith)
  have hcast : (0 : Rat) ≤ (⌊q * 100 + 1 / 2⌋ : ℤ) := by exact_mod_cast hfloor
  linarith

theorem roundCents_mono {q r : Rat} (hq : 0 ≤ q) (h : q ≤ r) : roundCents q ≤ roundCents r := by
  unfold roundCents
  rw [if_neg (not_lt.2 hq), if_neg (not_lt.2 (hq.trans h))]
  have hfloor : ⌊q * 100 + 1 / 2⌋ ≤ ⌊r * 100 + 1 / 2⌋ := Int.floor_mono (by linarith)
  have hcast : ((⌊q * 100 + 1 / 2⌋ : ℤ) : Rat) ≤ (⌊r * 100 + 1 / 2⌋ : ℤ) := by exact_mod_cast hfloor
  linarith

/-- The points of a score: the percentage the price has moved by, rounded. -/
def points (start_price actual : Rat) : Rat := roundCents |100 * (actual - start_price) / start_price|

/-- What the score comes to: the points won in the predicted direction, and lost in the other. -/
def signedPoints (start_price prediction_end_price actual : Rat) : Rat :=
  if start_price ≤ prediction_end_price ↔ start_price ≤ actual then points start_price actual
  else -points start_price actual

theorem points_nonneg (start_price actual : Rat) : 0 ≤ points start_price actual :=
  roundCents_nonneg (abs_nonneg _)

theorem points_mono {start_price actual actual' : Rat} (hpos : 0 < start_price) (h : start_price ≤ actual)
    (hle : actual ≤ actual') : points start_price actual ≤ points start_price actual' := by
  apply roundCents_mono (abs_nonneg _)
  rw [abs_div, abs_div, abs_of_nonneg (by linarith : 0 ≤ 100 * (actual - start_price)),
    abs_of_nonneg (by linarith : 0 ≤ 100 * (actual' - start_price))]
  gcongr

theorem points_anti {start_price actual actual' : Rat} (hpos : 0 < start_price) (h : actual' ≤ start_price)
    (hle : actual ≤ actual') : points start_price actual' ≤ points start_price actual := by
  apply roundCents_mono (abs_nonneg _)
  rw [abs_div, abs_div, abs_of_nonpos (by linarith : 100 * (actual' - start_price) ≤ 0),
    abs_of_nonpos (by linarith : 100 * (actual - start_price) ≤ 0)]
  gcongr

/-- Of two percentages of a positive price, the sign test says whether both prices lie on one side of it. -/
theorem sameSign_percentChange {start_price a b : Rat} (hpos : 0 < start_price) :
    sameSign (percentChange a start_price) (percentChange b start_price) = true ↔
      (start_price ≤ a ↔ start_price ≤ b) := by
  have hr : 0 < 100 / start_price := by positivity
  rw [percentChange_pos hpos, percentChange_pos hpos, sameSign_finite, ← not_le, ← not_le,
    mul_nonneg_iff_of_pos_right hr, mul_nonneg_iff_of_pos_right hr, sub_nonneg, sub_nonneg]
  tauto

theorem calculateScore_eq {start_price : Rat} (hpos : 0 < start_price) (prediction_end_price actual : Rat) :
    calculateScore (percentChange prediction_end_price start_price) (percentChange actual start_price) =
      .finite (signedPoints start_price prediction_end_price actual) := by
  have hpoints : (percentChange actual start_price).abs.round2 = .finite (points start_price actual) := by
    have hmove : (actual - start_price) * (100 / start_price) = 100 * (actual - start_price) / start_price := by ring
    rw [percentChange_pos hpos, hmove]
    rfl
  unfold calculateScore signedPoints
  rw [hpoints]
  by_cases h : start_price ≤ prediction_end_price ↔ start_price ≤ actual
  · rw [if_pos ((sameSign_percentChange hpos).2 h), if_pos h]
  · rw [if_neg (mt (sameSign_percentChange hpos).1 h), if_neg h]
    rfl

theorem abs_signedPoints (start_price prediction_end_price actual : Rat) :
    |signedPoints start_price prediction_end_price actual| = points start_price actual := by
  unfold signedPoints
  split
  · exact abs_of_nonneg (points_nonneg _ _)
  · rw [abs_neg, abs_of_nonneg (points_nonneg _ _)]

/-- An upward prediction never loses by a higher price. -/
theorem signedPoints_mono {start_price prediction_end_price actual actual' : Rat} (hpos : 0 < start_price)
    (hup : start_price ≤ prediction_end_price) (hle : actual ≤ actual') :
    signedPoints start_price prediction_end_price actual ≤ signedPoints start_price prediction_end_price actual' := by
  unfold signedPoints
  simp only [hup, true_iff]
  by_cases h : start_price ≤ actual
  · rw [if_pos h, if_pos (h.trans hle)]
    exact points_mono hpos h hle
  · rw [if_neg h]
    by_cases h' : start_price ≤ actual'
    · rw [if_pos h']
      linarith [points_nonneg start_price actual, points_nonneg start_price actual']
    · rw [if_neg h']
      exact neg_le_neg (points_anti hpos (not_le.1 h').le hle)

/-- Away from the start price, predictions in the two directions get opposite scores. -/
theorem signedPoints_neg {start_price up down : Rat} (hup : start_price ≤ up) (hdown : down < start_price)
    (actual : Rat) : signedPoints start_price down actual = -signedPoints start_price up actual := by
  unfold signedPoints
  simp only [hup, not_le.2 hdown, true_iff, false_iff]
  by_cases h : start_price ≤ actual
  · rw [if_neg (not_not.2 h), if_pos h]
  · rw [if_pos h, if_neg h, neg_neg]

/-- A downward prediction never gains by a higher price. -/
theorem signedPoints_anti {start_price prediction_end_price actual actual' : Rat} (hpos : 0 < start_price)
    (hdown : prediction_end_price < start_price) (hle : actual ≤ actual') :
    signedPoints start_price prediction_end_price actual' ≤ signedPoints start_price prediction_end_price actual := by
  rw [signedPoints_neg le_rfl hdown, signedPoints_neg le_rfl hdown]
  exact neg_le_neg (signedPoints_mono hpos le_rfl hle)

example : percentChange 110 100 = .finite 10 ∧ calculateScore (.finite 10) (.finite (-5 / 2)) = .finite (-5 / 2) := by
  decide +kernel

end MyStockIQ
