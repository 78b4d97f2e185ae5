import Mathlib.Data.List.Basic
import Mathlib.Tactic.Common
/-!
# Array methods of JavaScript

`indexOf`, `slice` and `splice` take and give integers: an index below zero counts
from the end, one beyond an end is that end, and what is not found is at `-1`.
-/

namespace JavaScript

variable {α : Type}

/-- The position an index stands for. -/
def relative (length : Nat) (index : Int) : Nat := if index < 0 then (length + index).toNat else min index.toNat length

/-- `indexOf`, for what `===` holds of. -/
def indexOf (same : α → Bool) (xs : List α) : Int := (xs.findIdx? same).elim (-1) Nat.cast

/-- `slice(start, end)` -/
def slice (xs : List α) (start stop : Int) : List α :=
  (xs.drop (relative xs.length start)).take (relative xs.length stop - relative xs.length start)

/-- `splice(start, count)`: what is returned, and what is left of the array. -/
def splice (xs : List α) (start : Int) (count : Nat) : List α × List α :=
  let position := relative xs.length start
  ((xs.drop position).take count, xs.take position ++ xs.drop (position + count))

variable {xs : List α} {same : α → Bool}

/-! ## Indices from the front -/

theorem relative_natCast (length n : Nat) : relative length n = min n length := by
  unfold relative
  rw [if_neg (by omega), Int.toNat_natCast]

theorem slice_take (xs : List α) (n : Nat) : slice xs 0 n = xs.take n := by
  have hzero : relative xs.length 0 = 0 := relative_natCast xs.length 0 |>.trans (Nat.zero_min _)
  unfold slice
  rw [hzero, relative_natCast]
  simp

/-- `splice` with an index of the array takes the element out of it. -/
theorem splice_removed (xs : List α) (n : Nat) : (splice xs n 1).1 = xs[n]?.toList := by
  unfold splice
  dsimp only
  rw [relative_natCast]
  rcases Nat.lt_or_ge n xs.length with h | h
  · rw [Nat.min_eq_left (Nat.le_of_lt h), List.drop_eq_getElem_cons h, List.getElem?_eq_getElem h]
    rfl
  · rw [Nat.min_eq_right h, List.drop_length, List.getElem?_eq_none h]
    rfl

theorem splice_left (xs : List α) (n : Nat) : (splice xs n 1).2 = xs.eraseIdx n := by
  unfold splice
  dsimp only
  rw [relative_natCast]
  rcases Nat.lt_or_ge n xs.length with h | h
  · rw [Nat.min_eq_left (Nat.le_of_lt h), List.eraseIdx_eq_take_drop_succ]
  · rw [List.eraseIdx_of_length_le h, Nat.min_eq_right h, List.take_length,
      List.drop_eq_nil_of_le (Nat.le_succ xs.length), List.append_nil]

/-! ## Indices from the end -/

theorem relative_neg (length : Nat) {n : Nat} (h : 1 ≤ n) : relative length (-n) = length - n := by
  unfold relative
  rw [if_pos (by omega)]
  omega

theorem slice_dropLast (xs : List α) : slice xs 0 (-1) = xs.dropLast := by
  have hzero : relative xs.length 0 = 0 := relative_natCast xs.length 0 |>.trans (Nat.zero_min _)
  have hlast : relative xs.length (-1) = xs.length - 1 := relative_neg xs.length (Nat.le_refl 1)
  unfold slice
  rw [hzero, hlast, List.dropLast_eq_take]
  rfl

/-- `splice` with a negative index, or with the first element where there are not so many. -/
theorem splice_end (xs : List α) {n : Nat} (h : 1 ≤ n) : (splice xs (-n) 1).1 = xs[xs.length - n]?.toList := by
  unfold splice
  dsimp only
  rw [relative_neg xs.length h]
  rcases Nat.lt_or_ge (xs.length - n) xs.length with hlt | hge
  · rw [List.drop_eq_getElem_cons hlt, List.getElem?_eq_getElem hlt]
    rfl
  · rw [List.drop_eq_nil_of_le hge, List.getElem?_eq_none hge]
    rfl

/-! ## Searches -/

theorem indexOf_none (h : ∀ x ∈ xs, same x = false) : indexOf same xs = -1 := by
  unfold indexOf
  rw [List.findIdx?_eq_none_iff.2 h]
  rfl

/-- The first element for which it holds. -/
theorem indexOf_append {before after : List α} {x : α} (hbefore : ∀ y ∈ before, same y = false) (hx : same x = true) :
    indexOf same (before ++ x :: after) = before.length := by
  unfold indexOf
  rw [List.findIdx?_append, List.findIdx?_eq_none_iff.2 hbefore, List.findIdx?_cons, if_pos hx]
  simp

end JavaScript
