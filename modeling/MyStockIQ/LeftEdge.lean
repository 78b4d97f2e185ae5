import MyStockIQ.FrameRuns
import Mathlib.Algebra.Order.Ring.Rat
import Mathlib.Data.Rat.Cast.Order
/-!
# The left edge of a frame

`xLimit` looks for the start point among the prices, takes the prices up to it and
counts from their end. The start point of a prediction need not be a price: then
`indexOf` gives `-1`, and the prices up to that are all but the last one, whatever
the start point is (`left_edge_iff`).
-/

open SharedStore Prog JavaScript

namespace MyStockIQ.Chart

/-- The points strictly before the start point. -/
def pointsBefore (arr : List (Point Int)) (startPoint : ℚ) : List (Point Int) :=
  arr.filter fun p => (p.x : ℚ) < startPoint

/-- The left edge is the `n`-th last point before the start point, or the first one. -/
def AtLeftEdge (arr : List (Point Int)) (startPoint : ℚ) (n : Nat) (edge : Except TypeError Int) : Prop :=
  ∃ p, (pointsBefore arr startPoint)[(pointsBefore arr startPoint).length - n]? = some p ∧ edge = .ok p.x

/-- The times of the points go up. -/
def Increasing (arr : List (Point Int)) : Prop := (arr.map (·.x)).Pairwise (· < ·)

variable {arr before after : List (Point Int)} {startPoint : ℚ} {n : Nat}

theorem pointsBefore_append (hbefore : ∀ p ∈ before, (p.x : ℚ) < startPoint) (hafter : ∀ p ∈ after, ¬(p.x : ℚ) < startPoint) :
    pointsBefore (before ++ after) startPoint = before := by
  unfold pointsBefore
  rw [List.filter_append, List.filter_eq_self.2 (by simpa using hbefore), List.filter_eq_nil_iff.2 (by simpa using hafter),
    List.append_nil]

/-- The points before a time come before all others. -/
theorem exists_split (h : Increasing arr) (startPoint : ℚ) : ∃ before after, arr = before ++ after ∧
    (∀ p ∈ before, (p.x : ℚ) < startPoint) ∧ ∀ p ∈ after, ¬(p.x : ℚ) < startPoint := by
  induction arr with
  | nil => exact ⟨[], [], rfl, by simp, by simp⟩
  | cons first rest ih =>
    obtain ⟨hfirst, hrest⟩ := List.pairwise_cons.1 h
    by_cases hlt : (first.x : ℚ) < startPoint
    · obtain ⟨before, after, rfl, hbefore, hafter⟩ := ih hrest
      refine ⟨first :: before, after, rfl, ?_, hafter⟩
      intro p hp
      rcases List.mem_cons.1 hp with rfl | hp
      · exact hlt
      · exact hbefore p hp
    · refine ⟨[], first :: rest, rfl, by simp, ?_⟩
      intro p hp hp_lt
      rcases List.mem_cons.1 hp with rfl | hp
      · exact hlt hp_lt
      · have hx : first.x < p.x := hfirst p.x (List.mem_map.2 ⟨p, hp, rfl⟩)
        exact hlt ((Int.cast_lt.2 hx).trans hp_lt)

/-- A start point that is a price is found. -/
theorem backward_found (h : Increasing (before ++ after)) (hbefore : ∀ p ∈ before, (p.x : ℚ) < startPoint)
    (hafter : ∀ p ∈ after, ¬(p.x : ℚ) < startPoint) (hfound : ∃ p ∈ before ++ after, (p.x : ℚ) = startPoint) (hn : 1 ≤ n) :
    backward (before ++ after) n (some startPoint) = before[before.length - n]?.toList := by
  obtain ⟨p, hp, rfl⟩ := hfound
  have hp_after : p ∈ after := by
    rcases List.mem_append.1 hp with hp | hp
    · exact absurd (hbefore p hp) (lt_irrefl _)
    · exact hp
  cases after with
  | nil => cases hp_after
  | cons first rest =>
    -- The times go up, so the first of those that are not before is the start point itself.
    have hfirst : first.x = p.x := by
      rcases List.mem_cons.1 hp_after with rfl | hrest
      · rfl
      · unfold Increasing at h
        rw [List.map_append, List.pairwise_append] at h
        have hlt : first.x < p.x := (List.pairwise_cons.1 h.2.1).1 p.x (List.mem_map.2 ⟨p, hrest, rfl⟩)
        exact absurd (Int.cast_lt.2 hlt) (hafter first List.mem_cons_self)
    have hindex : indexOf (fun x : Int => same (some (x : ℚ)) (some (p.x : ℚ))) ((before ++ first :: rest).map (·.x)) =
        before.length := by
      rw [List.map_append, List.map_cons, indexOf_append ?_ (by simp [same, hfirst]), List.length_map]
      intro x hx
      obtain ⟨q, hq, rfl⟩ := List.mem_map.1 hx
      have hlt : q.x < p.x := Int.cast_lt.1 (hbefore q hq)
      simp [same, hlt.ne]
    unfold backward
    dsimp only
    rw [hindex, slice_take, List.take_left, splice_end _ hn]

/-- From the last of two prices or more there is always a left edge. -/
theorem backward_last {last : Point Int} (h : Increasing arr) (htwo : 2 ≤ arr.length) (hlast : arr.getLast? = some last)
    (hn : 1 ≤ n) : ∃ p, (backward arr n (some (last.x : ℚ))).head? = some p := by
  obtain ⟨before, rfl⟩ := List.getLast?_eq_some_iff.1 hlast
  have hbefore : ∀ p ∈ before, (p.x : ℚ) < last.x := by
    intro p hp
    have hpairs := h
    unfold Increasing at hpairs
    rw [List.map_append, List.pairwise_append] at hpairs
    exact Int.cast_lt.2 (hpairs.2.2 p.x (List.mem_map.2 ⟨p, hp, rfl⟩) last.x (by simp))
  have hplace : before.length - n < before.length := by
    rw [List.length_append, List.length_singleton] at htwo
    omega
  rw [backward_found h hbefore (by simp) ⟨last, by simp, rfl⟩ hn, List.getElem?_eq_getElem hplace]
  exact ⟨_, rfl⟩

/-- One that is not leaves out the last price only. -/
theorem backward_missing (hmissing : ∀ p ∈ arr, (p.x : ℚ) ≠ startPoint) (hn : 1 ≤ n) :
    backward arr n (some startPoint) = arr.dropLast[arr.length - 1 - n]?.toList := by
  have hnone : indexOf (fun x : Int => same (some (x : ℚ)) (some startPoint)) (arr.map (·.x)) = -1 := by
    refine indexOf_none fun x hx => ?_
    obtain ⟨p, hp, rfl⟩ := List.mem_map.1 hx
    simp [same, hmissing p hp]
  unfold backward
  dsimp only
  rw [hnone, slice_dropLast, splice_end _ hn, List.length_dropLast]

/-- Two places of points with increasing times have one time only if they are one place. -/
theorem place_eq (h : Increasing arr) {i j : Nat} {p q : Point Int} (hi : arr[i]? = some p) (hj : arr[j]? = some q) :
    p.x = q.x ↔ i = j := by
  have hnodup : (arr.map (·.x)).Nodup := h.imp fun hlt => hlt.ne
  have hi' : (arr.map (·.x))[i]? = some p.x := by rw [List.getElem?_map, hi]; rfl
  have hj' : (arr.map (·.x))[j]? = some q.x := by rw [List.getElem?_map, hj]; rfl
  constructor
  · intro hx
    rw [hx] at hi'
    exact (List.getElem?_inj (List.getElem?_eq_some_iff.1 hi').1 hnodup).1 (hi'.trans hj'.symm)
  · rintro rfl
    rw [hi] at hj
    rw [Option.some.inj hj]

/-- Without the last price, the left edge is right just if it is at the same place. -/
theorem dropLast_edge_iff (h : Increasing (before ++ after)) (hne : 1 ≤ before.length) (hn : 1 ≤ n) :
    (∃ p, before[before.length - n]? = some p ∧
      (((before ++ after).dropLast[(before ++ after).length - 1 - n]?.toList.head?.elim (.error ⟨"x"⟩) fun p => .ok p.x :
        Except TypeError Int) = .ok p.x)) ↔
      2 ≤ (before ++ after).length ∧ (before ++ after).length - 1 - n = before.length - n := by
  have hplace : before.length - n < before.length := by omega
  have hright : before[before.length - n]? = some before[before.length - n] := List.getElem?_eq_getElem hplace
  have hlength : (before ++ after).length = before.length + after.length := List.length_append
  rw [hright]
  -- With a single price and a start point after it nothing is left, and reading `x` raises.
  by_cases htwo : 2 ≤ (before ++ after).length
  · have hedge : (before ++ after).dropLast[(before ++ after).length - 1 - n]? =
        some (before ++ after)[(before ++ after).length - 1 - n] := by
      rw [List.getElem?_dropLast, if_pos (by omega)]
      exact List.getElem?_eq_getElem _
    have hsame : (before ++ after)[before.length - n]? = some before[before.length - n] := by
      rw [List.getElem?_append_left hplace, hright]
    -- Both edges are prices, so they agree just when their places do.
    have hx := place_eq h (List.getElem?_eq_getElem (by omega)) hsame (i := (before ++ after).length - 1 - n)
    rw [hedge]
    constructor
    · rintro ⟨p, hp, hedge_eq⟩
      obtain rfl := Option.some.inj hp
      exact ⟨htwo, hx.1 (Except.ok.inj hedge_eq)⟩
    · rintro ⟨-, hplaces⟩
      exact ⟨_, rfl, congrArg Except.ok (hx.2 hplaces)⟩
  · have hnil : (before ++ after).dropLast = [] := List.eq_nil_of_length_eq_zero (by rw [List.length_dropLast]; omega)
    rw [hnil]
    constructor
    · rintro ⟨p, -, hedge_eq⟩
      cases hedge_eq
    · rintro ⟨htwo', -⟩
      exact absurd htwo' htwo

/-- The left edge is right if the start point is a price, if all prices but the last are before it, or if the
frame reaches back to the first price either way. -/
theorem left_edge_iff (components : Components) (timeType : TimeType) (startPoint : ℚ) (n : Nat)
    (harr : components.data.arrays (pricesOf timeType) = arr) (hincreasing : Increasing arr)
    (hbefore : ∃ p ∈ arr, (p.x : ℚ) < startPoint) (hn : 1 ≤ n) :
    AtLeftEdge arr startPoint n ((xLimit timeType n .backward (some startPoint)).run exec components).1 ↔
      (∃ p ∈ arr, (p.x : ℚ) = startPoint) ∨ (pointsBefore arr startPoint).length + 1 = arr.length ∨
        2 ≤ arr.length ∧ (pointsBefore arr startPoint).length ≤ n ∧ arr.length ≤ n + 1 := by
  rw [run_xLimit_backward, harr]
  dsimp only
  obtain ⟨before, after, rfl, hlt, hge⟩ := exists_split hincreasing startPoint
  unfold AtLeftEdge
  rw [pointsBefore_append hlt hge]
  have hne : 1 ≤ before.length := by
    obtain ⟨p, hp, hp_lt⟩ := hbefore
    rcases List.mem_append.1 hp with hp | hp
    · exact List.length_pos_of_mem hp
    · exact absurd hp_lt (hge p hp)
  by_cases hfound : ∃ p ∈ before ++ after, (p.x : ℚ) = startPoint
  · have hright : before[before.length - n]? = some before[before.length - n] := List.getElem?_eq_getElem (by omega)
    rw [backward_found hincreasing hlt hge hfound hn, hright]
    exact ⟨fun _ => .inl hfound, fun _ => ⟨_, rfl, rfl⟩⟩
  · have hmissing : ∀ p ∈ before ++ after, (p.x : ℚ) ≠ startPoint := fun p hp hx => hfound ⟨p, hp, hx⟩
    have hlength : (before ++ after).length = before.length + after.length := List.length_append
    rw [backward_missing hmissing hn, dropLast_edge_iff hincreasing hne hn]
    constructor
    · rintro ⟨htwo, hplaces⟩
      exact .inr (by omega)
    · rintro (hcase | hcase)
      · exact absurd hcase hfound
      · omega

/-- Four prices. -/
def fourPrices : List (Point Int) := [⟨some 1, 10, some 1, none⟩, ⟨some 2, 20, some 2, none⟩, ⟨some 3, 30, some 3, none⟩,
  ⟨some 4, 40, some 4, none⟩]

/-- A page with the same prices for both time types. -/
def fourPricesPage : Components := page ⟨fun _ => fourPrices, [], [], [], []⟩

theorem left_edge_iff_missing :
    AtLeftEdge fourPrices 25 1 ((xLimit .daily 1 .backward (some 25)).run exec fourPricesPage).1 ↔
      (∃ p ∈ fourPrices, (p.x : ℚ) = 25) ∨ (pointsBefore fourPrices 25).length + 1 = fourPrices.length ∨
        2 ≤ fourPrices.length ∧ (pointsBefore fourPrices 25).length ≤ 1 ∧ fourPrices.length ≤ 1 + 1 := by
  have hincreasing : Increasing fourPrices := by simp [Increasing, fourPrices]
  have hbefore : ∃ p ∈ fourPrices, (p.x : ℚ) < 25 := ⟨⟨some 1, 10, some 1, none⟩, by simp [fourPrices], by norm_num⟩
  exact left_edge_iff fourPricesPage .daily 25 1 rfl hincreasing hbefore le_rfl

/-- From a start after all four prices, one back is the third of them. -/
theorem left_edge_too_far : ¬∀ (components : Components) (timeType : TimeType) (arr : List (Point Int)) (startPoint : ℚ)
    (n : Nat), components.data.arrays (pricesOf timeType) = arr → Increasing arr → (∃ p ∈ arr, (p.x : ℚ) < startPoint) → 1 ≤ n →
      AtLeftEdge arr startPoint n ((xLimit timeType n .backward (some startPoint)).run exec components).1 := by
  intro hall
  have hincreasing : Increasing fourPrices := by simp [Increasing, fourPrices]
  have hbefore : ∃ p ∈ fourPrices, (p.x : ℚ) < 45 := ⟨⟨some 1, 10, some 1, none⟩, by simp [fourPrices], by norm_num⟩
  obtain ⟨p, hp, hedge⟩ := hall fourPricesPage .daily fourPrices 45 1 rfl hincreasing hbefore le_rfl
  have hrun : ((xLimit .daily 1 .backward (some 45)).run exec fourPricesPage).1 = .ok 30 := by decide
  have hlast : (pointsBefore fourPrices 45)[(pointsBefore fourPrices 45).length - 1]? =
      some ⟨some 4, 40, some 4, none⟩ := by decide
  rw [hlast] at hp
  obtain rfl := Option.some.inj hp
  rw [hrun] at hedge
  exact absurd (Except.ok.inj hedge) (by decide)

end MyStockIQ.Chart
