import Mathlib.Order.WithBot
import Mathlib.Data.List.Perm.Basic
/-!
# A running maximum

One scan over a list keeps the best item so far. An item replaces it if its key
is no less than the best one's, or than a bound while there is none. What is left
is an item of the greatest key (`runningMax_spec`), so the order of the list does
not matter where items of one key are one item (`runningMax_perm`).
-/

namespace Scan

variable {α κ : Type} [LinearOrder κ] (key : α → κ) (bound : WithBot κ)

/-- What the next item has to reach. -/
def threshold : Option α → WithBot κ
  | none => bound
  | some best => key best

def better (best : Option α) (item : α) : Option α := if threshold key bound best ≤ key item then some item else best

def runningMax (items : List α) : Option α := items.foldl (better key bound) none

/-- One item: it is reached, and what was reached stays so. -/
theorem threshold_better (best : Option α) (item : α) :
    (key item : WithBot κ) ≤ threshold key bound (better key bound best item) ∧
      threshold key bound best ≤ threshold key bound (better key bound best item) := by
  unfold better
  split
  · next hle => exact ⟨le_refl _, hle⟩
  · next hlt => exact ⟨(not_le.1 hlt).le, le_refl _⟩

theorem threshold_foldl (items : List α) (best : Option α) :
    threshold key bound best ≤ threshold key bound (items.foldl (better key bound) best) ∧
      ∀ item ∈ items, (key item : WithBot κ) ≤ threshold key bound (items.foldl (better key bound) best) := by
  induction items generalizing best with
  | nil => exact ⟨le_refl _, by simp⟩
  | cons item items ih =>
    obtain ⟨hstep, hrest⟩ := ih (better key bound best item)
    obtain ⟨hitem, hbest⟩ := threshold_better key bound best item
    refine ⟨hbest.trans hstep, ?_⟩
    intro other hother
    rcases List.mem_cons.1 hother with rfl | hin
    · exact hitem.trans hstep
    · exact hrest other hin

/-- What is left is what there was, or an item. -/
theorem foldl_better (items : List α) (best : Option α) :
    items.foldl (better key bound) best = best ∨ ∃ item ∈ items, items.foldl (better key bound) best = some item := by
  induction items generalizing best with
  | nil => exact .inl rfl
  | cons item items ih =>
    rw [List.foldl_cons]
    rcases ih (better key bound best item) with hsame | ⟨other, hother, heq⟩
    · rw [hsame]
      unfold better
      split
      · exact .inr ⟨item, List.mem_cons_self, rfl⟩
      · exact .inl rfl
    · exact .inr ⟨other, List.mem_cons_of_mem _ hother, heq⟩

theorem foldl_some (items : List α) (best : α) : items.foldl (better key bound) (some best) ≠ none := by
  intro hnone
  rcases foldl_better key bound items (some best) with heq | ⟨item, -, heq⟩
  · rw [heq] at hnone
    cases hnone
  · rw [heq] at hnone
    cases hnone

/-- The first item that reaches the bound is taken. -/
theorem foldl_none {items : List α} (h : items.foldl (better key bound) none = none) :
    ∀ item ∈ items, (key item : WithBot κ) < bound := by
  induction items with
  | nil => simp
  | cons first items ih =>
    rw [List.foldl_cons] at h
    by_cases hfirst : bound ≤ key first
    · have htaken : better key bound none first = some first := if_pos hfirst
      rw [htaken] at h
      exact absurd h (foldl_some key bound items first)
    · have hpassed : better key bound none first = none := if_neg hfirst
      rw [hpassed] at h
      intro item hitem
      rcases List.mem_cons.1 hitem with rfl | hin
      · exact not_le.1 hfirst
      · exact ih h item hin

/-- The item found has the greatest key, which reaches the bound; if none is found,
no item reaches it. -/
theorem runningMax_spec (items : List α) :
    match runningMax key bound items with
    | some best => best ∈ items ∧ bound ≤ key best ∧ ∀ item ∈ items, key item ≤ key best
    | none => ∀ item ∈ items, (key item : WithBot κ) < bound := by
  obtain ⟨hbound, hitems⟩ := threshold_foldl key bound items none
  have hmem := foldl_better key bound items none
  unfold runningMax
  cases hbest : items.foldl (better key bound) none with
  | some best =>
    rw [hbest] at hbound hitems hmem
    obtain ⟨item, hitem, heq⟩ := hmem.resolve_left (by simp)
    cases heq
    exact ⟨hitem, hbound, fun other hother => WithBot.coe_le_coe.1 (hitems other hother)⟩
  | none => exact foldl_none key bound hbest

theorem runningMax_perm {items items' : List α} (hperm : items.Perm items')
    (hties : ∀ a ∈ items, ∀ b ∈ items, key a = key b → a = b) :
    runningMax key bound items = runningMax key bound items' := by
  have h := runningMax_spec key bound items
  have h' := runningMax_spec key bound items'
  cases hfound : runningMax key bound items with
  | some best =>
    rw [hfound] at h
    obtain ⟨hmem, hbound, hmax⟩ := h
    cases hfound' : runningMax key bound items' with
    | some best' =>
      rw [hfound'] at h'
      obtain ⟨hmem', -, hmax'⟩ := h'
      have hin := hperm.mem_iff.2 hmem'
      exact congrArg some (hties best hmem best' hin (le_antisymm (hmax' best (hperm.mem_iff.1 hmem)) (hmax best' hin)))
    | none =>
      rw [hfound'] at h'
      exact absurd hbound (not_le.2 (h' best (hperm.mem_iff.1 hmem)))
  | none =>
    rw [hfound] at h
    cases hfound' : runningMax key bound items' with
    | some best' =>
      rw [hfound'] at h'
      obtain ⟨hmem', hbound', -⟩ := h'
      exact absurd hbound' (not_le.2 (h best' (hperm.mem_iff.2 hmem')))
    | none => rfl

end Scan
