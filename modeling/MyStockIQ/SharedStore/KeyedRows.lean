import Mathlib.Data.List.Basic
import Mathlib.Data.List.Pairwise
/-!
# Rows that are a map

A list of rows of which no two have one key is a map from keys: `lookup` finds the
row of a key. `put` takes the place of the row that had the key, if there was one.
-/

namespace SharedStore

section
variable {A κ : Type} [DecidableEq κ] (key : A → κ)

/-- No two rows have one key. -/
def UniqueKeys (rows : List A) : Prop := rows.Pairwise fun a b => key a ≠ key b

/-- The row of the key. -/
def lookup (rows : List A) (k : κ) : Option A := rows.find? (key · = k)

/-- The rows without that of the key. -/
def drop (k : κ) (rows : List A) : List A := rows.filter (key · ≠ k)

/-- The rows with `row` for its key. -/
def put (row : A) (rows : List A) : List A := drop key (key row) rows ++ [row]

variable {key} {rows : List A} {row : A} {k k' : κ}

theorem lookup_some (h : lookup key rows k = some row) : row ∈ rows ∧ key row = k :=
  ⟨List.mem_of_find?_eq_some h, by simpa using List.find?_some h⟩

theorem UniqueKeys.lookup_eq (h : UniqueKeys key rows) (hmem : row ∈ rows) : lookup key rows (key row) = some row := by
  induction rows with
  | nil => cases hmem
  | cons first rest ih =>
    obtain ⟨hfirst, hrest⟩ := List.pairwise_cons.1 h
    rcases List.mem_cons.1 hmem with rfl | hmem
    · simp [lookup]
    · have hne : key first ≠ key row := hfirst row hmem
      have hlookup := ih hrest hmem
      unfold lookup at hlookup ⊢
      rw [List.find?_cons_of_neg (by simpa using hne), hlookup]

/-- Two rows with one key are one row. -/
theorem UniqueKeys.eq (h : UniqueKeys key rows) {other : A} (hrow : row ∈ rows) (hother : other ∈ rows)
    (hkey : key row = key other) : row = other := by
  have hfound := h.lookup_eq hrow
  rw [hkey, h.lookup_eq hother] at hfound
  exact (Option.some.inj hfound).symm

/-- One row at most has the key. -/
theorem UniqueKeys.length_le_one (h : UniqueKeys key rows) (k : κ) : (rows.filter (key · = k)).length ≤ 1 := by
  have hkey : ∀ row ∈ rows.filter (key · = k), key row = k := fun row hmem => by simpa using (List.mem_filter.1 hmem).2
  have hpair := h.sublist (List.filter_sublist (p := (key · = k)))
  rcases hrows : rows.filter (key · = k) with _ | ⟨first, _ | ⟨second, rest⟩⟩
  · simp
  · simp
  · rw [hrows] at hkey hpair
    have hne := (List.pairwise_cons.1 hpair).1 second (by simp)
    exact absurd ((hkey first (by simp)).trans (hkey second (by simp)).symm) hne

theorem UniqueKeys.drop (h : UniqueKeys key rows) (k : κ) : UniqueKeys key (drop key k rows) :=
  h.sublist List.filter_sublist

theorem UniqueKeys.put (h : UniqueKeys key rows) (row : A) : UniqueKeys key (put key row rows) := by
  refine List.pairwise_append.2 ⟨h.drop (key row), List.pairwise_singleton _ _, ?_⟩
  rintro other hother _ hrow
  obtain rfl := List.mem_singleton.1 hrow
  simpa using (List.mem_filter.1 hother).2

/-- The first row of the key is the only one. -/
theorem UniqueKeys.eraseP_eq (h : UniqueKeys key rows) (k : κ) : rows.eraseP (key · = k) = SharedStore.drop key k rows := by
  induction rows with
  | nil => rfl
  | cons first rest ih =>
    obtain ⟨hfirst, hrest⟩ := List.pairwise_cons.1 h
    unfold SharedStore.drop at ih ⊢
    by_cases hkey : key first = k
    · have hrows : rest.filter (key · ≠ k) = rest := by
        refine List.filter_eq_self.2 fun row hmem => decide_eq_true ?_
        rw [← hkey]
        exact (hfirst row hmem).symm
      rw [List.eraseP_cons_of_pos (by simpa using hkey), List.filter_cons_of_neg (by simpa using hkey), hrows]
    · rw [List.eraseP_cons_of_neg (by simpa using hkey), List.filter_cons_of_pos (by simpa using hkey), ih hrest]

theorem lookup_drop_self : lookup key (drop key k rows) k = none := by
  refine List.find?_eq_none.2 fun row hmem => ?_
  simpa using (List.mem_filter.1 hmem).2

theorem lookup_drop_ne (hne : k' ≠ k) : lookup key (drop key k rows) k' = lookup key rows k' := by
  unfold lookup drop
  rw [List.find?_filter]
  congr 1
  funext row
  by_cases hkey : key row = k'
  · simp [hkey, hne]
  · simp [hkey]

theorem lookup_put_self : lookup key (put key row rows) (key row) = some row := by
  have hnone : (drop key (key row) rows).find? (key · = key row) = none := lookup_drop_self
  unfold lookup put
  rw [List.find?_append, hnone]
  simp

theorem lookup_put_ne (hne : k ≠ key row) : lookup key (put key row rows) k = lookup key rows k := by
  have hdrop : (drop key (key row) rows).find? (key · = k) = rows.find? (key · = k) := lookup_drop_ne hne
  unfold lookup put
  rw [List.find?_append, hdrop]
  simp [hne.symm]

/-- To drop the one row of a key is to drop the key. -/
theorem UniqueKeys.drop_eq {B : Type} [DecidableEq B] {id : A → B} (h : UniqueKeys key rows) (hid : UniqueKeys id rows)
    (hmem : row ∈ rows) : SharedStore.drop id (id row) rows = SharedStore.drop key (key row) rows := by
  refine List.filter_congr fun other hother => ?_
  have hiff : id other = id row ↔ key other = key row := by
    constructor
    · intro hsame
      rw [hid.eq hother hmem hsame]
    · intro hsame
      rw [h.eq hother hmem hsame]
  simp [hiff]

end

end SharedStore
