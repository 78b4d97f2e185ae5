import Mathlib.Data.List.Basic
import Mathlib.Logic.Function.Basic
/-!
# One write after another

A column of values is gone through: each item writes the value of its key, which
may depend on the column as the items before left it. What a key has in the end
was written by the last item with that key.
-/

namespace SharedStore

section
variable {A κ V : Type} [DecidableEq κ] (key : A → κ) (value : A → (κ → V) → V)

/-- The column after the writes of the items. -/
def writes (items : List A) (column : κ → V) : κ → V :=
  items.foldl (fun column a => Function.update column (key a) (value a column)) column

variable {key value} {items before after : List A} {column : κ → V} {k : κ} {a : A} {v : V}

theorem writes_append (items more : List A) (column : κ → V) :
    writes key value (items ++ more) column = writes key value more (writes key value items column) :=
  List.foldl_append ..

theorem writes_cons (a : A) (items : List A) (column : κ → V) :
    writes key value (a :: items) column = writes key value items (Function.update column (key a) (value a column)) := rfl

/-- A key that no item has keeps its value. -/
theorem writes_of_ne (h : ∀ a ∈ items, key a ≠ k) (column : κ → V) : writes key value items column k = column k := by
  induction items generalizing column with
  | nil => rfl
  | cons a items ih =>
    rw [writes_cons, ih fun b hb => h b (List.mem_cons_of_mem a hb)]
    exact Function.update_of_ne (h a List.mem_cons_self).symm _ _

/-- The last item of a key writes what it makes of the column before it. -/
theorem writes_last (hkey : key a = k) (hafter : ∀ b ∈ after, key b ≠ k) (column : κ → V) :
    writes key value (before ++ a :: after) column k = value a (writes key value before column) := by
  subst hkey
  rw [writes_append, writes_cons, writes_of_ne hafter, Function.update_self]

theorem exists_last (h : ∃ a ∈ items, key a = k) :
    ∃ before a after, items = before ++ a :: after ∧ key a = k ∧ ∀ b ∈ after, key b ≠ k := by
  induction items with
  | nil => simp at h
  | cons first items ih =>
    by_cases hlater : ∃ a ∈ items, key a = k
    · obtain ⟨before, a, after, rfl, hkey, hafter⟩ := ih hlater
      exact ⟨first :: before, a, after, rfl, hkey, hafter⟩
    · obtain ⟨a, hmem, hkey⟩ := h
      rcases List.mem_cons.1 hmem with rfl | hmem
      · exact ⟨[], a, items, rfl, hkey, fun b hb hsame => hlater ⟨b, hb, hsame⟩⟩
      · exact absurd ⟨a, hmem, hkey⟩ hlater

/-- What comes before an item comes before its last occurrence. -/
theorem prefix_of_last {before' after' : List A} (h : before' ++ a :: after' = before ++ a :: after) (ha : a ∉ after) :
    before' <+: before := by
  rcases List.append_eq_append_iff.1 h with ⟨more, rfl, -⟩ | ⟨more, hbefore, hmore⟩
  · exact List.prefix_append before' more
  · cases more with
    | nil =>
      rw [List.append_nil] at hbefore
      subst hbefore
      exact List.prefix_rfl
    | cons first more =>
      obtain ⟨-, rfl⟩ := List.cons.inj hmore
      exact absurd (by simp) ha

/-- If every item of a key writes the same, that is what it has in the end. -/
theorem writes_eq (hitem : ∃ a ∈ items, key a = k)
    (hvalue : ∀ before a after, items = before ++ a :: after → key a = k → value a (writes key value before column) = v) :
    writes key value items column k = v := by
  obtain ⟨before, a, after, rfl, hkey, hafter⟩ := exists_last hitem
  rw [writes_last hkey hafter]
  exact hvalue before a after rfl hkey

end

end SharedStore
