import Mathlib.Data.Set.Card
import Mathlib.Order.Lattice
/-!
# Tables that a loop fills, and the next rows in them

A loop over an index keeps what it makes of some indices and numbers what it keeps.
Where the values go up with the index, the table is sorted, and the first rows after a
start are the next values of their kind: none between them is missing (`Next`).
-/

namespace Scan

/-! ## Numbering what is kept -/

section
variable {α : Type} (item : Int → Option α)

/-- The loop from index `i` with `n` left, where `id` is the next number. -/
def numbered : Nat → Int → Nat → List (Nat × α)
  | 0, _, _ => []
  | n + 1, i, id =>
    match item i with
    | some a => (id, a) :: numbered n (i + 1) (id + 1)
    | none => numbered n (i + 1) id

variable {item}

theorem numbered_some {i : Int} {a : α} (h : item i = some a) (n id : Nat) :
    numbered item (n + 1) i id = (id, a) :: numbered item n (i + 1) (id + 1) := by
  rw [numbered, h]

theorem numbered_none {i : Int} (h : item i = none) (n id : Nat) :
    numbered item (n + 1) i id = numbered item n (i + 1) id := by
  rw [numbered, h]

/-- The numbers have no gap. -/
theorem numbered_ids (n : Nat) (i : Int) (id : Nat) :
    (numbered item n i id).map Prod.fst = List.range' id (numbered item n i id).length := by
  induction n generalizing i id with
  | zero => rfl
  | succ n ih =>
    cases h : item i with
    | none => rw [numbered_none h, ih]
    | some a =>
      rw [numbered_some h, List.map_cons, ih, List.length_cons, List.range'_succ]

theorem mem_numbered {n : Nat} {i : Int} {id : Nat} {a : α} :
    a ∈ (numbered item n i id).map Prod.snd ↔ ∃ j, i ≤ j ∧ j < i + n ∧ item j = some a := by
  induction n generalizing i id with
  | zero =>
    constructor
    · intro h
      cases h
    · rintro ⟨j, h0, h1, -⟩
      omega
  | succ n ih =>
    -- The first index is the one of this round, or the rest of the loop has it.
    have hrest : (∃ j, i + 1 ≤ j ∧ j < i + 1 + n ∧ item j = some a) ∨ item i = some a ↔
        ∃ j, i ≤ j ∧ j < i + (n + 1 : Nat) ∧ item j = some a := by
      constructor
      · rintro (⟨j, h0, h1, hj⟩ | hi)
        · exact ⟨j, by omega, by omega, hj⟩
        · exact ⟨i, le_refl i, by omega, hi⟩
      · rintro ⟨j, h0, h1, hj⟩
        rcases Int.lt_or_eq_of_le h0 with hlt | rfl
        · exact .inl ⟨j, by omega, by omega, hj⟩
        · exact .inr hj
    rw [← hrest]
    cases h : item i with
    | none => simp [numbered_none h, ih]
    | some b => simp [numbered_some h, ih, or_comm, eq_comm]

/-- Where later indices give later values, the table is sorted. -/
theorem numbered_pairwise {r : α → α → Prop} (h : ∀ i j a b, i < j → item i = some a → item j = some b → r a b)
    (n : Nat) (i : Int) (id : Nat) : ((numbered item n i id).map Prod.snd).Pairwise r := by
  induction n generalizing i id with
  | zero => exact .nil
  | succ n ih =>
    cases hi : item i with
    | none =>
      rw [numbered_none hi]
      exact ih (i + 1) id
    | some a =>
      rw [numbered_some hi, List.map_cons]
      refine List.pairwise_cons.2 ⟨fun b hb => ?_, ih (i + 1) (id + 1)⟩
      obtain ⟨j, h0, -, hj⟩ := mem_numbered.1 hb
      exact h i j a b (by omega) hi hj

end

/-! ## The next values of a kind -/

section
variable {κ : Type} [LinearOrder κ] (P : κ → Prop) (start : κ)

/-- The next values after the start for which `P` holds, in order. -/
structure Next (values : List κ) : Prop where
  increasing : values.Pairwise (· < ·)
  after : ∀ x ∈ values, start < x
  kind : ∀ x ∈ values, P x
  none_missed : ∀ x ∈ values, ∀ t, P t → start < t → t ≤ x → t ∈ values

/-- `x` comes after the start, with `n` of its kind in between. -/
structure IsNth (n : Nat) (x : κ) : Prop where
  after : start < x
  kind : P x
  between : {t | P t ∧ start < t ∧ t < x}.encard = n

variable {P start} {table values : List κ} {stop : κ}

theorem IsNth.le {n : Nat} {x y : κ} (hx : IsNth P start n x) (hy : IsNth P start n y) : x ≤ y := by
  by_contra hlt
  have hlt := not_le.1 hlt
  -- All that is before the smaller one is before the other, and it is itself.
  have hsub : insert y {t | P t ∧ start < t ∧ t < y} ⊆ {t | P t ∧ start < t ∧ t < x} := by
    rintro t (rfl | ⟨ht, hstart, hty⟩)
    · exact ⟨hy.kind, hy.after, hlt⟩
    · exact ⟨ht, hstart, hty.trans hlt⟩
  have hcard := Set.encard_le_encard hsub
  rw [Set.encard_insert_of_notMem fun hmem => lt_irrefl y hmem.2.2, hx.between, hy.between] at hcard
  have hnat : n + 1 ≤ n := by exact_mod_cast hcard
  omega

/-- Only one value has so many of its kind before it. -/
theorem IsNth.unique {n : Nat} {x y : κ} (hx : IsNth P start n x) (hy : IsNth P start n y) : x = y :=
  le_antisymm (hx.le hy) (hy.le hx)

end

end Scan
