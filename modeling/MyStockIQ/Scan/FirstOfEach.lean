import Mathlib.Data.List.Induction
import Mathlib.Order.Lattice
/-!
# The first item of each key

One scan over a list keeps an item unless it has the key of the last one kept. It
compares with no other, so in general a key can come back. Where the keys of the list
never go down it cannot: what is kept are the first items of the keys, one for each,
and their keys go up (`firsts_spec`).
-/

namespace Scan

section
variable {α κ : Type} [DecidableEq κ] (key : α → κ)

/-- The next item, unless it has the key of the last one kept. -/
def keep (kept : List α) (item : α) : List α :=
  match kept.getLast? with
  | none => kept ++ [item]
  | some last => if key item = key last then kept else kept ++ [item]

def firsts (items : List α) : List α := items.foldl (keep key) []

variable {key} in
theorem firsts_snoc (items : List α) (item : α) : firsts key (items ++ [item]) = keep key (firsts key items) item := by
  unfold firsts
  rw [List.foldl_append]
  rfl

variable {key} in
theorem mem_of_mem_firsts {items : List α} {a : α} (h : a ∈ firsts key items) : a ∈ items := by
  induction items using List.reverseRecOn with
  | nil => exact h
  | append_singleton items item ih =>
    have hkept : a ∈ firsts key items ++ [item] := by
      rw [firsts_snoc] at h
      unfold keep at h
      split at h
      · exact h
      · split at h
        · exact List.mem_append_left _ h
        · exact h
    rcases List.mem_append.1 hkept with hold | hnew
    · exact List.mem_append_left _ (ih hold)
    · exact List.mem_append_right _ hnew

/-- `kept` are the first items of the keys, in the order of the keys. -/
structure FirstOfEach [LT κ] (items kept : List α) : Prop where
  increasing : (kept.map key).Pairwise (· < ·)
  keys : ∀ k, k ∈ kept.map key ↔ k ∈ items.map key
  first : ∀ a ∈ kept, ∃ before after, items = before ++ a :: after ∧ ∀ b ∈ before, key b ≠ key a

end

section
variable {α κ : Type} [LinearOrder κ] {key : α → κ} {items kept : List α} {item last : α}

theorem firstOfEach_nil : FirstOfEach key [] [] where
  increasing := .nil
  keys k := Iff.rfl
  first a ha := by cases ha

/-- What is kept lasts through more items. -/
theorem FirstOfEach.first_append (h : FirstOfEach key items kept) (more : List α) {a : α} (ha : a ∈ kept) :
    ∃ before after, items ++ more = before ++ a :: after ∧ ∀ b ∈ before, key b ≠ key a := by
  obtain ⟨before, after, rfl, hbefore⟩ := h.first a ha
  exact ⟨before, after ++ more, by rw [List.append_assoc, List.cons_append], hbefore⟩

/-- The last one kept has the greatest key so far. -/
theorem FirstOfEach.le_last (h : FirstOfEach key items kept) (hlast : kept.getLast? = some last) :
    ∀ a ∈ items, key a ≤ key last := by
  obtain ⟨front, rfl⟩ := List.getLast?_eq_some_iff.1 hlast
  have hpairs := h.increasing
  rw [List.map_append, List.pairwise_append] at hpairs
  intro a ha
  obtain ⟨b, hb, hkey⟩ := List.mem_map.1 ((h.keys (key a)).2 (List.mem_map_of_mem ha))
  rw [← hkey]
  rcases List.mem_append.1 hb with hfront | hend
  · exact (hpairs.2.2 (key b) (List.mem_map_of_mem hfront) (key last) (by simp)).le
  · rw [List.mem_singleton.1 hend]

/-- An item whose key is there already. -/
theorem FirstOfEach.pass (h : FirstOfEach key items kept) (hmem : key item ∈ kept.map key) :
    FirstOfEach key (items ++ [item]) kept where
  increasing := h.increasing
  keys k := by
    rw [List.map_append, List.mem_append, ← h.keys]
    constructor
    · exact .inl
    · rintro (hold | hnew)
      · exact hold
      · rwa [List.mem_singleton.1 hnew]
  first a ha := h.first_append [item] ha

/-- An item with a greater key than all before. -/
theorem FirstOfEach.snoc (h : FirstOfEach key items kept) (hlt : ∀ a ∈ items, key a < key item) :
    FirstOfEach key (items ++ [item]) (kept ++ [item]) where
  increasing := by
    rw [List.map_append]
    refine List.pairwise_append.2 ⟨h.increasing, List.pairwise_singleton _ _, ?_⟩
    intro k hk new hnew
    obtain ⟨a, ha, rfl⟩ := List.mem_map.1 ((h.keys k).1 hk)
    rw [List.mem_singleton.1 hnew]
    exact hlt a ha
  keys k := by
    rw [List.map_append, List.map_append, List.mem_append, List.mem_append, h.keys]
  first a ha := by
    rcases List.mem_append.1 ha with hold | hnew
    · exact h.first_append [item] hold
    · obtain rfl := List.mem_singleton.1 hnew
      exact ⟨items, [], rfl, fun b hb => (hlt b hb).ne⟩

theorem FirstOfEach.keep (h : FirstOfEach key items kept) (hle : ∀ a ∈ items, key a ≤ key item) :
    FirstOfEach key (items ++ [item]) (keep key kept item) := by
  unfold Scan.keep
  cases hlast : kept.getLast? with
  | none =>
    obtain rfl := List.getLast?_eq_none_iff.1 hlast
    refine h.snoc fun a ha => ?_
    cases (h.keys (key a)).2 (List.mem_map_of_mem ha)
  | some last =>
    have hmem : last ∈ kept := List.mem_of_getLast? hlast
    dsimp only
    split
    · next hsame =>
      refine h.pass ?_
      rw [hsame]
      exact List.mem_map_of_mem hmem
    · next hne =>
      have hkept : last ∈ items := by
        obtain ⟨before, after, rfl, -⟩ := h.first last hmem
        simp
      have hlt : key last < key item := (hle last hkept).lt_of_ne (Ne.symm hne)
      exact h.snoc fun a ha => (h.le_last hlast a ha).trans_lt hlt

/-- Where the keys do not go down, the scan keeps the first item of each. -/
theorem firsts_spec (h : items.Pairwise fun a b => key a ≤ key b) : FirstOfEach key items (firsts key items) := by
  induction items using List.reverseRecOn with
  | nil => exact firstOfEach_nil
  | append_singleton items item ih =>
    obtain ⟨hitems, -, hle⟩ := List.pairwise_append.1 h
    rw [firsts_snoc]
    exact (ih hitems).keep fun a ha => hle a ha item (List.mem_singleton_self item)

end

end Scan
