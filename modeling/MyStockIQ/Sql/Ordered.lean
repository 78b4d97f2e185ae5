import Mathlib.Data.List.Range
import Mathlib.Data.List.Sort
import Mathlib.Order.Lattice
/-!
# Rows in order

`ORDER BY` sorts the rows of a query; those that come neither before nor after each other
it leaves in any order, and in another at the next query. What the keys decide, every
order agrees on: the first rows come before the others (`before_rest`), rows with keys of
their own have one order (`reorder_eq`), and a row apart from all others has its place
(`place`).
-/

namespace Sql

/-- `ORDER BY`, where `le` is the order of the keys. -/
structure OrderBy {α : Type} (le : α → α → Prop) where
  reorder : List α → List α
  perm : ∀ rows, (reorder rows).Perm rows
  sorted : ∀ rows, (reorder rows).Pairwise le

namespace OrderBy

variable {α : Type} {le : α → α → Prop}

/-- Rows of the same key as they come. -/
def stable [DecidableRel le] (total : ∀ a b, le a b ∨ le b a) (trans : ∀ a b c, le a b → le b c → le a c) : OrderBy le where
  reorder := List.insertionSort le
  perm := List.perm_insertionSort le
  sorted rows := by
    have : Std.Total le := ⟨total⟩
    have : IsTrans α le := ⟨trans⟩
    exact List.pairwise_insertionSort le rows

variable (order : OrderBy le) {rows : List α} {a : α}

theorem mem_reorder : a ∈ order.reorder rows ↔ a ∈ rows := (order.perm rows).mem_iff

/-- `LIMIT` keeps the first rows. -/
theorem before_rest (n : Nat) : ∀ a ∈ (order.reorder rows).take n, ∀ b ∈ (order.reorder rows).drop n, le a b := by
  have hpairs := order.sorted rows
  rw [← List.take_append_drop n (order.reorder rows), List.pairwise_append] at hpairs
  exact hpairs.2.2

end OrderBy

/-! ## Pages -/

theorem countP_le_of_drop {α : Type} {p : α → Bool} {xs : List α} {i : Nat} (h : ∀ b ∈ xs.drop i, ¬p b) : xs.countP p ≤ i := by
  have hsplit := congrArg (List.countP p) (List.take_append_drop i xs)
  rw [List.countP_append, List.countP_eq_zero.2 h, Nat.add_zero] at hsplit
  rw [← hsplit]
  exact List.countP_le_length.trans (List.length_take_le i xs)

theorem le_countP_of_take {α : Type} {p : α → Bool} {xs : List α} {i : Nat} (hi : i ≤ xs.length) (h : ∀ b ∈ xs.take i, p b) :
    i ≤ xs.countP p := by
  have hsplit := congrArg (List.countP p) (List.take_append_drop i xs)
  rw [List.countP_append, List.countP_eq_length.2 h, List.length_take_of_le hi] at hsplit
  omega

section
variable {α : Type} {le : α → α → Prop} {rows : List α}

/-- `LIMIT per OFFSET per * n`: the page after `n` others. -/
def OrderBy.page (order : OrderBy le) (rows : List α) (per n : Nat) : List α :=
  ((order.reorder rows).drop (per * n)).take per

theorem OrderBy.mem_page_iff (order : OrderBy le) {per n : Nat} (hper : 0 < per) {a : α} :
    a ∈ order.page rows per n ↔ ∃ i, (order.reorder rows)[i]? = some a ∧ i / per = n := by
  have hplace (i : Nat) : i / per = n ↔ per * n ≤ i ∧ i - per * n < per := by
    rw [Nat.div_eq_iff hper, Nat.mul_comm per n]
    omega
  simp only [page, List.mem_iff_getElem?, List.getElem?_take, List.getElem?_drop, hplace]
  constructor
  · rintro ⟨i, hi⟩
    split at hi
    · next hlt => exact ⟨per * n + i, hi, Nat.le_add_right _ _, by omega⟩
    · cases hi
  · rintro ⟨i, hi, hle, hlt⟩
    refine ⟨i - per * n, ?_⟩
    rw [if_pos hlt, Nat.add_sub_cancel' hle]
    exact hi

theorem OrderBy.nodup_page (order : OrderBy le) (hnodup : rows.Nodup) (per n : Nat) : (order.page rows per n).Nodup :=
  (((order.perm rows).nodup_iff.2 hnodup).sublist (List.drop_sublist _ _)).sublist (List.take_sublist _ _)

variable (le) [DecidableRel le]

/-- How many rows come before a row, whatever the order. -/
def before (rows : List α) (a : α) : Nat := rows.countP fun b => ¬le a b

/-- How many rows come before a row or have its key. -/
def upTo (rows : List α) (a : α) : Nat := rows.countP fun b => le b a

/-- The rows of the key of one that is looked for are on one page. -/
def PagesApart (rows : List α) (shown : α → Bool) (per : Nat) : Prop :=
  ∀ a ∈ rows, shown a → before le rows a / per = (upTo le rows a - 1) / per

instance (rows : List α) (shown : α → Bool) (per : Nat) : Decidable (PagesApart le rows shown per) :=
  inferInstanceAs (Decidable (∀ a ∈ rows, shown a → before le rows a / per = (upTo le rows a - 1) / per))

end

/-! ### Where the rows of a key are -/

section
variable {α : Type} {le : α → α → Prop} {rows sorted : List α} {i : Nat} {a b : α}

theorem le_of_places (hsorted : sorted.Pairwise le) (hrefl : ∀ a, le a a) {j : Nat} (hij : i ≤ j) (ha : sorted[i]? = some a)
    (hb : sorted[j]? = some b) : le a b := by
  obtain ⟨hi, rfl⟩ := List.getElem?_eq_some_iff.1 ha
  obtain ⟨hj, rfl⟩ := List.getElem?_eq_some_iff.1 hb
  rcases Nat.lt_or_eq_of_le hij with hlt | rfl
  · exact List.pairwise_iff_getElem.1 hsorted i j hi hj hlt
  · exact hrefl _

variable [DecidableRel le]

/-- Before the row at a place there are at most as many, and it is among those up to it. -/
theorem place_between (hsorted : sorted.Pairwise le) (hrefl : ∀ a, le a a) (ha : sorted[i]? = some a) :
    before le sorted a ≤ i ∧ i < upTo le sorted a := by
  have hi := (List.getElem?_eq_some_iff.1 ha).1
  constructor
  · apply countP_le_of_drop
    intro b hb
    obtain ⟨j, hj⟩ := List.mem_iff_getElem?.1 hb
    rw [List.getElem?_drop] at hj
    simpa using le_of_places hsorted hrefl (Nat.le_add_right i j) ha hj
  · apply le_countP_of_take hi
    intro b hb
    obtain ⟨j, hj⟩ := List.mem_iff_getElem?.1 hb
    rw [List.getElem?_take] at hj
    split at hj
    · next hlt => simpa using le_of_places hsorted hrefl (Nat.le_of_lt_succ hlt) hj ha
    · cases hj

/-- The rows at the places between have the key. -/
theorem tied_of_place (htrans : ∀ a b c, le a b → le b c → le a c) (hsorted : sorted.Pairwise le) (hrefl : ∀ a, le a a)
    (hb : sorted[i]? = some b) : (before le sorted a ≤ i → le a b) ∧ (i < upTo le sorted a → le b a) := by
  have hi := (List.getElem?_eq_some_iff.1 hb).1
  constructor
  · intro hbefore
    by_contra hnot
    have hmany : i + 1 ≤ before le sorted a := by
      apply le_countP_of_take hi
      intro c hc
      obtain ⟨j, hj⟩ := List.mem_iff_getElem?.1 hc
      rw [List.getElem?_take] at hj
      split at hj
      · next hlt =>
        have hcb := le_of_places hsorted hrefl (Nat.le_of_lt_succ hlt) hj hb
        simpa using fun hac => hnot (htrans a c b hac hcb)
      · cases hj
    omega
  · intro hupTo
    by_contra hnot
    have hfew : upTo le sorted a ≤ i := by
      apply countP_le_of_drop
      intro c hc
      obtain ⟨j, hj⟩ := List.mem_iff_getElem?.1 hc
      rw [List.getElem?_drop] at hj
      have hbc := le_of_places hsorted hrefl (Nat.le_add_right i j) hb hj
      simpa using fun hca => hnot (htrans b c a hbc hca)
    omega

theorem before_perm (hperm : sorted.Perm rows) (a : α) : before le sorted a = before le rows a := hperm.countP_eq _

theorem upTo_perm (hperm : sorted.Perm rows) (a : α) : upTo le sorted a = upTo le rows a := hperm.countP_eq _

/-! ### What the pages have -/

/-- Where a row has a page of its own, every order has it there. -/
theorem OrderBy.mem_page_of_apart (order : OrderBy le) (hrefl : ∀ a, le a a) {per : Nat} (hper : 0 < per)
    (hapart : before le rows a / per = (upTo le rows a - 1) / per) {n : Nat} :
    a ∈ order.page rows per n ↔ a ∈ rows ∧ (upTo le rows a - 1) / per = n := by
  have hsame {i : Nat} (hi : (order.reorder rows)[i]? = some a) : (upTo le rows a - 1) / per = i / per := by
    obtain ⟨hbefore, hupTo⟩ := place_between (order.sorted rows) hrefl hi
    rw [before_perm (order.perm rows)] at hbefore
    rw [upTo_perm (order.perm rows)] at hupTo
    have hlower := @Nat.div_le_div_right _ _ per hbefore
    have hupper := @Nat.div_le_div_right _ _ per (Nat.le_sub_one_of_lt hupTo)
    omega
  rw [order.mem_page_iff hper]
  constructor
  · rintro ⟨i, hi, rfl⟩
    exact ⟨order.mem_reorder.1 (List.mem_of_getElem? hi), hsame hi⟩
  · rintro ⟨hmem, rfl⟩
    obtain ⟨i, hi⟩ := List.mem_iff_getElem?.1 (order.mem_reorder.2 hmem)
    exact ⟨i, hi, (hsame hi).symm⟩

/-- Among the places of its key, there is an order that has a row at each. -/
theorem OrderBy.exists_place (order : OrderBy le) (htrans : ∀ a b c, le a b → le b c → le a c) (hrefl : ∀ a, le a a)
    (ha : a ∈ rows) (hbefore : before le rows a ≤ i) (hupTo : i < upTo le rows a) :
    ∃ other : OrderBy le, (other.reorder rows)[i]? = some a := by
  classical
  have hcons : (order.reorder rows).Perm (a :: (order.reorder rows).erase a) :=
    List.perm_cons_erase (order.mem_reorder.2 ha)
  have hothers : ((order.reorder rows).erase a).Pairwise le := (order.sorted rows).sublist List.erase_sublist
  generalize (order.reorder rows).erase a = others at hcons hothers
  have hrows : (a :: others).Perm rows := hcons.symm.trans (order.perm rows)
  rw [← before_perm hrows, before, List.countP_cons_of_neg (by simpa using hrefl a)] at hbefore
  rw [← upTo_perm hrows, upTo, List.countP_cons_of_pos (by simpa using hrefl a)] at hupTo
  have hlength : i ≤ others.length := by
    have hall : (others.countP fun b => le b a) ≤ others.length := List.countP_le_length
    omega
  have hsorted : (others.take i ++ a :: others.drop i).Pairwise le := by
    have hsplit := hothers
    rw [← List.take_append_drop i others] at hsplit
    obtain ⟨hfront, hback, hcross⟩ := List.pairwise_append.1 hsplit
    refine List.pairwise_append.2 ⟨hfront, List.pairwise_cons.2 ⟨?_, hback⟩, ?_⟩
    · intro b hb
      obtain ⟨j, hj⟩ := List.mem_iff_getElem?.1 hb
      rw [List.getElem?_drop] at hj
      exact (tied_of_place htrans hothers hrefl hj).1 (Nat.le_trans hbefore (Nat.le_add_right i j))
    · intro b hb c hc
      cases List.mem_cons.1 hc with
      | inr hc => exact hcross b hb c hc
      | inl hc =>
        obtain ⟨j, hj⟩ := List.mem_iff_getElem?.1 hb
        rw [List.getElem?_take] at hj
        split at hj
        · next hlt =>
          have hfew : j < others.countP fun b => le b a := by omega
          exact hc ▸ (tied_of_place htrans hothers hrefl hj).2 hfew
        · cases hj
  have hperm : (others.take i ++ a :: others.drop i).Perm rows := by
    refine (List.perm_middle.trans ?_).trans hrows
    rw [List.take_append_drop]
  refine ⟨⟨fun l => if l = rows then others.take i ++ a :: others.drop i else order.reorder l, fun l => ?_, fun l => ?_⟩, ?_⟩
  · split
    · next h => exact h ▸ hperm
    · exact order.perm l
  · split
    · exact hsorted
    · exact order.sorted l
  · simp [Nat.min_eq_left hlength]

/-- Pages of some orders, one after another. -/
def pagesOf (orders : Nat → OrderBy le) (rows : List α) (per n : Nat) : List α :=
  (List.range n).flatMap fun k => (orders k).page rows per k

/-- What is looked for is on the pages once, if each such row has a page of its own. -/
theorem pages_perm_of_apart (hrefl : ∀ a, le a a) (hnodup : rows.Nodup) {shown : α → Bool} {per n : Nat} (hper : 0 < per)
    (hall : rows.length ≤ per * n) (hapart : PagesApart le rows shown per) (orders : Nat → OrderBy le) :
    ((pagesOf orders rows per n).filter shown).Perm (rows.filter shown) := by
  have hmem {b : α} (hb : shown b) (hrow : b ∈ rows) (k : Nat) :=
    (orders k).mem_page_of_apart hrefl hper (hapart b hrow hb) (n := k)
  have hpage {b : α} {k : Nat} (hb : b ∈ (orders k).page rows per k) : b ∈ rows :=
    (orders k).mem_reorder.1 (List.mem_of_mem_drop (List.mem_of_mem_take hb))
  have hpages : ((pagesOf orders rows per n).filter shown).Nodup := by
    unfold pagesOf
    rw [List.filter_flatMap, List.nodup_flatMap]
    refine ⟨fun k _ => ((orders k).nodup_page hnodup per k).filter shown, List.nodup_range.imp ?_⟩
    intro k k' hne b hb hb'
    obtain ⟨hb, hshown⟩ := List.mem_filter.1 hb
    have hk := ((hmem hshown (hpage hb) k).1 hb).2
    have hk' := ((hmem hshown (hpage hb) k').1 (List.mem_filter.1 hb').1).2
    exact hne (hk.symm.trans hk')
  rw [List.perm_ext_iff_of_nodup hpages (hnodup.filter shown)]
  intro b
  simp only [List.mem_filter]
  unfold pagesOf
  rw [List.mem_flatMap]
  constructor
  · rintro ⟨⟨k, -, hb⟩, hshown⟩
    exact ⟨hpage hb, hshown⟩
  · rintro ⟨hb, hshown⟩
    have hpos : 0 < upTo le rows b := List.countP_pos_iff.2 ⟨b, hb, by simpa using hrefl b⟩
    have hlength : upTo le rows b ≤ rows.length := List.countP_le_length
    exact ⟨⟨_, List.mem_range.2 (Nat.div_lt_of_lt_mul (by omega)), (hmem hshown hb _).2 ⟨hb, rfl⟩⟩, hshown⟩

/-- A row whose key has rows on two pages can be on both. -/
theorem pages_repeat (htrans : ∀ a b c, le a b → le b c → le a c) (hrefl : ∀ a, le a a) (order : OrderBy le) {per n : Nat}
    (hper : 0 < per) (hall : rows.length ≤ per * n) (ha : a ∈ rows)
    (hsplit : before le rows a / per < (upTo le rows a - 1) / per) :
    ∃ orders : Nat → OrderBy le, ∀ shown : α → Bool, shown a → ¬((pagesOf orders rows per n).filter shown).Nodup := by
  generalize hk : before le rows a / per = k at hsplit
  have hm : before le rows a < per * (k + 1) := hk ▸ Nat.lt_mul_div_succ _ hper
  have hm' : per * (k + 1) ≤ upTo le rows a - 1 := by
    rw [Nat.mul_comm]
    exact (Nat.le_div_iff_mul_le hper).1 hsplit
  have hlength : upTo le rows a ≤ rows.length := List.countP_le_length
  -- The next page starts at a place of the key, and so does not the place before.
  obtain ⟨m, hmk⟩ : ∃ m, per * (k + 1) = m + 1 := ⟨per * (k + 1) - 1, by omega⟩
  obtain ⟨one, hone⟩ := order.exists_place htrans hrefl ha (by omega : before le rows a ≤ m) (by omega)
  obtain ⟨other, hother⟩ := order.exists_place htrans hrefl ha (by omega : before le rows a ≤ m + 1) (by omega)
  have hplaces : m / per = k ∧ (m + 1) / per = k + 1 := by
    rw [← hmk, Nat.mul_div_cancel_left _ hper, Nat.div_eq_iff hper, Nat.mul_comm k per]
    rw [Nat.mul_succ] at hmk
    omega
  have hfirst : a ∈ one.page rows per k := (one.mem_page_iff hper).2 ⟨m, hone, hplaces.1⟩
  have hsecond : a ∈ other.page rows per (k + 1) := (other.mem_page_iff hper).2 ⟨m + 1, hother, hplaces.2⟩
  have hkn : k + 1 < n := by
    by_contra hge
    have hle := Nat.mul_le_mul_left per (Nat.le_of_not_lt hge)
    omega
  refine ⟨fun j => if j = k + 1 then other else one, fun shown hshown hnodup => ?_⟩
  unfold pagesOf at hnodup
  rw [List.filter_flatMap] at hnodup
  have hdisjoint := List.pairwise_iff_getElem.1 (List.nodup_flatMap.1 hnodup).2 k (k + 1) (by simp; omega) (by simpa)
    (Nat.lt_succ_self k)
  simp only [List.getElem_range, Function.onFun] at hdisjoint
  exact hdisjoint (List.mem_filter.2 ⟨by simpa using hfirst, hshown⟩) (List.mem_filter.2 ⟨by simpa using hsecond, hshown⟩)

/-- Pages that are asked for one by one, each in an order of its own, have what is looked for once just when each such
row has a page of its own. -/
theorem pages_perm_iff (htotal : ∀ a b, le a b ∨ le b a) (htrans : ∀ a b c, le a b → le b c → le a c) (hnodup : rows.Nodup)
    (shown : α → Bool) {per n : Nat} (hper : 0 < per) (hall : rows.length ≤ per * n) :
    (∀ orders : Nat → OrderBy le, ((pagesOf orders rows per n).filter shown).Perm (rows.filter shown)) ↔
      PagesApart le rows shown per := by
  have hrefl (a : α) : le a a := (htotal a a).elim id id
  constructor
  · intro hperm a ha hshown
    by_contra hne
    have hmem : a ∈ (OrderBy.stable htotal htrans).reorder rows := (OrderBy.stable htotal htrans).mem_reorder.2 ha
    obtain ⟨i, hi⟩ := List.mem_iff_getElem?.1 hmem
    obtain ⟨hbefore, hupTo⟩ := place_between ((OrderBy.stable htotal htrans).sorted rows) hrefl hi
    rw [before_perm ((OrderBy.stable htotal htrans).perm rows)] at hbefore
    rw [upTo_perm ((OrderBy.stable htotal htrans).perm rows)] at hupTo
    have hle : before le rows a / per ≤ (upTo le rows a - 1) / per := Nat.div_le_div_right (by omega)
    obtain ⟨orders, hrepeat⟩ := pages_repeat htrans hrefl (OrderBy.stable htotal htrans) hper hall ha
      (Nat.lt_of_le_of_ne hle hne)
    exact hrepeat shown hshown ((hperm orders).nodup_iff.2 (hnodup.filter shown))
  · exact pages_perm_of_apart hrefl hnodup hper hall

end

end Sql
