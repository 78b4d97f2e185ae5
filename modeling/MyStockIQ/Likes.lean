import MyStockIQ.Sweep
import MyStockIQ.SharedStore.History
import MyStockIQ.SharedStore.KeyedRows
import Mathlib.Algebra.BigOperators.Finprod
/-!
# Likes (`app/controllers/likes_controller.rb`)

A user who likes or dislikes an item loses the like that was there, and one who
takes it back must name its type. Nothing in the schema keeps a user from two likes
of one item: it is `create`, which destroys the row it finds before it inserts one,
that makes of the table the map of the last actions (`likes_last_actions`).
-/

open SharedStore Prog

namespace MyStockIQ.Likes

structure Like extends Sweep.Like where
  id : Nat
  user_id : Nat
  deriving DecidableEq

structure Table where
  likes : List Like
  like_seq : Nat
  deriving DecidableEq

/-- Whose like of what it is. -/
def Like.key (like : Like) : Nat × Ref := (like.user_id, like.likable)

/-! ## Requests -/

inductive Query where
  | like (user_id : Nat) (likable : Ref)
  | likeOf (user_id : Nat) (likable : Ref) (like_type : Option String)

inductive Stmt where
  | select (query : Query)
  | insert (row : Like)
  | destroy (id : Nat)

def Table.exec (table : Table) : Stmt → Table
  | .select _ => table
  | .insert row => ⟨table.likes ++ [{ row with id := table.like_seq }], table.like_seq + 1⟩
  | .destroy id => { table with likes := drop Like.id id table.likes }

abbrev Request := Prog Stmt Table Error

/-- `value`, or the exception of calling `method` on `nil`. -/
def orNil {α : Type} (value : Option α) (method : String) : Request α :=
  match value with
  | some a => .ret a
  | none => .raise (.noMethodError method)

structure LikeParams where
  like_type : Option String
  likable : Ref
  deriving DecidableEq

/-- `create`, where `user_id` is that of `current_user`. -/
def LikesController.create (user_id : Option Nat) (params : LikeParams) : Request Unit := do
  let user_id ← orNil user_id "id"
  let existing_like ← Prog.query (.select (.like user_id params.likable)) fun table =>
    table.likes.find? (·.key = (user_id, params.likable))
  match existing_like with
  | some like => Prog.exec (.destroy like.id)
  | none => pure ()
  Prog.exec (.insert ⟨⟨params.like_type, params.likable⟩, 0, user_id⟩)

def LikesController.destroy (user_id : Option Nat) (params : LikeParams) : Request Unit := do
  let user_id ← orNil user_id "id"
  let found ← Prog.query (.select (.likeOf user_id params.likable params.like_type)) fun table =>
    table.likes.find? fun row => row.key = (user_id, params.likable) ∧ row.like_type = params.like_type
  let like ← orNil found "destroy"
  Prog.exec (.destroy like.id)

inductive Visit where
  | create (user_id : Option Nat) (params : LikeParams)
  | destroy (user_id : Option Nat) (params : LikeParams)
  deriving DecidableEq

def Visit.request : Visit → Request Unit
  | create user_id params => LikesController.create user_id params
  | destroy user_id params => LikesController.destroy user_id params

/-- The table a visit leaves, also if it ends with an exception. -/
def Visit.run (visit : Visit) (table : Table) : Table := (visit.request.run Table.exec table).2

def Table.empty : Table := ⟨[], 1⟩

/-- The table some visits leave, from the empty one. -/
def after (log : List Visit) : Table := log.foldl (fun table visit => visit.run table) .empty

/-! ## The last actions -/

/-- What users think of items. -/
abbrev Reactions := Nat × Ref → Option (Option String)

/-- A `create` sets the reaction, and a `destroy` takes it back if it is of that type. -/
def Visit.react (reactions : Reactions) : Visit → Reactions
  | create (some user_id) params => Function.update reactions (user_id, params.likable) (some params.like_type)
  | destroy (some user_id) params =>
    if reactions (user_id, params.likable) = some params.like_type then
      Function.update reactions (user_id, params.likable) none
    else reactions
  | _ => reactions

/-- The map of the last actions. -/
def lastActions (log : List Visit) : Reactions := log.foldl Visit.react fun _ => none

/-- The visit creates a like of the key, or takes one of this type back. -/
def Visit.Decides (key : Nat × Ref) (like_type : Option String) : Visit → Prop
  | create user_id params => user_id = some key.1 ∧ params.likable = key.2
  | destroy user_id params => user_id = some key.1 ∧ params.likable = key.2 ∧ params.like_type = like_type

/-- The last of the creates that is not followed by a matching destroy. -/
def Created (log : List Visit) (key : Nat × Ref) (like_type : Option String) : Prop :=
  Last (Visit.Decides key like_type) log (.create (some key.1) ⟨like_type, key.2⟩)

theorem lastActions_append (log : List Visit) (visit : Visit) :
    lastActions (log ++ [visit]) = visit.react (lastActions log) := by
  simp [lastActions, List.foldl_append]

/-- A deciding visit leaves the reaction just if it is the create. -/
theorem Visit.react_of_decides {visit : Visit} {key : Nat × Ref} {like_type : Option String}
    (hdecides : visit.Decides key like_type) (reactions : Reactions) :
    visit.react reactions key = some like_type ↔ visit = .create (some key.1) ⟨like_type, key.2⟩ := by
  cases visit with
  | create user_id params =>
    obtain ⟨rfl, hlikable⟩ := hdecides
    obtain ⟨type, likable⟩ := params
    obtain rfl : likable = key.2 := hlikable
    simp [Visit.react]
  | destroy user_id params =>
    obtain ⟨rfl, hlikable, htype⟩ := hdecides
    obtain ⟨type, likable⟩ := params
    obtain rfl : likable = key.2 := hlikable
    obtain rfl : type = like_type := htype
    refine iff_of_false ?_ (by simp)
    simp only [Visit.react]
    split
    · simp
    · next hnot => exact hnot

/-- Any other visit leaves it as it is, if it is the reaction asked for. -/
theorem Visit.react_of_not {visit : Visit} {key : Nat × Ref} {like_type : Option String}
    (hdecides : ¬visit.Decides key like_type) (reactions : Reactions) :
    visit.react reactions key = some like_type ↔ reactions key = some like_type := by
  cases visit with
  | create user_id params =>
    cases user_id with
    | none => rfl
    | some user_id =>
      have hne : key ≠ (user_id, params.likable) := by
        rintro rfl
        exact hdecides ⟨rfl, rfl⟩
      simp [Visit.react, Function.update_of_ne hne]
  | destroy user_id params =>
    cases user_id with
    | none => rfl
    | some user_id =>
      by_cases hkey : key = (user_id, params.likable)
      · -- Of another type: what it takes back is not the reaction asked for.
        subst hkey
        have htype : params.like_type ≠ like_type := fun h => hdecides ⟨rfl, rfl, h⟩
        simp only [Visit.react]
        split
        · next hsame => simp [hsame, htype]
        · rfl
      · simp only [Visit.react]
        split
        · rw [Function.update_of_ne hkey]
        · rfl

theorem lastActions_iff (log : List Visit) (key : Nat × Ref) (like_type : Option String) :
    lastActions log key = some like_type ↔ Created log key like_type := by
  induction log using List.reverseRecOn with
  | nil => exact iff_of_false (by simp [lastActions]) not_last_nil
  | append_singleton log visit ih =>
    rw [lastActions_append]
    unfold Created at ih ⊢
    by_cases hdecides : visit.Decides key like_type
    · rw [last_append_of hdecides, Visit.react_of_decides hdecides, eq_comm]
    · rw [last_append_of_not hdecides, ← ih, Visit.react_of_not hdecides]

/-! ## The table -/

/-- No user has two likes of one item, and ids are not given twice. -/
structure Table.Wf (table : Table) : Prop where
  keys : UniqueKeys Like.key table.likes
  ids : UniqueKeys Like.id table.likes
  id_lt : ∀ like ∈ table.likes, like.id < table.like_seq

/-- The reactions the rows stand for. -/
def Table.reactions (table : Table) : Reactions := fun key => (lookup Like.key table.likes key).map (·.like_type)

section
variable {table : Table}

theorem Table.Wf.without (h : table.Wf) (key : Nat × Ref) : Table.Wf { table with likes := drop Like.key key table.likes } :=
  ⟨h.keys.drop key, h.ids.sublist List.filter_sublist, fun like hmem => h.id_lt like (List.mem_filter.1 hmem).1⟩

/-- The table with a like for its key. -/
def Table.liked (table : Table) (like : Like) : Table :=
  ⟨put Like.key { like with id := table.like_seq } table.likes, table.like_seq + 1⟩

theorem Table.Wf.liked (h : table.Wf) (like : Like) : (table.liked like).Wf := by
  have hold : ∀ other ∈ drop Like.key like.key table.likes, other.id < table.like_seq :=
    fun other hmem => h.id_lt other (List.mem_filter.1 hmem).1
  refine ⟨h.keys.put _, ?_, ?_⟩
  · refine List.pairwise_append.2 ⟨h.ids.sublist List.filter_sublist, List.pairwise_singleton _ _, ?_⟩
    intro other hother new hnew
    obtain rfl := List.mem_singleton.1 hnew
    exact (hold other hother).ne
  · intro other hmem
    rcases List.mem_append.1 hmem with hmem | hmem
    · exact Nat.lt_succ_of_lt (hold other hmem)
    · obtain rfl := List.mem_singleton.1 hmem
      exact Nat.lt_succ_self table.like_seq

theorem reactions_drop (key : Nat × Ref) :
    Table.reactions { table with likes := drop Like.key key table.likes } = Function.update table.reactions key none := by
  funext other
  by_cases hother : other = key
  · subst hother
    rw [Function.update_self]
    unfold Table.reactions
    rw [lookup_drop_self]
    rfl
  · rw [Function.update_of_ne hother]
    unfold Table.reactions
    rw [lookup_drop_ne hother]

theorem reactions_liked (like : Like) :
    (table.liked like).reactions = Function.update table.reactions like.key (some like.like_type) := by
  funext other
  by_cases hother : other = like.key
  · subst hother
    rw [Function.update_self]
    exact congrArg (Option.map _) lookup_put_self
  · rw [Function.update_of_ne hother]
    exact congrArg (Option.map _) (lookup_put_ne hother)

/-! ## One visit -/

/-- `create` takes the place of the like that was there. -/
theorem run_create (h : table.Wf) (user_id : Nat) (params : LikeParams) :
    (Visit.create (some user_id) params).run table = table.liked ⟨⟨params.like_type, params.likable⟩, 0, user_id⟩ := by
  let key : Nat × Ref := (user_id, params.likable)
  simp only [Visit.run, Visit.request, LikesController.create, orNil, bind_eq, ret_bind, query_bind, run_step, Table.exec]
  cases hfound : table.likes.find? (·.key = key) with
  | none =>
    have hnone : drop Like.key key table.likes = table.likes := by
      refine List.filter_eq_self.2 fun like hmem => ?_
      simpa using List.find?_eq_none.1 hfound like hmem
    unfold Table.liked put
    rw [show Like.key _ = key from rfl, hnone]
    rfl
  | some like =>
    obtain ⟨hmem, hkey⟩ := lookup_some hfound
    -- The row is destroyed by its id, and no other row has its key.
    have hdrop : drop Like.id like.id table.likes = drop Like.key key table.likes := by
      rw [← hkey]
      exact h.keys.drop_eq h.ids hmem
    unfold Table.liked put
    rw [show Like.key _ = key from rfl, ← hdrop]
    rfl

/-- `destroy` takes the like back if it is of the type, and raises otherwise. -/
theorem run_destroy (h : table.Wf) (user_id : Nat) (params : LikeParams) :
    (Visit.destroy (some user_id) params).run table =
      if table.reactions (user_id, params.likable) = some params.like_type then
        { table with likes := drop Like.key (user_id, params.likable) table.likes }
      else table := by
  let key : Nat × Ref := (user_id, params.likable)
  simp only [Visit.run, Visit.request, LikesController.destroy, orNil, bind_eq, ret_bind, query_bind, run_step, Table.exec]
  cases hfound : table.likes.find? fun row => row.key = key ∧ row.like_type = params.like_type with
  | none =>
    rw [if_neg]
    · rfl
    · intro hreaction
      obtain ⟨like, hlike, htype⟩ := Option.map_eq_some_iff.1 hreaction
      obtain ⟨hmem, hkey⟩ := lookup_some hlike
      -- The row of the key would have been found by its type.
      have hnot := List.find?_eq_none.1 hfound like hmem
      simp [hkey, htype, key] at hnot
  | some like =>
    have hmem := List.mem_of_find?_eq_some hfound
    obtain ⟨hkey, htype⟩ : like.key = key ∧ like.like_type = params.like_type := by
      simpa using List.find?_some hfound
    have hreaction : table.reactions key = some params.like_type := by
      unfold Table.reactions
      rw [← hkey, h.keys.lookup_eq hmem, Option.map_some, htype]
    rw [if_pos hreaction]
    have hdrop : drop Like.id like.id table.likes = drop Like.key key table.likes := by
      rw [← hkey]
      exact h.keys.drop_eq h.ids hmem
    rw [← hdrop]
    rfl

theorem Table.Wf.visit (h : table.Wf) (visit : Visit) : (visit.run table).Wf := by
  cases visit with
  | create user_id params =>
    cases user_id with
    | none => exact h
    | some user_id =>
      rw [run_create h]
      exact h.liked _
  | destroy user_id params =>
    cases user_id with
    | none => exact h
    | some user_id =>
      rw [run_destroy h]
      split
      · exact h.without _
      · exact h

/-- What the visit does to the rows it does to the reactions. -/
theorem reactions_visit (h : table.Wf) (visit : Visit) :
    (visit.run table).reactions = visit.react table.reactions := by
  cases visit with
  | create user_id params =>
    cases user_id with
    | none => rfl
    | some user_id =>
      rw [run_create h]
      exact reactions_liked _
  | destroy user_id params =>
    cases user_id with
    | none => rfl
    | some user_id =>
      rw [run_destroy h]
      simp only [Visit.react]
      split
      · exact reactions_drop _
      · rfl

end

/-! ## Runs -/

theorem after_append (log : List Visit) (visit : Visit) : after (log ++ [visit]) = visit.run (after log) := by
  simp [after, List.foldl_append]

theorem wf_after (log : List Visit) : (after log).Wf := by
  induction log using List.reverseRecOn with
  | nil => exact ⟨.nil, .nil, by simp [after, Table.empty]⟩
  | append_singleton log visit ih =>
    rw [after_append]
    exact ih.visit visit

/-- The table refines the map. -/
theorem reactions_after (log : List Visit) : (after log).reactions = lastActions log := by
  induction log using List.reverseRecOn with
  | nil => rfl
  | append_singleton log visit ih =>
    rw [after_append, lastActions_append, reactions_visit (wf_after log), ih]

/-! ## Counting -/

/-- What a like counts for. -/
def sign (like_type : Option String) : Int :=
  if like_type = some "like" then 1 else if like_type = some "dislike" then -1 else 0

/-- The tables of the sweep, with these likes. -/
def Table.inside (table : Table) (tables : Sweep.Tables) : Sweep.Tables :=
  { tables with likes := table.likes.map (·.toLike) }

theorem count_signs (likes : List Sweep.Like) (likable : Ref) :
    (((likes.filter fun like => like.likable = likable ∧ like.like_type = some "like").length : Nat) : Int) -
      ((likes.filter fun like => like.likable = likable ∧ like.like_type = some "dislike").length : Nat) =
      ((likes.filter (·.likable = likable)).map fun like => sign like.like_type).sum := by
  induction likes with
  | nil => rfl
  | cons like likes ih =>
    by_cases hlikable : like.likable = likable
    · have hcons : (like :: likes).filter (·.likable = likable) = like :: likes.filter (·.likable = likable) :=
        List.filter_cons_of_pos (by simpa using hlikable)
      rw [hcons, List.map_cons, List.sum_cons, ← ih]
      by_cases hlike : like.like_type = some "like"
      · simp [hlikable, hlike, sign]
        ring
      · by_cases hdislike : like.like_type = some "dislike"
        · simp [hlikable, hdislike, sign]
          ring
        · simp [hlike, hdislike, sign]
    · rw [List.filter_cons_of_neg (by simp [hlikable]), List.filter_cons_of_neg (by simp [hlikable]),
        List.filter_cons_of_neg (by simpa using hlikable)]
      exact ih

/-- The rows of an item, one a user, add up to the reactions to it. -/
theorem sum_signs {table : Table} (h : table.Wf) (likable : Ref) :
    ((table.likes.filter (·.likable = likable)).map fun like => sign like.like_type).sum =
      ∑ᶠ user_id, (table.reactions (user_id, likable)).elim 0 sign := by
  let likes := table.likes.filter (·.likable = likable)
  have hmem {like : Like} (hlike : like ∈ likes) : like ∈ table.likes ∧ like.likable = likable := by
    simpa [likes] using hlike
  have hnodup : (likes.map (·.user_id)).Nodup := by
    refine List.pairwise_map.2 ((h.keys.sublist List.filter_sublist).imp_of_mem ?_)
    intro like other hlike hother hne hsame
    exact hne (Prod.ext hsame ((hmem hlike).2.trans (hmem hother).2.symm))
  have hreaction {like : Like} (hlike : like ∈ likes) : table.reactions (like.user_id, likable) = some like.like_type := by
    obtain ⟨htable, rfl⟩ := hmem hlike
    exact congrArg (Option.map _) (h.keys.lookup_eq htable)
  rw [finsum_eq_sum_of_support_subset (s := (likes.map (·.user_id)).toFinset)]
  · rw [List.sum_toFinset _ hnodup, List.map_map]
    refine congrArg List.sum (List.map_congr_left fun like hlike => ?_)
    rw [Function.comp_apply, hreaction hlike]
    rfl
  · intro user_id hsupport
    -- Who counts for something has a row.
    cases hlookup : lookup Like.key table.likes (user_id, likable) with
    | none => simp [Table.reactions, hlookup] at hsupport
    | some like =>
      obtain ⟨htable, hkey⟩ := lookup_some hlookup
      obtain ⟨rfl, rfl⟩ : like.user_id = user_id ∧ like.likable = likable := by simpa [Like.key] using hkey
      have hlike : like ∈ likes := List.mem_filter.2 ⟨htable, by simp⟩
      simpa using ⟨like, hlike, rfl⟩

/-- The table is the map of the last actions of `log`. -/
structure IsLastActions (log : List Visit) (table : Table) : Prop where
  one : ∀ user_id likable, (table.likes.filter (·.key = (user_id, likable))).length ≤ 1
  last : ∀ user_id likable like_type,
    (∃ like ∈ table.likes, like.key = (user_id, likable) ∧ like.like_type = like_type) ↔
      Created log (user_id, likable) like_type
  count : ∀ tables likable, ((table.inside tables).likesCount likable : Int) - (table.inside tables).dislikesCount likable =
    ∑ᶠ user_id, (lastActions log (user_id, likable)).elim 0 sign
  unmatched : ∀ user_id params,
    (∀ like ∈ table.likes, some like.user_id = user_id → like.likable = params.likable → like.like_type ≠ params.like_type) →
      (Visit.destroy user_id params).run table = table

theorem likes_last_actions (log : List Visit) : IsLastActions log (after log) := by
  have hwf := wf_after log
  have hreactions := reactions_after log
  refine ⟨?_, ?_, ?_, ?_⟩
  · exact fun user_id likable => hwf.keys.length_le_one (user_id, likable)
  · intro user_id likable like_type
    rw [← lastActions_iff, ← hreactions]
    constructor
    · rintro ⟨like, hmem, hkey, rfl⟩
      rw [← hkey]
      exact congrArg (Option.map _) (hwf.keys.lookup_eq hmem)
    · intro hreaction
      obtain ⟨like, hlike, htype⟩ := Option.map_eq_some_iff.1 hreaction
      obtain ⟨hmem, hkey⟩ := lookup_some hlike
      exact ⟨like, hmem, hkey, htype⟩
  · intro tables likable
    rw [← hreactions, ← sum_signs hwf]
    have hlikes : ((after log).inside tables).likes = (after log).likes.map (·.toLike) := rfl
    refine (count_signs _ likable).trans ?_
    rw [hlikes, List.filter_map, List.map_map]
    rfl
  · intro user_id params hnone
    cases user_id with
    | none => rfl
    | some user_id =>
      rw [run_destroy hwf, if_neg]
      intro hreaction
      obtain ⟨like, hlike, htype⟩ := Option.map_eq_some_iff.1 hreaction
      obtain ⟨hmem, hkey⟩ := lookup_some hlike
      obtain ⟨huser, hlikable⟩ := Prod.mk.inj hkey
      exact hnone like hmem (congrArg some huser) hlikable htype

end MyStockIQ.Likes
