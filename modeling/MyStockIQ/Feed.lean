import MyStockIQ.Jobs
/-!
# The feed of a user (`app/models/stream.rb`, `app/models/user.rb`)

`feed` looks up what the user follows, keeps the ids and the types in two lists,
and asks for the streams whose target has its id in the one and its type in the
other. So it shows more than is followed when an id of a followed user is also
the id of a stock.
-/

namespace MyStockIQ

structure Relationship where
  follower_id : Nat
  followed : Ref
  deriving DecidableEq

/-- The rows `Stock.where(id: ..)` or `User.where(id: ..)` finds. -/
def Db.rowsOf (db : Db) (object : Ref) : List Ref :=
  match object.type with
  | .stock => (db.stocks.filter (·.id = object.id)).map fun stock => ⟨.stock, stock.id⟩
  | .user => (db.users.filter (·.id = object.id)).map fun user => ⟨.user, user.id⟩
  | _ => []

/-- The types `followings` looks up. -/
def Ref.followable (object : Ref) : Bool := object.type = .stock ∨ object.type = .user

/-- What the relationships of a user say is followed. -/
def followed (relationships : List Relationship) (user_id : Nat) : List Ref :=
  (relationships.filter (·.follower_id = user_id)).map (·.followed)

/-- `User#followings`: for each relationship to a stock or a user, the rows found. -/
def followings (db : Db) (relationships : List Relationship) (user_id : Nat) : List (List Ref) :=
  ((followed relationships user_id).filter Ref.followable).map db.rowsOf

/-- The loop of `feed`: the ids and the types of `following[0]`, in two lists. -/
def followingIdsAndTypes : List (List Ref) → Except Error (List Nat × List ClassName)
  | [] => .ok ([], [])
  | [] :: _ => .error (.noMethodError "id")
  | (object :: _) :: rest => do
    let (following_ids, following_type) ← followingIdsAndTypes rest
    return (object.id :: following_ids, object.type :: following_type)

/-- `Stream.feed(user)`, the newest first. -/
def Stream.feed (db : Db) (relationships : List Relationship) (user_id : Nat) : Except Error (List Stream) := do
  let (following_ids, following_type) ← followingIdsAndTypes (followings db relationships user_id)
  return (db.streams.filter fun stream =>
    following_ids.contains stream.targetable.id && following_type.contains stream.targetable.type).reverse

/-! ## What is looked up -/

/-- A row that is found is the object that was asked for. -/
theorem rowsOf_eq {db : Db} {object row : Ref} (h : row ∈ db.rowsOf object) : row = object := by
  obtain ⟨type, id⟩ := object
  cases type with
  | stock =>
    obtain ⟨stock, hstock, rfl⟩ := List.mem_map.1 h
    simpa using (List.mem_filter.1 hstock).2
  | user =>
    obtain ⟨user, huser, rfl⟩ := List.mem_map.1 h
    simpa using (List.mem_filter.1 huser).2
  | _ => cases h

theorem rowsOf_cons {db : Db} {object row : Ref} {rows : List Ref} (h : db.rowsOf object = row :: rows) :
    row = object := by
  have hmem : row ∈ db.rowsOf object := by simp [h]
  exact rowsOf_eq hmem

/-- The two lists are the ids and the types of what is followed, if all of it is found. -/
theorem followingIdsAndTypes_found {db : Db} {objects : List Ref} (h : ∀ object ∈ objects, db.rowsOf object ≠ []) :
    followingIdsAndTypes (objects.map db.rowsOf) = .ok (objects.map (·.id), objects.map (·.type)) := by
  induction objects with
  | nil => rfl
  | cons object objects ih =>
    have hrest := ih fun o ho => h o (by simp [ho])
    cases hrows : db.rowsOf object with
    | nil => exact absurd hrows (h object (by simp))
    | cons row rows =>
      obtain rfl := rowsOf_cons hrows
      simp only [List.map_cons, hrows, followingIdsAndTypes, hrest]
      rfl

/-- Otherwise `nil` has no `id`. -/
theorem followingIdsAndTypes_missing {db : Db} {objects : List Ref} {object : Ref} (ho : object ∈ objects)
    (hrows : db.rowsOf object = []) : ∃ e, followingIdsAndTypes (objects.map db.rowsOf) = .error e := by
  induction objects with
  | nil => simp at ho
  | cons other objects ih =>
    rw [List.map_cons]
    cases hother : db.rowsOf other with
    | nil => exact ⟨_, rfl⟩
    | cons row rows =>
      rcases List.mem_cons.1 ho with rfl | ho
      · rw [hrows] at hother; cases hother
      · obtain ⟨e, he⟩ := ih ho
        refine ⟨e, ?_⟩
        simp only [followingIdsAndTypes, he]
        rfl

/-! ## What is shown -/

/-- All that is followed and looked up is there; no stream targets something
followed that is not looked up, nor something not followed with the id of one
followed object and the type of another. -/
structure Unmixed (db : Db) (relationships : List Relationship) (user_id : Nat) : Prop where
  found : ∀ object ∈ followed relationships user_id, object.followable = true → db.rowsOf object ≠ []
  lookedUp : ∀ s ∈ db.streams, s.targetable ∈ followed relationships user_id → s.targetable.followable = true
  paired : ∀ s ∈ db.streams, ∀ a ∈ followed relationships user_id, ∀ b ∈ followed relationships user_id,
    a.followable = true → b.followable = true → a.id = s.targetable.id → b.type = s.targetable.type →
    s.targetable ∈ followed relationships user_id

/-- The feed is there, and holds a stream if and only if its target is followed. -/
def FeedExact (db : Db) (relationships : List Relationship) (user_id : Nat) : Prop :=
  ∃ feed, Stream.feed db relationships user_id = .ok feed ∧
    ∀ s ∈ db.streams, s ∈ feed ↔ s.targetable ∈ followed relationships user_id

theorem feed_found {db : Db} {relationships : List Relationship} {user_id : Nat}
    (h : ∀ object ∈ followed relationships user_id, object.followable = true → db.rowsOf object ≠ []) :
    ∃ feed, Stream.feed db relationships user_id = .ok feed ∧ ∀ s, s ∈ feed ↔ s ∈ db.streams ∧
      ∃ a ∈ followed relationships user_id, ∃ b ∈ followed relationships user_id,
        (a.followable = true ∧ a.id = s.targetable.id) ∧ b.followable = true ∧ b.type = s.targetable.type := by
  have hall : ∀ object ∈ (followed relationships user_id).filter Ref.followable, db.rowsOf object ≠ [] := by
    simpa using h
  have hfound := followingIdsAndTypes_found hall
  unfold Stream.feed followings
  rw [hfound]
  refine ⟨_, rfl, ?_⟩
  intro s
  simp only [List.contains_eq_mem, List.mem_map, List.mem_filter, List.mem_reverse, Bool.and_eq_true,
    decide_eq_true_eq, and_congr_right_iff]
  grind

/-- The feed is exact if and only if followed ids and types do not mix. -/
theorem feed_exact_iff (db : Db) (relationships : List Relationship) (user_id : Nat) :
    FeedExact db relationships user_id ↔ Unmixed db relationships user_id := by
  constructor
  · rintro ⟨feed, hfeed, hexact⟩
    have hfound : ∀ object ∈ followed relationships user_id, object.followable = true → db.rowsOf object ≠ [] := by
      intro object hobject hfollowable hrows
      have hmem : object ∈ (followed relationships user_id).filter Ref.followable := by
        simp [hobject, hfollowable]
      obtain ⟨e, he⟩ := followingIdsAndTypes_missing hmem hrows
      unfold Stream.feed followings at hfeed
      rw [he] at hfeed
      cases hfeed
    obtain ⟨feed', hfeed', hmem⟩ := feed_found hfound
    obtain rfl : feed = feed' := by
      rw [hfeed] at hfeed'
      exact Except.ok.inj hfeed'
    refine ⟨hfound, ?_, ?_⟩
    · intro s hs hfollowed
      obtain ⟨-, -, -, b, -, -, hb, htype⟩ := (hmem s).1 ((hexact s hs).2 hfollowed)
      simpa [Ref.followable, htype] using hb
    · intro s hs a ha b hb hfa hfb hid htype
      apply (hexact s hs).1
      apply (hmem s).2
      exact ⟨hs, a, ha, b, hb, ⟨hfa, hid⟩, hfb, htype⟩
  · intro h
    obtain ⟨feed, hfeed, hmem⟩ := feed_found h.found
    refine ⟨feed, hfeed, ?_⟩
    intro s hs
    rw [hmem]
    constructor
    · rintro ⟨-, a, ha, b, hb, ⟨hfa, hid⟩, hfb, htype⟩
      exact h.paired s hs a ha b hb hfa hfb hid htype
    · intro hfollowed
      have hfollowable := h.lookedUp s hs hfollowed
      exact ⟨hs, _, hfollowed, _, hfollowed, ⟨hfollowable, rfl⟩, hfollowable, rfl⟩

/-- Users 1 and 2, stocks 2 and 3, and a comment on stock 2. -/
def commented : Db :=
  { oneStock with
    users := [⟨1, "analyst"⟩, ⟨2, "trader"⟩]
    stocks := [⟨2, "A stock", "ABC", none, none, none, 0⟩, ⟨3, "Another stock", "DEF", none, none, none, 0⟩]
    streams := [⟨⟨.comment, 1⟩, ⟨.stock, 2⟩⟩] }

/-- User 1 follows user 2 and stock 3: the comment on stock 2 is in the feed. -/
theorem feed_mixes : ¬∀ db relationships user_id, FeedExact db relationships user_id := by
  intro h
  obtain ⟨feed, hfeed, hexact⟩ := h commented [⟨1, ⟨.user, 2⟩⟩, ⟨1, ⟨.stock, 3⟩⟩] 1
  have hall : Stream.feed commented [⟨1, ⟨.user, 2⟩⟩, ⟨1, ⟨.stock, 3⟩⟩] 1 = .ok commented.streams := by decide
  obtain rfl : commented.streams = feed := Except.ok.inj (hall.symm.trans hfeed)
  exact absurd ((hexact ⟨⟨.comment, 1⟩, ⟨.stock, 2⟩⟩ (by decide)).1 (by decide)) (by decide)

end MyStockIQ
