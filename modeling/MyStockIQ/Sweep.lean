import MyStockIQ.Posts
import MyStockIQ.SharedStore.Twin
import Mathlib.Data.Set.Insert
/-!
# The popularity sweep (`app/models/popularity.rb`, `app/models/stream.rb`)

Every ten minutes `update_popularity_scores` goes through the streams and gives
the popularity of each streamable, and of each reply to it, a new score. The
score of a Predictionend takes in the one its prediction has at that time; all
else that is read is not written by the sweep. So if a prediction comes before
its Predictionend, what the sweep writes does not depend on the scores it finds
(`sweep_of_data`).
-/

open SharedStore Prog

namespace MyStockIQ.Sweep

structure Like where
  like_type : Option String
  likable : Ref
  deriving DecidableEq

/-- A row of `popularities`. Its score is the only column the sweep writes, and is kept apart. -/
structure Popularity where
  id : Nat
  popularable : Ref
  created_at : Time
  deriving DecidableEq

/-- What the sweep reads and does not write. -/
structure Tables where
  comments : List Posts.Comment
  newsarticles : List Posts.Newsarticle
  predictions : List Prediction
  predictionends : List Predictionend
  replies : List Posts.Reply
  likes : List Like
  streams : List Stream
  popularities : List Popularity

/-- The numbers scores are made of. -/
structure Functions (R : Type) where
  /-- `Math.log` -/
  log : Nat → R
  /-- The score of a prediction. -/
  score : Number → R
  /-- A time difference, in seconds. -/
  seconds : Time → R
  /-- `round(6)` -/
  round : R → R

inductive Stmt (R : Type) where
  | score (id : Nat)
  | updateScore (id : Nat) (score : R)

/-- The store is the score column of `popularities`. -/
def exec {R : Type} (score : Nat → R) : Stmt R → Nat → R
  | .score _ => score
  | .updateScore id value => Function.update score id value

abbrev Request (R : Type) := Prog (Stmt R) (Nat → R) Error

namespace Tables

/-- Whether the row is there, and can have likes. -/
def has (tables : Tables) (row : Ref) : Bool :=
  match row.type with
  | .comment => tables.comments.any (·.id = row.id)
  | .newsarticle => tables.newsarticles.any (·.id = row.id)
  | .prediction => tables.predictions.any (·.id = row.id)
  | .predictionend => tables.predictionends.any (·.id = row.id)
  | .reply => tables.replies.any (·.id = row.id)
  | .user | .stock => false

/-- `popularity` -/
def popularity (tables : Tables) (popularable : Ref) : Option Popularity :=
  tables.popularities.find? (·.popularable = popularable)

/-- `replies`, the newest first -/
def repliesTo (tables : Tables) (repliable : Ref) : List Posts.Reply :=
  (tables.replies.filter fun reply =>
    reply.repliable_type = Posts.className repliable.type ∧ reply.repliable_id = (repliable.id : Int)).reverse

def likesCount (tables : Tables) (likable : Ref) : Nat :=
  (tables.likes.filter fun like => like.likable = likable ∧ like.like_type = some "like").length

def dislikesCount (tables : Tables) (likable : Ref) : Nat :=
  (tables.likes.filter fun like => like.likable = likable ∧ like.like_type = some "dislike").length

/-- Likes less dislikes, of the row itself. -/
def ownLikes (tables : Tables) (likable : Ref) : Int := tables.likesCount likable - tables.dislikesCount likable

/-- `net_likes`, with those of the replies. -/
def netLikes (tables : Tables) (popularable : Ref) : Int :=
  if popularable.type = .reply then tables.ownLikes popularable
  else
    (tables.repliesTo popularable).foldl (fun net_likes reply => net_likes + tables.ownLikes ⟨.reply, reply.id⟩)
      (tables.ownLikes popularable)

end Tables

section
variable {R : Type} [Add R] [Sub R] [Mul R] [Div R] [NatCast R] (f : Functions R) (tables : Tables) (now : Time)

/-- The score of a prediction is added, or that of the popularity of the prediction that ended. -/
def addPredictionScore (popularable : Ref) (score : R) : Request R R :=
  match popularable.type with
  | .prediction =>
    match tables.predictions.find? (·.id = popularable.id) with
    | none => .raise (.noMethodError "score")
    | some prediction => .ret (score + f.score prediction.score)
  | .predictionend =>
    match tables.predictionends.find? (·.id = popularable.id) with
    | none => .raise (.noMethodError "prediction")
    | some predictionend =>
      match tables.predictions.find? (·.id = predictionend.prediction_id) with
      | none => .raise (.noMethodError "popularity")
      | some prediction =>
        match tables.popularity ⟨.prediction, prediction.id⟩ with
        | none => .raise (.noMethodError "score")
        | some popularity => do
          let predictionend_score ← Prog.query (.score popularity.id) (· popularity.id)
          return score + predictionend_score
  | _ => .ret score

def decayRate (popularable : Ref) : Nat := if popularable.type = .newsarticle then 8 else 2

/-- `update_score` -/
def Popularity.updateScore (self : Popularity) : Request R Unit :=
  if tables.has self.popularable then do
    let net_likes := tables.netLikes self.popularable
    let score := f.log (if net_likes ≤ 0 then 1 else net_likes.toNat)
    let score ← addPredictionScore f tables self.popularable score
    let score := score - (decayRate self.popularable : R) * f.seconds (now - self.created_at) / ((60 * 60 * 24 : Nat) : R)
    Prog.exec (.updateScore self.id (f.round score))
  else .raise (.noMethodError "likes_count")

/-- `popularity.update_score` -/
def updatePopularity (popularable : Ref) : Request R Unit :=
  match tables.popularity popularable with
  | none => .raise (.noMethodError "update_score")
  | some popularity => popularity.updateScore f tables now

/-- `update_stream_popularity_score` -/
def updateStreamPopularityScore (self : Stream) : Request R Unit :=
  if tables.has self.streamable then do
    updatePopularity f tables now self.streamable
    if self.streamable.type = .reply then .raise (.noMethodError "replies")
    else Prog.each (fun reply => updatePopularity f tables now ⟨.reply, reply.id⟩) (tables.repliesTo self.streamable)
  else .raise (.noMethodError "popularity")

/-- `ten_minute_updates:update_popularity_scores`. The streams are listed in the
order of their ids, which is the order `find_each` goes by. -/
def updatePopularityScores : Request R Unit :=
  Prog.each (updateStreamPopularityScore f tables now) tables.streams

/-- How a sweep ends, and the scores it leaves. -/
def sweep (score : Nat → R) : Except Error Unit × (Nat → R) := (updatePopularityScores f tables now).run exec score

end

/-! ## Two sweeps of the same tables -/

/-- What a sweep relies on: one popularity for each streamable, each reply to it
and the prediction of each Predictionend, and that prediction in a stream before any of its
Predictionend. -/
structure WellKept (tables : Tables) : Prop where
  streamable : ∀ stream ∈ tables.streams,
    ∃! row, row ∈ tables.popularities ∧ row.popularable = stream.streamable
  reply : ∀ stream ∈ tables.streams, ∀ reply ∈ tables.repliesTo stream.streamable,
    ∃! row, row ∈ tables.popularities ∧ row.popularable = ⟨.reply, reply.id⟩
  prediction : ∀ predictionend ∈ tables.predictionends,
    ∃! row, row ∈ tables.popularities ∧ row.popularable = ⟨.prediction, predictionend.prediction_id⟩
  earlier : ∀ predictionend ∈ tables.predictionends, ∀ before stream after,
    tables.streams = before ++ stream :: after → stream.streamable = ⟨.predictionend, predictionend.id⟩ →
      ∃ s ∈ before, s.streamable = ⟨.prediction, predictionend.prediction_id⟩

/-- What a stream has the popularity of updated. -/
def Tables.visited (tables : Tables) (stream : Stream) : List Ref :=
  stream.streamable :: (tables.repliesTo stream.streamable).map fun reply => ⟨.reply, reply.id⟩

/-- The row is the popularity of one of these. -/
def Tables.In (tables : Tables) (visited : List Ref) (row : Popularity) : Prop :=
  row ∈ tables.popularities ∧ row.popularable ∈ visited

section
variable {R : Type}

/-- Two score columns that were `start` and `start'` are the same now where rows are
fresh; elsewhere they are the same, or still what they were. -/
structure Alike (start start' : Nat → R) (fresh : Popularity → Prop) (score score' : Nat → R) : Prop where
  fresh : ∀ row, fresh row → score row.id = score' row.id
  kept : ∀ id, score id = score' id ∨ score id = start id ∧ score' id = start' id

variable {start start' score score' : Nat → R} {fresh fresh' : Popularity → Prop}

theorem Alike.mono (h : Alike start start' fresh score score') (hfresh : ∀ row, fresh' row → fresh row) :
    Alike start start' fresh' score score' :=
  ⟨fun row hrow => h.fresh row (hfresh row hrow), h.kept⟩

/-- A row that gets the same score in both is fresh. -/
theorem Alike.update (h : Alike start start' fresh score score') (row : Popularity) (value : R) :
    Alike start start' (fun other => fresh other ∨ other = row) (Function.update score row.id value)
      (Function.update score' row.id value) := by
  constructor
  · rintro other hother
    by_cases hid : other.id = row.id
    · rw [hid, Function.update_self, Function.update_self]
    · rw [Function.update_of_ne hid, Function.update_of_ne hid]
      rcases hother with hother | rfl
      · exact h.fresh other hother
      · exact absurd rfl hid
  · intro id
    by_cases hid : id = row.id
    · left
      rw [hid, Function.update_self, Function.update_self]
    · rw [Function.update_of_ne hid, Function.update_of_ne hid]
      exact h.kept id

/-- Nothing is fresh any more, but what was kept still is. -/
abbrev Stopped (start start' : Nat → R) : (Nat → R) → (Nat → R) → Prop := Alike start start' fun _ => False

theorem twin_raise {α : Type} {Q : α → (Nat → R) → (Nat → R) → Prop} (e : Error) :
    Twin exec (Alike start start' fresh) (.raise e : Request R α) Q (Stopped start start') :=
  .raise fun _ _ hs => hs.mono fun _ hrow => hrow.elim

/-- Of two columns of which the second was the first, the second has not moved. -/
theorem Alike.settled (h : Alike start score fresh score score') : score' = score := by
  funext id
  rcases h.kept id with hsame | ⟨-, hkept⟩
  · exact hsame.symm
  · exact hkept

variable [Add R] {f : Functions R} {tables : Tables} {now : Time} {visited : List Ref} {popularable : Ref}

/-- The prediction whose score a Predictionend takes in has been visited. -/
def Reads (tables : Tables) (visited : List Ref) (popularable : Ref) : Prop :=
  ∀ predictionend ∈ tables.predictionends, popularable = ⟨.predictionend, predictionend.id⟩ →
    ⟨.prediction, predictionend.prediction_id⟩ ∈ visited

theorem popularity_mem {row : Popularity} (h : tables.popularity popularable = some row) :
    row ∈ tables.popularities ∧ row.popularable = popularable :=
  ⟨List.mem_of_find?_eq_some h, by simpa using List.find?_some h⟩

theorem twin_addPredictionScore (h : Reads tables visited popularable) (score : R) :
    Twin exec (Alike start start' (tables.In visited)) (addPredictionScore f tables popularable score)
      (fun _ => Alike start start' (tables.In visited)) (Stopped start start') := by
  unfold addPredictionScore
  split
  · split
    · exact twin_raise _
    · exact .ret fun _ _ hs => hs
  · next htype =>
    split
    · exact twin_raise _
    · next predictionend hfound =>
      split
      · exact twin_raise _
      · next prediction hprediction =>
        split
        · exact twin_raise _
        · next row hrow =>
          have hid : predictionend.id = popularable.id := by simpa using List.find?_some hfound
          have hprediction_id : prediction.id = predictionend.prediction_id := by
            simpa using List.find?_some hprediction
          obtain ⟨hmem, hpopularable⟩ := popularity_mem hrow
          have hfresh : tables.In visited row := by
            refine ⟨hmem, ?_⟩
            rw [hpopularable, hprediction_id]
            refine h predictionend (List.mem_of_find?_eq_some hfound) ?_
            rw [hid, ← htype]
          exact .bind (.query (fun _ => rfl) fun _ _ hs => hs.fresh row hfresh) fun _ => .ret fun _ _ hs => hs
  · exact .ret fun _ _ hs => hs

variable [Sub R] [Mul R] [Div R] [NatCast R]

theorem twin_updateScore {row : Popularity} (h : Reads tables visited row.popularable) :
    Twin exec (Alike start start' (tables.In visited)) (row.updateScore f tables now)
      (fun _ => Alike start start' fun other => tables.In visited other ∨ other = row) (Stopped start start') := by
  unfold Popularity.updateScore
  split
  · exact .bind (twin_addPredictionScore h _) fun _ => .exec fun _ _ hs => hs.update row _
  · exact twin_raise _

/-- The popularity of a row is the only one it has. -/
theorem twin_updatePopularity (h : Reads tables visited popularable)
    (hone : ∃! row, row ∈ tables.popularities ∧ row.popularable = popularable) :
    Twin exec (Alike start start' (tables.In visited)) (updatePopularity f tables now popularable)
      (fun _ => Alike start start' (tables.In (visited ++ [popularable]))) (Stopped start start') := by
  unfold updatePopularity
  split
  · exact twin_raise _
  · next row hrow =>
    have hmem := popularity_mem hrow
    have hreads : Reads tables visited row.popularable := by
      rw [hmem.2]
      exact h
    refine (twin_updateScore hreads).post fun _ _ _ hs => hs.mono ?_
    rintro other ⟨hother, hvisited⟩
    rcases mem_inserted hvisited with hvisited | heq
    · exact .inl ⟨hother, hvisited⟩
    · exact .inr (hone.unique ⟨hother, heq⟩ hmem)

/-- A stream makes the popularity of its streamable fresh, and those of the replies to it. -/
theorem twin_updateStream (h : WellKept tables) {before after : List Stream} {stream : Stream}
    (hsplit : tables.streams = before ++ stream :: after) :
    Twin exec (Alike start start' (tables.In (before.flatMap tables.visited)))
      (updateStreamPopularityScore f tables now stream)
      (fun _ => Alike start start' (tables.In ((before ++ [stream]).flatMap tables.visited)))
      (Stopped start start') := by
  have hstream : stream ∈ tables.streams := by
    rw [hsplit]
    simp
  have hreads : Reads tables (before.flatMap tables.visited) stream.streamable := by
    intro predictionend hmem htype
    obtain ⟨s, hs, hstreamable⟩ := h.earlier predictionend hmem before stream after hsplit htype
    exact List.mem_flatMap.2 ⟨s, hs, by simp [Tables.visited, hstreamable]⟩
  unfold updateStreamPopularityScore
  split
  · refine .bind (twin_updatePopularity hreads (h.streamable stream hstream)) fun _ => ?_
    split
    · exact twin_raise _
    · let I (replies : List Posts.Reply) : (Nat → R) → (Nat → R) → Prop :=
        Alike start start' (tables.In (before.flatMap tables.visited ++ [stream.streamable] ++
          replies.map fun reply => ⟨.reply, reply.id⟩))
      have hreplies : Twin exec (I []) (Prog.each (fun reply => updatePopularity f tables now ⟨.reply, reply.id⟩)
          (tables.repliesTo stream.streamable)) (fun _ => I ([] ++ tables.repliesTo stream.streamable))
          (Stopped start start') := by
        refine Twin.each [] _ fun done reply rest heq => ?_
        have hreply : reply ∈ tables.repliesTo stream.streamable := by
          rw [List.nil_append] at heq
          simp [heq]
        have hone := h.reply stream hstream reply hreply
        refine (twin_updatePopularity (fun _ _ hreply => by cases hreply) hone).post fun _ _ _ hs => ?_
        simpa [I] using hs
      simpa [I, Tables.visited] using hreplies
  · exact twin_raise _

/-- The scores a sweep leaves where it has been are the same whatever they were before,
and a second sweep at the same time changes nothing. -/
theorem sweep_of_data (h : WellKept tables) (f : Functions R) (now : Time) (score score' : Nat → R) :
    ((sweep f tables now score).1 = .ok () → ∀ row ∈ tables.popularities, ∀ stream ∈ tables.streams,
      row.popularable ∈ tables.visited stream →
        (sweep f tables now score).2 row.id = (sweep f tables now score').2 row.id) ∧
    sweep f tables now (sweep f tables now score).2 = sweep f tables now score := by
  let I (score' : Nat → R) (before : List Stream) : (Nat → R) → (Nat → R) → Prop :=
    Alike score score' (tables.In (before.flatMap tables.visited))
  have htwin (score' : Nat → R) : Twin exec (I score' []) (updatePopularityScores f tables now)
      (fun _ => I score' ([] ++ tables.streams)) (Stopped score score') :=
    Twin.each [] tables.streams fun before stream after hsplit => twin_updateStream h hsplit
  have hstart (score' : Nat → R) : I score' [] score score' :=
    ⟨fun row hrow => absurd hrow.2 (by simp), fun id => .inr ⟨rfl, rfl⟩⟩
  unfold sweep
  constructor
  · intro hdone row hrow stream hstream hvisited
    rcases htwin score' score score' (hstart score') with ⟨_, t, t', hrun, hrun', halike⟩ | ⟨e, t, t', hrun, -, -⟩
    · rw [hrun, hrun']
      exact halike.fresh row ⟨hrow, List.mem_flatMap.2 ⟨stream, hstream, hvisited⟩⟩
    · rw [hrun] at hdone
      cases hdone
  · obtain ⟨t, ht⟩ : ∃ t, t = ((updatePopularityScores f tables now).run exec score).2 := ⟨_, rfl⟩
    rw [← ht]
    rcases htwin t score t (hstart t) with ⟨_, s₁, s₂, hrun, hrun', halike⟩ | ⟨e, s₁, s₂, hrun, hrun', halike⟩
    · rw [hrun] at ht
      obtain rfl := ht
      rw [hrun, hrun', halike.settled]
    · rw [hrun] at ht
      obtain rfl := ht
      rw [hrun, hrun', halike.settled]

end

/-! ## A prediction that has ended -/

/-- A prediction, its Predictionend, and a reply to that. -/
def ended : Tables where
  comments := []
  newsarticles := []
  predictions := [⟨1, 1, 1, "up", .finite 5, false, true, some 100, 0, 110, 0, 0, 0⟩]
  predictionends := [⟨1, 1, 0, some 110, true, none, 0⟩]
  replies := [⟨1, 1, 1, "Predictionend", "well done"⟩]
  likes := [⟨some "like", ⟨.reply, 1⟩⟩, ⟨some "like", ⟨.prediction, 1⟩⟩, ⟨some "dislike", ⟨.prediction, 1⟩⟩]
  streams := [⟨⟨.prediction, 1⟩, ⟨.stock, 1⟩⟩, ⟨⟨.predictionend, 1⟩, ⟨.stock, 1⟩⟩, ⟨⟨.prediction, 1⟩, ⟨.user, 1⟩⟩]
  popularities := [⟨1, ⟨.prediction, 1⟩, 0⟩, ⟨2, ⟨.predictionend, 1⟩, 0⟩, ⟨3, ⟨.reply, 1⟩, 0⟩]

theorem ended_wellKept : WellKept ended := by
  have hprediction : ∃! row, row ∈ ended.popularities ∧ row.popularable = ⟨.prediction, 1⟩ :=
    ⟨⟨1, ⟨.prediction, 1⟩, 0⟩, by simp [ended], by simp [ended]⟩
  have hpredictionend : ∃! row, row ∈ ended.popularities ∧ row.popularable = ⟨.predictionend, 1⟩ :=
    ⟨⟨2, ⟨.predictionend, 1⟩, 0⟩, by simp [ended], by simp [ended]⟩
  have hreply : ∃! row, row ∈ ended.popularities ∧ row.popularable = ⟨.reply, 1⟩ :=
    ⟨⟨3, ⟨.reply, 1⟩, 0⟩, by simp [ended], by simp [ended]⟩
  refine ⟨?_, ?_, ?_, ?_⟩
  · intro stream hstream
    simp only [ended, List.mem_cons, List.not_mem_nil, or_false] at hstream
    rcases hstream with rfl | rfl | rfl
    · exact hprediction
    · exact hpredictionend
    · exact hprediction
  · intro stream _ reply hreply'
    have hmem : reply ∈ ended.replies := (List.mem_filter.1 (List.mem_reverse.1 hreply')).1
    obtain rfl := List.mem_singleton.1 hmem
    exact hreply
  · intro predictionend hmem
    obtain rfl := List.mem_singleton.1 hmem
    exact hprediction
  · intro predictionend hmem before stream after hsplit hstreamable
    obtain rfl := List.mem_singleton.1 hmem
    cases before with
    | nil =>
      obtain ⟨rfl, -⟩ := List.cons.inj hsplit
      cases hstreamable
    | cons first before =>
      obtain ⟨rfl, -⟩ := List.cons.inj hsplit
      exact ⟨_, List.mem_cons_self, rfl⟩

/-- Rational scores, with the net likes for their logarithm. -/
def rational : Functions Rat where
  log n := n
  score
    | .finite score => score
    | _ => 0
  seconds time := time / 1000000000
  round score := score

theorem sweep_ended : (sweep rational ended 0 fun _ => 0).2 2 = (sweep rational ended 0 fun _ => 7).2 2 ∧
    sweep rational ended 0 (sweep rational ended 0 fun _ => 0).2 = sweep rational ended 0 fun _ => 0 := by
  obtain ⟨hsame, hagain⟩ := sweep_of_data ended_wellKept rational 0 (fun _ => 0) fun _ => 7
  refine ⟨?_, hagain⟩
  exact hsame (by rfl) ⟨2, ⟨.predictionend, 1⟩, 0⟩ (by simp [ended]) ⟨⟨.predictionend, 1⟩, ⟨.stock, 1⟩⟩
    (by simp [ended]) (by simp [Tables.visited])

end MyStockIQ.Sweep
