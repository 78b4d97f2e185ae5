import MyStockIQ.SharedStore.Issued
import MyStockIQ.Sweep
/-!
# How far the sweep gets

The sweep asks no row whether it is there: `streamable`, `popularity` and the
popularity of each reply are dereferenced as they are found, and nothing is
rescued, so one that is missing ends the sweep for all later streams. Where none
is missing, the sweep completes and updates each of them (`reaches_of_ready`).
-/

open SharedStore Prog

namespace MyStockIQ.Posts

def Board.Popular (board : Board) (row : Ref) : Prop := ∃ popularity ∈ board.popularities, popularity.popularable = row

/-- Every reply to the row has a popularity. -/
def Board.RepliesPopular (board : Board) (row : Ref) : Prop :=
  ∀ reply ∈ board.replies, reply.repliable = some row → board.Popular ⟨.reply, reply.id⟩

/-- The sweep can go through a stream from this row. -/
structure Board.Ready (board : Board) (row : Ref) : Prop where
  has : board.has row
  streamed : streamed row.type
  popular : board.Popular row
  replies : board.RepliesPopular row
  /-- A Predictionend takes in the score of its prediction. -/
  prediction : ∀ predictionend, row.type = .predictionend → board.predictionend row.id = some predictionend →
    board.has ⟨.prediction, predictionend.prediction_id⟩ ∧ board.Popular ⟨.prediction, predictionend.prediction_id⟩

end MyStockIQ.Posts

namespace MyStockIQ.Sweep

open Posts (Board)

/-- The tables the sweep finds. `created_at` is that of each popularity, numbered in their order. -/
def ofBoard (board : Board) (likes : List Like) (created_at : Nat → Time) : Tables where
  comments := board.comments
  newsarticles := board.newsarticles
  predictions := board.predictions
  predictionends := board.predictionends
  replies := board.replies
  likes := likes
  streams := board.streams
  popularities := board.popularities.zipIdx.map fun row => ⟨row.2, row.1.popularable, created_at row.2⟩

/-- `update_score` finds what it asks for. -/
structure Tables.Scorable (tables : Tables) (popularable : Ref) : Prop where
  has : tables.has popularable
  prediction : ∀ predictionend, popularable.type = .predictionend →
    tables.predictionends.find? (·.id = popularable.id) = some predictionend →
      ∃ prediction popularity, tables.predictions.find? (·.id = predictionend.prediction_id) = some prediction ∧
        tables.popularity ⟨.prediction, prediction.id⟩ = some popularity

section
variable {R : Type} [Add R] {f : Functions R} {tables : Tables} {now : Time} {popularable : Ref}

/-- The statement gives the popularity of the row a score. -/
def Updates (tables : Tables) (popularable : Ref) (stmt : Stmt R) : Prop :=
  ∃ popularity value, tables.popularity popularable = some popularity ∧ stmt = .updateScore popularity.id value

theorem completes_addPredictionScore (h : tables.Scorable popularable) (score : R) :
    Completes exec (addPredictionScore f tables popularable score) := by
  unfold addPredictionScore
  split
  · next htype =>
    have hhas := h.has
    rw [Tables.has, htype] at hhas
    obtain ⟨prediction, hprediction⟩ := Option.isSome_iff_exists.1 (List.find?_isSome.2 (List.any_eq_true.1 hhas))
    rw [hprediction]
    exact completes_ret _
  · next htype =>
    have hhas := h.has
    rw [Tables.has, htype] at hhas
    obtain ⟨predictionend, hpredictionend⟩ :=
      Option.isSome_iff_exists.1 (List.find?_isSome.2 (List.any_eq_true.1 hhas))
    obtain ⟨prediction, popularity, hprediction, hpopularity⟩ := h.prediction predictionend htype hpredictionend
    simp only [hpredictionend, hprediction, hpopularity]
    exact .bind (completes_query _ _) fun _ => completes_ret _
  · exact completes_ret _

variable [Sub R] [Mul R] [Div R] [NatCast R]

theorem completes_updatePopularity (h : tables.Scorable popularable) {row : Popularity}
    (hrow : tables.popularity popularable = some row) : Completes exec (updatePopularity f tables now popularable) := by
  obtain rfl := (popularity_mem hrow).2
  unfold updatePopularity Popularity.updateScore
  rw [hrow]
  simp only [h.has, if_true]
  exact .bind (completes_addPredictionScore h _) fun _ => completes_exec _

theorem issues_updatePopularity (h : tables.Scorable popularable) {row : Popularity}
    (hrow : tables.popularity popularable = some row) :
    Issues exec (Updates tables popularable) (updatePopularity f tables now popularable) := by
  obtain rfl := (popularity_mem hrow).2
  unfold updatePopularity Popularity.updateScore
  rw [hrow]
  simp only [h.has, if_true]
  exact .bind_right (completes_addPredictionScore h _) fun _ => .exec ⟨row, _, hrow, rfl⟩

/-- What a stream needs of the tables. -/
structure Tables.Clear (tables : Tables) (stream : Stream) : Prop where
  not_reply : stream.streamable.type ≠ .reply
  scorable : ∀ row ∈ tables.visited stream, tables.Scorable row
  popularity : ∀ row ∈ tables.visited stream, ∃ popularity, tables.popularity row = some popularity

theorem reply_visited {stream : Stream} {reply : Posts.Reply} (h : reply ∈ tables.repliesTo stream.streamable) :
    ⟨.reply, reply.id⟩ ∈ tables.visited stream := by
  apply List.mem_cons_of_mem
  exact List.mem_map.2 ⟨reply, h, rfl⟩

theorem completes_updateStream {stream : Stream} (h : tables.Clear stream) :
    Completes exec (updateStreamPopularityScore f tables now stream) := by
  have hstreamable : stream.streamable ∈ tables.visited stream := List.mem_cons_self
  obtain ⟨popularity, hpopularity⟩ := h.popularity _ hstreamable
  unfold updateStreamPopularityScore
  rw [if_pos (h.scorable _ hstreamable).has, if_neg h.not_reply]
  refine .bind (completes_updatePopularity (h.scorable _ hstreamable) hpopularity) fun _ => .each fun reply hreply => ?_
  obtain ⟨popularity, hpopularity⟩ := h.popularity _ (reply_visited hreply)
  exact completes_updatePopularity (h.scorable _ (reply_visited hreply)) hpopularity

theorem issues_updateStream {stream : Stream} (h : tables.Clear stream) {row : Ref} (hrow : row ∈ tables.visited stream) :
    Issues exec (Updates tables row) (updateStreamPopularityScore f tables now stream) := by
  have hstreamable : stream.streamable ∈ tables.visited stream := List.mem_cons_self
  obtain ⟨popularity, hpopularity⟩ := h.popularity _ hstreamable
  unfold updateStreamPopularityScore
  rw [if_pos (h.scorable _ hstreamable).has, if_neg h.not_reply]
  rcases List.mem_cons.1 hrow with rfl | hreply
  · exact .bind_left (issues_updatePopularity (h.scorable _ hstreamable) hpopularity)
  · obtain ⟨reply, hmem, rfl⟩ := List.mem_map.1 hreply
    -- The streamable's own update completes, so the loop over its replies is reached.
    refine .bind_right (completes_updatePopularity (h.scorable _ hstreamable) hpopularity) fun _ =>
      .each (fun other hother => ?_) hmem ?_
    · obtain ⟨popularity, hpopularity⟩ := h.popularity _ (reply_visited hother)
      exact completes_updatePopularity (h.scorable _ (reply_visited hother)) hpopularity
    · obtain ⟨popularity, hpopularity⟩ := h.popularity _ (reply_visited hmem)
      exact issues_updatePopularity (h.scorable _ (reply_visited hmem)) hpopularity

variable (f tables now) in
/-- The sweep completes, and updates the popularity of every streamable and of each reply to it. -/
def Reaches (score : Nat → R) : Prop :=
  (sweep f tables now score).1 = .ok () ∧ ∀ stream ∈ tables.streams, ∀ row ∈ tables.visited stream,
    ∃ stmt ∈ (updatePopularityScores f tables now).issued exec score, Updates tables row stmt

theorem reaches_of_clear (h : ∀ stream ∈ tables.streams, tables.Clear stream) (score : Nat → R) :
    Reaches f tables now score := by
  have hcompletes (stream : Stream) (hstream : stream ∈ tables.streams) :
      Completes exec (updateStreamPopularityScore f tables now stream) := completes_updateStream (h stream hstream)
  constructor
  · obtain ⟨_, scores, hrun⟩ := Completes.each hcompletes score
    exact congrArg Prod.fst hrun
  · intro stream hstream row hrow
    exact Issues.each hcompletes hstream (issues_updateStream (h stream hstream) hrow) score

end

/-! ## The tables of a board -/

section
variable {board : Board} (likes : List Like) (created_at : Nat → Time)

theorem popularity_ofBoard {row : Ref} (h : board.Popular row) :
    ∃ popularity, (ofBoard board likes created_at).popularity row = some popularity := by
  obtain ⟨popularity, hmem, rfl⟩ := h
  rw [← Option.isSome_iff_exists, Tables.popularity, List.find?_isSome]
  obtain ⟨n, hn, rfl⟩ := List.getElem_of_mem hmem
  refine ⟨⟨n, board.popularities[n].popularable, created_at n⟩, ?_, by simp⟩
  exact List.mem_map.2 ⟨(board.popularities[n], n), by simp [List.mem_zipIdx_iff_getElem?, hn], rfl⟩

theorem has_ofBoard {row : Ref} (h : board.has row) (hstreamed : Posts.streamed row.type ∨ row.type = .reply) :
    (ofBoard board likes created_at).has row := by
  obtain ⟨type, id⟩ := row
  cases type with
  | user => simp [Posts.streamed] at hstreamed
  | stock => simp [Posts.streamed] at hstreamed
  | prediction => simpa [Board.has, Tables.has, ofBoard, Db.prediction, List.find?_isSome] using h
  | predictionend => simpa [Board.has, Tables.has, ofBoard, Db.predictionend, List.find?_isSome] using h
  | comment => exact h
  | newsarticle => exact h
  | reply => exact h

/-- The replies the sweep finds are those that name the row. -/
theorem mem_repliesTo {row : Ref} {reply : Posts.Reply} (h : reply ∈ (ofBoard board likes created_at).repliesTo row) :
    reply ∈ board.replies ∧ reply.repliable = some row := by
  rw [Tables.repliesTo, List.mem_reverse, List.mem_filter, decide_eq_true_eq] at h
  obtain ⟨hmem, htype, hid⟩ := h
  refine ⟨hmem, ?_⟩
  obtain ⟨type, id⟩ := row
  have hclass : Posts.constantize (Posts.className type) = some type := by cases type <;> decide
  simp [Posts.Reply.repliable, htype, hid, hclass]

theorem scorable_reply {reply : Posts.Reply} (h : reply ∈ board.replies) :
    (ofBoard board likes created_at).Scorable ⟨.reply, reply.id⟩ where
  has := List.any_eq_true.2 ⟨reply, h, by simp⟩
  prediction _ htype := by cases htype

theorem scorable_of_ready {row : Ref} (h : board.Ready row) : (ofBoard board likes created_at).Scorable row := by
  refine ⟨has_ofBoard likes created_at h.has (.inl h.streamed), ?_⟩
  intro predictionend htype hfound
  obtain ⟨hhas, hpopular⟩ := h.prediction predictionend htype hfound
  obtain ⟨prediction, hprediction⟩ := Option.isSome_iff_exists.1 hhas
  have hid : prediction.id = predictionend.prediction_id := by simpa using List.find?_some hprediction
  obtain ⟨popularity, hpopularity⟩ := popularity_ofBoard likes created_at hpopular
  exact ⟨prediction, popularity, hprediction, by rw [hid]; exact hpopularity⟩

theorem clear_of_ready {stream : Stream} (h : board.Ready stream.streamable) :
    (ofBoard board likes created_at).Clear stream := by
  refine ⟨?_, ?_, ?_⟩
  · intro htype
    have hstreamed := h.streamed
    rw [htype] at hstreamed
    cases hstreamed
  · intro row hrow
    rcases List.mem_cons.1 hrow with rfl | hreply
    · exact scorable_of_ready likes created_at h
    · obtain ⟨reply, hmem, rfl⟩ := List.mem_map.1 hreply
      exact scorable_reply likes created_at (mem_repliesTo likes created_at hmem).1
  · intro row hrow
    rcases List.mem_cons.1 hrow with rfl | hreply
    · exact popularity_ofBoard likes created_at h.popular
    · obtain ⟨reply, hmem, rfl⟩ := List.mem_map.1 hreply
      obtain ⟨hreplies, hrepliable⟩ := mem_repliesTo likes created_at hmem
      exact popularity_ofBoard likes created_at (h.replies reply hreplies hrepliable)

/-- The sweep gets through if every streamable is ready. -/
theorem reaches_of_ready {R : Type} [Add R] [Sub R] [Mul R] [Div R] [NatCast R]
    (h : ∀ stream ∈ board.streams, board.Ready stream.streamable) (f : Functions R) (now : Time) (score : Nat → R) :
    Reaches f (ofBoard board likes created_at) now score :=
  reaches_of_clear (fun stream hstream => clear_of_ready likes created_at (h stream hstream)) score

end

end MyStockIQ.Sweep
