import MyStockIQ.Counter
import MyStockIQ.News
import MyStockIQ.Pass
import MyStockIQ.SweepReach
/-!
# Streams the sweep can go through

A request grows the board by a row: it may add to every table, but what streams
it adds are from that row. So what was ready for the sweep stays so, and only the
new row is left to be looked at: `comments#create`, `predictions#create` and
`predictionends#create` give it a popularity.
-/

open SharedStore Prog

namespace MyStockIQ.Posts

/-! ## Growing -/

/-- The statement destroys nothing, inserts no reply, and inserts streams from `row` only. -/
def Stmt.Grows (row : Ref) : Stmt → Prop
  | .insertReply _ => False
  | .base (.insertStream stream) => stream.streamable = row
  | .base (.destroyPrediction _) => False
  | .base (.destroyPredictionend _ _) => False
  | _ => True

/-- What was there is there still, and the new streams are from `row`. -/
structure Board.Grown (row : Ref) (before after : Board) : Prop where
  has : ∀ other, before.has other → after.has other
  popular : ∀ other, before.Popular other → after.Popular other
  predictionend : ∀ id predictionend, before.has ⟨.predictionend, id⟩ → after.predictionend id = some predictionend →
    ∃ old, before.predictionend id = some old ∧ old.prediction_id = predictionend.prediction_id
  replies : after.replies = before.replies
  streams : ∀ stream ∈ after.streams, stream ∈ before.streams ∨ stream.streamable = row

section
variable {row other : Ref} {board before between after : Board}

theorem Board.Grown.refl (row : Ref) (board : Board) : board.Grown row board where
  has _ h := h
  popular _ h := h
  predictionend _ predictionend _ h := ⟨predictionend, h, rfl⟩
  replies := rfl
  streams _ h := .inl h

theorem Board.Grown.trans (h : before.Grown row between) (h' : between.Grown row after) : before.Grown row after where
  has other hhas := h'.has other (h.has other hhas)
  popular other hpopular := h'.popular other (h.popular other hpopular)
  predictionend id predictionend hhas hafter := by
    obtain ⟨middle, hmiddle, hid⟩ := h'.predictionend id predictionend (h.has _ hhas) hafter
    obtain ⟨old, hold, hid'⟩ := h.predictionend id middle hhas hmiddle
    exact ⟨old, hold, hid'.trans hid⟩
  replies := h'.replies.trans h.replies
  streams stream hmem := by
    rcases h'.streams stream hmem with hmem | hrow
    · exact h.streams stream hmem
    · exact .inr hrow

theorem Board.Grown.repliesPopular (h : before.Grown row after) (hreplies : before.RepliesPopular other) :
    after.RepliesPopular other := by
  intro reply hmem hrepliable
  rw [h.replies] at hmem
  exact h.popular _ (hreplies reply hmem hrepliable)

/-- What was ready stays ready. -/
theorem Board.Grown.ready (h : before.Grown row after) (hready : before.Ready other) : after.Ready other where
  has := h.has other hready.has
  streamed := hready.streamed
  popular := h.popular other hready.popular
  replies := h.repliesPopular hready.replies
  prediction predictionend htype hfound := by
    obtain ⟨type, id⟩ := other
    obtain rfl : type = .predictionend := htype
    obtain ⟨old, hold, hid⟩ := h.predictionend id predictionend hready.has hfound
    obtain ⟨hhas, hpopular⟩ := hready.prediction old rfl hold
    rw [← hid]
    exact ⟨h.has _ hhas, h.popular _ hpopular⟩

end

/-! ## One statement -/

theorem isSome_find_append {A : Type} {p : A → Bool} {rows : List A} (more : List A) (h : (rows.find? p).isSome) :
    ((rows ++ more).find? p).isSome := by
  obtain ⟨row, hrow⟩ := Option.isSome_iff_exists.1 h
  exact Option.isSome_of_eq_some (find_append hrow)

theorem any_append {A : Type} {p : A → Bool} {rows : List A} (more : List A) (h : rows.any p = true) :
    (rows ++ more).any p = true := by
  rw [List.any_append, h, Bool.true_or]

/-- An `UPDATE` keeps the rows that are found. -/
theorem isSome_find_updated {A : Type} (key : A → Nat) (set : A → A) (h : ∀ row, key (set row) = key row)
    (id other : Nat) {rows : List A} (hfound : (rows.find? (key · = other)).isSome) :
    ((rows.map fun row => if key row = id then set row else row).find? (key · = other)).isSome := by
  rw [find_updated key set h id other rows, Option.isSome_map]
  exact hfound

theorem has_exec {row other : Ref} {board : Board} {stmt : Stmt} (hgrows : stmt.Grows row) (h : board.has other) :
    (board.exec stmt).has other := by
  obtain ⟨type, id⟩ := other
  cases stmt with
  | insertComment comment =>
    cases type with
    | comment => exact any_append _ h
    | _ => exact h
  | insertReply reply => exact hgrows.elim
  | insertNewsarticles rows =>
    cases type with
    | newsarticle => exact any_append _ h
    | _ => exact h
  | base stmt =>
    cases stmt with
    | insertPrediction row =>
      cases type with
      | prediction => exact isSome_find_append _ h
      | _ => exact h
    | updatePrediction id changes =>
      cases type with
      | prediction => exact isSome_find_updated Prediction.id changes.set (fun _ => rfl) id _ h
      | _ => exact h
    | destroyPrediction id => exact hgrows.elim
    | insertPredictionend row =>
      cases type with
      | predictionend => exact isSome_find_append _ h
      | _ => exact h
    | updatePredictionend id changes =>
      cases type with
      | predictionend => exact isSome_find_updated Predictionend.id changes.set (fun _ => rfl) id _ h
      | _ => exact h
    | destroyPredictionend prediction_id id => exact hgrows.elim
    | updateStock id changes =>
      cases type with
      | stock => exact isSome_find_updated Stock.id changes.set (fun _ => rfl) id _ h
      | _ => exact h
    | _ => exact h
  | _ => exact h

theorem popular_insert {row : Popularity} {other : Ref} {board : Board} (h : board.Popular other) :
    (board.exec (.base (.insertPopularity row))).Popular other := by
  obtain ⟨popularity, hmem, rfl⟩ := h
  by_cases heq : popularity.popularable = row.popularable
  · exact ⟨row, List.mem_append_right _ (List.mem_singleton_self row), heq.symm⟩
  · have hkept : popularity ∈ board.popularities.eraseP (·.popularable = row.popularable) :=
      (List.mem_eraseP_of_neg (by simpa using heq)).2 hmem
    exact ⟨popularity, List.mem_append_left _ hkept, rfl⟩

/-- The popularity that is inserted is there. -/
theorem popular_inserted (board : Board) (row : Popularity) :
    (board.exec (.base (.insertPopularity row))).Popular row.popularable :=
  ⟨row, List.mem_append_right _ (List.mem_singleton_self row), rfl⟩

theorem popular_exec {row other : Ref} {board : Board} {stmt : Stmt} (hgrows : stmt.Grows row) (h : board.Popular other) :
    (board.exec stmt).Popular other := by
  cases stmt with
  | base stmt =>
    cases stmt with
    | insertPopularity popularity => exact popular_insert h
    | destroyPrediction id => exact hgrows.elim
    | destroyPredictionend prediction_id id => exact hgrows.elim
    | _ => exact h
  | _ => exact h

/-- A Predictionend that is found after an `INSERT` or an `UPDATE` was there, and belongs to the same prediction. -/
theorem predictionend_exec {row : Ref} {board : Board} {stmt : Stmt} (hgrows : stmt.Grows row) {id : Nat}
    {predictionend : Predictionend} (hhas : board.has ⟨.predictionend, id⟩)
    (hfound : (board.exec stmt).predictionend id = some predictionend) :
    ∃ old, board.predictionend id = some old ∧ old.prediction_id = predictionend.prediction_id := by
  cases stmt with
  | base stmt =>
    cases stmt with
    | insertPredictionend row =>
      obtain ⟨old, hold⟩ := Option.isSome_iff_exists.1 hhas
      have hsame : (board.exec (.base (.insertPredictionend row))).predictionend id = some old := find_append hold
      rw [hsame] at hfound
      exact ⟨old, hold, by rw [Option.some.inj hfound]⟩
    | updatePredictionend other changes =>
      have hupdated := find_updated Predictionend.id changes.set (fun _ => rfl) other id board.predictionends
      obtain ⟨old, hold, rfl⟩ := Option.map_eq_some_iff.1 (hupdated.symm.trans hfound)
      refine ⟨old, hold, ?_⟩
      split
      · rfl
      · rfl
    | destroyPrediction id => exact hgrows.elim
    | destroyPredictionend prediction_id id => exact hgrows.elim
    | _ => exact ⟨predictionend, hfound, rfl⟩
  | _ => exact ⟨predictionend, hfound, rfl⟩

theorem replies_exec {row : Ref} {board : Board} {stmt : Stmt} (hgrows : stmt.Grows row) :
    (board.exec stmt).replies = board.replies := by
  cases stmt with
  | insertReply reply => exact hgrows.elim
  | _ => rfl

theorem streams_exec {row : Ref} {board : Board} {stmt : Stmt} (hgrows : stmt.Grows row) :
    ∀ stream ∈ (board.exec stmt).streams, stream ∈ board.streams ∨ stream.streamable = row := by
  intro stream hmem
  cases stmt with
  | base stmt =>
    cases stmt with
    | insertStream inserted =>
      rcases mem_inserted hmem with hmem | rfl
      · exact .inl hmem
      · exact .inr hgrows
    | destroyPrediction id => exact hgrows.elim
    | destroyPredictionend prediction_id id => exact hgrows.elim
    | _ => exact .inl hmem
  | _ => exact .inl hmem

theorem grown_exec {row : Ref} {board : Board} (stmt : Stmt) (hgrows : stmt.Grows row) :
    board.Grown row (board.exec stmt) where
  has _ h := has_exec hgrows h
  popular _ h := popular_exec hgrows h
  predictionend _ _ hhas hfound := predictionend_exec hgrows hhas hfound
  replies := replies_exec hgrows
  streams := streams_exec hgrows

/-- A program of such statements grows the board, raised or not. -/
theorem grown_run {α : Type} {row : Ref} {p : Request α} (h : p.Only (Stmt.Grows row)) (board : Board) :
    board.Grown row (p.run Board.exec board).2 :=
  h.run_inv (I := board.Grown row) (fun _ _ hgrows hgrown => hgrown.trans (grown_exec _ hgrows)) (.refl row board)

/-! ## The invariant -/

theorem keyed_exec {board : Board} (h : Keyed board.toDb) (stmt : Stmt) : Keyed (board.exec stmt).toDb := by
  cases stmt with
  | base stmt => exact h.exec stmt
  | _ => exact h

theorem keyed_run {α : Type} {board : Board} (h : Keyed board.toDb) (p : Request α) :
    Keyed (p.run Board.exec board).2.toDb :=
  p.only_true.run_inv (I := fun board => Keyed board.toDb) (fun _ stmt _ h => keyed_exec h stmt) h

/-- Every stream is from a row the sweep can go through. -/
structure Board.Tended (board : Board) : Prop where
  keyed : Keyed board.toDb
  ready : ∀ stream ∈ board.streams, board.Ready stream.streamable

section
variable {row : Ref} {before after board : Board}

/-- What grew is tended if the row its streams are from is ready, or there are none. -/
theorem Board.Tended.grown (h : before.Tended) (hgrown : before.Grown row after) (hkeyed : Keyed after.toDb)
    (hrow : after.Ready row ∨ after.streams ⊆ before.streams) : after.Tended := by
  refine ⟨hkeyed, fun stream hmem => ?_⟩
  rcases hrow with hready | hnone
  · rcases hgrown.streams stream hmem with hbefore | heq
    · exact hgrown.ready (h.ready stream hbefore)
    · exact heq ▸ hready
  · exact hgrown.ready (h.ready stream (hnone hmem))

/-- A program whose streams are from a ready row keeps the board tended. -/
theorem Board.Tended.run {α : Type} {p : Request α} (h : board.Tended) (hrow : board.Ready row)
    (hp : p.Only (Stmt.Grows row)) : (p.run Board.exec board).2.Tended :=
  h.grown (grown_run hp board) (keyed_run h.keyed p) (.inl ((grown_run hp board).ready hrow))

end

/-! ## Programs that grow the board -/

/-- A statement on the tables of `Db` that grows the board. -/
abbrev BaseGrows (row : Ref) (stmt : MyStockIQ.Stmt) : Prop := Stmt.Grows row (.base stmt)

section
variable {α : Type} {row : Ref}

theorem grows_onDb {p : MyStockIQ.Request α} (h : p.Only (BaseGrows row)) : (onDb p).Only (Stmt.Grows row) :=
  Only.lift Board.tables Stmt.base Error.base h

theorem grows_streamSave (targetable : Ref) : (Stream.save ⟨row, targetable⟩).Only (BaseGrows row) :=
  only_streamSave trivial rfl

theorem grows_streamCreate! (targetable : Ref) : (Stream.create! ⟨row, targetable⟩).Only (BaseGrows row) :=
  only_streamCreate! trivial rfl

theorem grows_targetTags (tags : List (Option Ref)) : (targetTags row tags).Only (BaseGrows row) :=
  only_targetTags (fun _ => trivial) (fun _ => rfl) tags

theorem grows_stockSave (stock : Stock) (assigned : StockChanges) : (stock.save assigned).Only (BaseGrows row) :=
  only_stockSave trivial trivial

theorem grows_updateStockPredictionCount (stock : Stock) : (updateStockPredictionCount stock).Only (BaseGrows row) :=
  .bind ((only_query _ _).2 trivial) fun _ => grows_stockSave _ _

end

/-! ## `comments#create` -/

section
variable {board : Board}

theorem Board.Tended.tagged (h : board.Tended) (tag : Tag) : (board.tagged tag).Tended :=
  h.grown (show board.Grown ⟨.user, 0⟩ (board.tagged tag) from grown_exec (.base (.insertTag tag)) trivial)
    (keyed_exec h.keyed (.base (.insertTag tag))) (.inr fun _ hmem => hmem)

/-- A new row that has its popularity, and whose replies have theirs, is ready, if it is no Predictionend. -/
theorem ready_of_popular {row : Ref} {before after : Board} (hgrown : before.Grown row after)
    (hreplies : before.RepliesPopular row) (hhas : after.has row) (hpopular : after.Popular row)
    (hstreamed : streamed row.type) (hne : row.type ≠ .predictionend) : after.Ready row where
  has := hhas
  streamed := hstreamed
  popular := hpopular
  replies := hgrown.repliesPopular hreplies
  prediction _ htype := absurd htype hne

theorem tended_announceComment (h : board.Tended) (hreplies : board.RepliesPopular ⟨.comment, board.comment_seq⟩)
    (comment : Comment) (stock : Stock) (user : User) (tag_id : Nat) (tags : List (Option Ref)) :
    ((announceComment comment stock user tag_id tags).run Board.exec board).2.Tended := by
  unfold Posts.announceComment Comment.save
  cases fits comment.user_id with
  | false => exact h
  | true =>
    let row : Ref := ⟨.comment, board.comment_seq⟩
    -- The comment, its Tag and its popularity come before any stream.
    let inserted := board.exec (.insertComment comment)
    let attached := inserted.exec (.base (.attachTag tag_id board.comment_seq))
    let popular := attached.exec (.base (.insertPopularity ⟨row, 0⟩))
    have hgrown : board.Grown row popular :=
      ((grown_exec (.insertComment comment) trivial).trans
        (grown_exec (.base (.attachTag tag_id board.comment_seq)) trivial)).trans
        (grown_exec (.base (.insertPopularity ⟨row, 0⟩)) trivial)
    have hhas : popular.has row := by
      change (board.comments ++ [_]).any _ = true
      simp [row]
    have hready : popular.Ready row :=
      ready_of_popular hgrown hreplies hhas (popular_inserted _ ⟨row, 0⟩) rfl (by simp [row])
    have hkeyed : Keyed popular.toDb := keyed_exec (keyed_exec (keyed_exec h.keyed (.insertComment comment)) _) _
    have htended : popular.Tended := h.grown hgrown hkeyed (.inl hready)
    change (Prog.run Board.exec ((onDb (Stream.save ⟨row, ⟨.stock, stock.id⟩⟩)).bind fun _ =>
      (onDb (Stream.save ⟨row, ⟨.user, user.id⟩⟩)).bind fun _ => onDb (targetTags row tags)) popular).2.Tended
    exact htended.run hready (.bind (grows_onDb (grows_streamSave _)) fun _ =>
      .bind (grows_onDb (grows_streamSave _)) fun _ => grows_onDb (grows_targetTags _))

theorem tended_commentsCreate (h : board.Tended) (hreplies : board.RepliesPopular ⟨.comment, board.comment_seq⟩)
    (bcrypt : Sessions.BCrypt) (jar : Sessions.Jar) (ticker_symbol : Option String) (params : CommentParams) :
    ((Post.commentsCreate ticker_symbol params).run bcrypt jar board).2.Tended := by
  rcases run_commentsCreate bcrypt jar board ticker_symbol params with
    ⟨e, hrun⟩ | ⟨errors, tag, hrun⟩ | ⟨comment, stock, user, tag, refs, -, -, -, hrun⟩
  · rw [hrun]
    exact h
  · rw [hrun]
    exact h.tagged tag
  · rw [hrun, bind_eq, pure_eq, run_bind_ret]
    exact tended_announceComment (h.tagged tag) hreplies comment stock user board.tag_seq (refs.map some)

end

/-! ## `predictions#create` -/

/-- No stream is from the row. -/
def Unstreamed (row : Ref) (db : Db) : Prop := ∀ stream ∈ db.streams, stream.streamable ≠ row

/-- A prediction without streams gets a popularity, or an exception leaves it without streams. -/
theorem outcome_announcePrediction (prediction : Prediction) (user : User) (stock : Stock) (refs : List Ref) :
    Outcome Db.exec (Unstreamed ⟨.prediction, prediction.id⟩)
      (announcePrediction prediction user stock (refs.map some))
      (fun _ db => ∃ popularity ∈ db.popularities, popularity.popularable = ⟨.prediction, prediction.id⟩)
      (Unstreamed ⟨.prediction, prediction.id⟩) := by
  have hsave (assigned : StockChanges) :
      (stock.save assigned).Only fun stmt => ∀ db : Db, (db.exec stmt).streams = db.streams :=
    only_stockSave (fun _ => rfl) fun _ => rfl
  have hkept : ∀ (db : Db) (stmt : MyStockIQ.Stmt), (∀ db : Db, (db.exec stmt).streams = db.streams) →
      Unstreamed ⟨.prediction, prediction.id⟩ db → Unstreamed ⟨.prediction, prediction.id⟩ (db.exec stmt) := by
    intro db stmt hsame h stream hmem
    rw [hsame] at hmem
    exact h stream hmem
  refine .bind (outcome_select _ _) fun count => .bind (((hsave _).outcome hkept).pre fun _ h => h.2) fun _ =>
    .bind (outcome_orNil _ _) fun _ => ?_
  refine .of_each fun db h => ?_
  have hnone : ∀ stream ∈ db.streams, stream.streamable ≠ ⟨.prediction, prediction.id⟩ := h.2
  -- The two streams differ in their targets.
  let toUser : Stream := ⟨⟨.prediction, prediction.id⟩, ⟨.user, user.id⟩⟩
  let toStock : Stream := ⟨⟨.prediction, prediction.id⟩, ⟨.stock, stock.id⟩⟩
  have huser : toUser.create!.run Db.exec db = (.ok (), db.withStreams [toUser]) := by
    rw [run_create!, if_neg fun hmem => hnone _ hmem rfl]
    rfl
  have hstock : toStock.create!.run Db.exec (db.withStreams [toUser]) =
      (.ok (), (db.withStreams [toUser]).withStreams [toStock]) := by
    rw [run_create!, if_neg ?_]
    · rfl
    · intro hmem
      rcases List.mem_append.1 hmem with hmem | hmem
      · exact hnone _ hmem rfl
      · simp [toUser, toStock] at hmem
  obtain ⟨more, htags⟩ :=
    run_targetTags ⟨.prediction, prediction.id⟩ refs ((db.withStreams [toUser]).withStreams [toStock])
  refine .ok_bind huser (.ok_bind hstock (.ok_bind htags (.of_run rfl ?_ ?_)))
  · intro _ _
    exact ⟨⟨⟨.prediction, prediction.id⟩, 0⟩, List.mem_append_right _ (List.mem_singleton_self _), rfl⟩
  · intro e he
    cases he

section
variable {board : Board}

theorem grows_savePrediction (row : Ref) (prediction : Prediction) (tag_id : Nat) :
    (savePrediction prediction tag_id).Only (BaseGrows row) :=
  .bind ((only_query _ _).2 trivial) fun _ => .bind (MyStockIQ.only_orNil _ _) fun _ =>
    .bind ⟨trivial, fun _ => trivial⟩ fun _ => .bind ((only_exec _).2 trivial) fun _ =>
      .bind (grows_updateStockPredictionCount _) fun _ => trivial

theorem grows_announcePrediction (prediction : Prediction) (user : User) (stock : Stock) (tags : List (Option Ref)) :
    (announcePrediction prediction user stock tags).Only (BaseGrows ⟨.prediction, prediction.id⟩) :=
  .bind ((only_query _ _).2 trivial) fun _ => .bind (grows_stockSave _ _) fun _ =>
    .bind (MyStockIQ.only_orNil _ _) fun _ => .bind (grows_streamCreate! _) fun _ =>
      .bind (grows_streamCreate! _) fun _ => .bind (grows_targetTags _) fun _ => (only_exec _).2 trivial

/-- No stream is from a row that is still to come. -/
theorem Board.Tended.unstreamed (h : board.Tended) {row : Ref} (hhas : ¬board.has row) : Unstreamed row board.toDb := by
  rintro stream hmem rfl
  exact hhas (h.ready stream hmem).has

theorem tended_announcePrediction (h : board.Tended) (prediction : Prediction)
    (hhas : board.has ⟨.prediction, prediction.id⟩) (hreplies : board.RepliesPopular ⟨.prediction, prediction.id⟩)
    (hnone : Unstreamed ⟨.prediction, prediction.id⟩ board.toDb) (user : User) (stock : Stock) (refs : List Ref) :
    ((onDb (announcePrediction prediction user stock (refs.map some))).run Board.exec board).2.Tended := by
  have hgrown := grown_run (grows_onDb (grows_announcePrediction prediction user stock (refs.map some))) board
  have hkeyed := keyed_run h.keyed (onDb (announcePrediction prediction user stock (refs.map some)))
  have hend := outcome_announcePrediction prediction user stock refs
  rw [run_onDb] at hgrown hkeyed ⊢
  refine h.grown hgrown hkeyed ?_
  -- The popularity comes last: what raises before it raises before the streams too.
  rcases hrun : (announcePrediction prediction user stock (refs.map some)).run Db.exec board.toDb with ⟨e | a, db⟩
  · right
    rw [hrun] at hgrown
    intro stream hmem
    rcases hgrown.streams stream hmem with hbefore | heq
    · exact hbefore
    · exact absurd heq (hend.raised _ e db hnone hrun stream hmem)
  · left
    rw [hrun] at hgrown
    exact ready_of_popular hgrown hreplies (hgrown.has _ hhas) (hend.completed _ a db hnone hrun) rfl (by simp)

/-- A saved prediction has no streams yet. -/
theorem tended_savePrediction (h : board.Tended)
    (hreplies : board.RepliesPopular ⟨.prediction, board.prediction_seq⟩) {prediction : Prediction} {stock : Stock}
    (hstock : board.stock prediction.stock_id = some stock) (tag_id : Nat) (user : User) (refs : List Ref) :
    ((onDb (MyStockIQ.savePrediction prediction tag_id >>= fun prediction =>
      announcePrediction prediction user stock (refs.map some) >>= fun _ =>
        (return .ok : MyStockIQ.Request MyStockIQ.Reply))).run Board.exec board).2.Tended := by
  let row : Ref := ⟨.prediction, board.prediction_seq⟩
  let saved : Board := { board with
    toDb := ((board.toDb.exec (.insertPrediction prediction)).exec (.attachTag tag_id board.prediction_seq)).counted stock }
  have hsave := run_savePrediction hstock tag_id
  have hgrown : board.Grown row saved := by
    have h := grown_run (grows_onDb (grows_savePrediction row prediction tag_id)) board
    rwa [run_onDb, hsave] at h
  have hkeyed : Keyed saved.toDb := by
    have hkeyed := h.keyed.run (MyStockIQ.savePrediction prediction tag_id)
    rwa [hsave] at hkeyed
  have hstreams : saved.streams = board.streams := counted_streams _ _
  have htended : saved.Tended := h.grown hgrown hkeyed (.inr (by rw [hstreams]; exact List.Subset.refl _))
  have hhas : saved.has row := by
    change (((board.toDb.exec (.insertPrediction prediction)).exec (.attachTag tag_id board.prediction_seq)).counted
      stock).predictions.find? _ |>.isSome
    rw [counted_predictions, List.find?_isSome]
    exact ⟨_, List.mem_append_right _ (List.mem_singleton_self _), decide_eq_true rfl⟩
  have hnone : Unstreamed row saved.toDb := by
    have hnew : ¬board.has row := by
      intro hhas
      obtain ⟨old, hold⟩ := Option.isSome_iff_exists.1 hhas
      have hid : old.id = board.prediction_seq := by simpa using List.find?_some hold
      have hlt := h.keyed.prediction_lt old (List.mem_of_find?_eq_some hold)
      omega
    intro stream hmem
    rw [hstreams] at hmem
    exact h.unstreamed hnew stream hmem
  have hannounced := tended_announcePrediction htended { prediction with id := board.prediction_seq } hhas
    (hgrown.repliesPopular hreplies) hnone user stock refs
  rw [run_onDb] at hannounced ⊢
  rw [bind_eq, run_bind_ok Db.exec hsave, bind_eq, pure_eq, run_bind_ret]
  exact hannounced

theorem tended_predictionsCreate (h : board.Tended)
    (hreplies : board.RepliesPopular ⟨.prediction, board.prediction_seq⟩) (parse : String → Option Int) (now : Time)
    (session : Option Nat) (params : PredictionParams) :
    ((onDb (PredictionsController.create parse now session params)).run Board.exec board).2.Tended := by
  rw [run_onDb]
  rcases run_create parse now session params board.toDb with
    ⟨e, hrun⟩ | ⟨errors, tag, hrun⟩ | ⟨user, stock, prediction, tag, refs, -, hstock, -, hid, -, -, -, hrun⟩
  · rw [hrun]
    exact h
  · rw [hrun]
    exact h.tagged tag
  · have hfound : (board.tagged tag).stock prediction.stock_id = some stock := by
      have hsame : stock.id = params.stock_id := by simpa using List.find?_some hstock
      rw [hid, hsame]
      exact hstock
    have hsaved := tended_savePrediction (h.tagged tag) hreplies hfound board.tag_seq user refs
    rw [run_onDb] at hsaved
    rw [hrun]
    exact hsaved

end

/-! ## `predictionends#create` -/

section
variable {board : Board}

/-- A save of a prediction, with the counter of its stock. -/
theorem grown_saved (row : Ref) (board : Board) (id : Nat) (changes : PredictionChanges) (stock : Stock) :
    board.Grown row { board with toDb := board.toDb.saved id changes stock } := by
  have hupdate : board.Grown row (board.exec (.base (.updatePrediction id changes))) := grown_exec _ trivial
  unfold Db.saved Db.counted
  split
  · exact hupdate.trans (grown_exec (.base (.updateStock stock.id _)) trivial)
  · exact hupdate

theorem find_destroyed {id : Nat} {other : Prediction} {rows : List Prediction}
    (h : rows.find? (·.id = other.id) = some other) (hne : other.id ≠ id) :
    ((rows.filter (·.id ≠ id)).find? (·.id = other.id)).isSome := by
  rw [List.find?_isSome]
  exact ⟨other, List.mem_filter.2 ⟨List.mem_of_find?_eq_some h, by simpa using hne⟩, by simp⟩

/-- A prediction that has not ended takes only its own streams and popularity along. -/
theorem tended_destroyPrediction (h : board.Tended) {id : Nat} (hended : board.predictionendOf id = none) :
    (board.exec (.base (.destroyPrediction id))).Tended := by
  have hpopular (other : Ref) (hne : other ≠ ⟨.prediction, id⟩) (hpopular : board.Popular other) :
      (board.exec (.base (.destroyPrediction id))).Popular other := by
    obtain ⟨popularity, hmem, rfl⟩ := hpopular
    exact ⟨popularity, (List.mem_eraseP_of_neg (by simpa using hne)).2 hmem, rfl⟩
  have hprediction (other : Nat) (hne : other ≠ id) (hhas : board.has ⟨.prediction, other⟩) :
      (board.exec (.base (.destroyPrediction id))).has ⟨.prediction, other⟩ := by
    obtain ⟨prediction, hprediction⟩ := Option.isSome_iff_exists.1 hhas
    obtain rfl : prediction.id = other := by simpa using List.find?_some hprediction
    exact find_destroyed hprediction hne
  refine ⟨keyed_exec h.keyed _, fun stream hmem => ?_⟩
  obtain ⟨hmem, hne⟩ : stream ∈ board.streams ∧ stream.streamable ≠ ⟨.prediction, id⟩ := by
    simpa [Board.exec, Db.exec, Db.destroyDependents] using hmem
  have hready := h.ready stream hmem
  refine ⟨?_, hready.streamed, hpopular _ hne hready.popular, ?_, ?_⟩
  · have hhas := hready.has
    obtain ⟨⟨type, other⟩, targetable⟩ := stream
    cases type with
    | prediction => exact hprediction other (fun heq => hne (by rw [heq])) hhas
    | _ => exact hhas
  · intro reply hreply hrepliable
    exact hpopular _ (by simp) (hready.replies reply hreply hrepliable)
  · intro predictionend htype hfound
    obtain ⟨hhas, hpop⟩ := hready.prediction predictionend htype hfound
    -- The prediction has no Predictionend, so this one belongs to another.
    have hother : predictionend.prediction_id ≠ id := by
      intro heq
      have hnil : board.predictionends.filter (·.prediction_id = id) = [] := List.getLast?_eq_none_iff.1 hended
      rw [List.filter_eq_nil_iff] at hnil
      exact hnil predictionend (List.mem_of_find?_eq_some hfound) (by simpa using heq)
    exact ⟨hprediction _ hother hhas, hpopular _ (by simpa using hother) hpop⟩

/-- The Predictionend and its popularity come before any stream of it. -/
theorem tended_announceEnding (h : board.Tended)
    (hreplies : board.RepliesPopular ⟨.predictionend, board.predictionend_seq⟩) (ending : Predictionend)
    (hhas : board.has ⟨.prediction, ending.prediction_id⟩) {content : Option String}
    (hpopular : content ≠ none → board.Popular ⟨.prediction, ending.prediction_id⟩)
    (stock : Stock) (user : User) :
    ((onDb (announceEnding { ending with id := board.predictionend_seq } stock user content)).run Board.exec
      (board.exec (.base (.insertPredictionend ending)))).2.Tended := by
  let row : Ref := ⟨.predictionend, board.predictionend_seq⟩
  let inserted := board.exec (.base (.insertPredictionend ending))
  let popular := inserted.exec (.base (.insertPopularity ⟨row, 0⟩))
  have hgrown : board.Grown row popular :=
    (grown_exec (.base (.insertPredictionend ending)) trivial).trans
      (grown_exec (.base (.insertPopularity ⟨row, 0⟩)) trivial)
  have hkeyed : Keyed popular.toDb := keyed_exec (keyed_exec h.keyed _) _
  have hnew : board.predictionend board.predictionend_seq = none := by
    rw [Db.predictionend, List.find?_eq_none]
    intro old hmem
    have hlt := h.keyed.predictionend_lt old hmem
    rw [decide_eq_true_eq]
    omega
  have hfound : popular.predictionend board.predictionend_seq = some { ending with id := board.predictionend_seq } := by
    change (board.predictionends ++ [_]).find? _ = _
    rw [List.find?_append, show board.predictionends.find? _ = none from hnew]
    simp
  cases content with
  | none =>
    -- `split` on `nil` raises before any stream.
    exact h.grown hgrown hkeyed (.inr (List.Subset.refl _))
  | some content =>
    have hready : popular.Ready row := by
      refine ⟨Option.isSome_of_eq_some hfound, rfl, popular_inserted _ _, hgrown.repliesPopular hreplies, ?_⟩
      intro predictionend _ hpredictionend
      obtain rfl := Option.some.inj (hfound.symm.trans hpredictionend)
      exact ⟨hgrown.has _ hhas, hgrown.popular _ (hpopular (by simp))⟩
    have htended : popular.Tended := h.grown hgrown hkeyed (.inl hready)
    change (Prog.run Board.exec (onDb ((addTags (some content) stock.ticker_symbol .predictionend
      (some board.predictionend_seq)).bind fun tags => (Stream.create! ⟨row, ⟨.stock, stock.id⟩⟩).bind fun _ =>
        (Stream.create! ⟨row, ⟨.user, user.id⟩⟩).bind fun _ => targetTags row tags.2)) popular).2.Tended
    exact htended.run hready (grows_onDb (.bind (only_addTags (fun _ => trivial) (fun _ => trivial)
      (fun _ => trivial) _ _ _ _) fun _ => .bind (grows_streamCreate! _) fun _ =>
      .bind (grows_streamCreate! _) fun _ => grows_targetTags _))

theorem tended_endByHand (h : board.Tended) (hreplies : board.RepliesPopular ⟨.predictionend, board.predictionend_seq⟩)
    {prediction : Prediction} (hhas : board.has ⟨.prediction, prediction.id⟩)
    {now : Time} {content : Option String}
    (hpopular : closestStartTime (graphTime now) ≠ none → content ≠ none → board.Popular ⟨.prediction, prediction.id⟩)
    (hended : board.predictionendOf prediction.id = none) (stock : Stock) (user : User) :
    ((onDb (endByHand { row := prediction, stock := some stock } stock user now content)).run Board.exec
      board).2.Tended := by
  let saved : Board := { board with toDb := board.toDb.saved prediction.id (deactivate.dirty prediction) stock }
  have hgrown : board.Grown ⟨.predictionend, board.predictionend_seq⟩ saved := grown_saved _ _ _ _ _
  have hstreams : saved.streams = board.streams := counted_streams _ _
  have hseq : saved.predictionend_seq = board.predictionend_seq := counted_predictionend_seq _ _
  have hkeyed : Keyed saved.toDb := by
    have hkeyed := h.keyed.exec (.updatePrediction prediction.id (deactivate.dirty prediction))
    change Keyed (Db.counted _ stock)
    unfold Db.counted
    split
    · exact hkeyed.exec _
    · exact hkeyed
  have hsaved : saved.Tended := h.grown hgrown hkeyed (.inr (by rw [hstreams]; exact List.Subset.refl _))
  rw [run_onDb, run_endByHand hended]
  cases htime : closestStartTime (graphTime now) with
  | none => exact hsaved
  | some time =>
    have hreplies' : saved.RepliesPopular ⟨.predictionend, saved.predictionend_seq⟩ := by
      rw [hseq]
      exact hgrown.repliesPopular hreplies
    have hannounced := tended_announceEnding hsaved hreplies' (handEnding prediction stock time content)
      (hgrown.has _ hhas) (fun hcontent => hgrown.popular _ (hpopular (by simp [htime]) hcontent)) stock user
    rw [run_onDb, hseq] at hannounced
    exact hannounced

/-- `create` ends the prediction by hand, and puts the Predictionend into streams. -/
structure Board.EndsByHand (board : Board) (now : Time) (session : Option Nat) (content : Option String)
    (prediction : Prediction) : Prop where
  found : board.prediction prediction.id = some prediction
  unended : board.predictionendOf prediction.id = none
  user : board.sessionUser session ≠ none
  stock : board.stock prediction.stock_id ≠ none
  started : board.startedOrChildren prediction now
  time : closestStartTime (graphTime now) ≠ none
  content : content ≠ none

theorem tended_predictionendsCreate (h : board.Tended)
    (hreplies : board.RepliesPopular ⟨.predictionend, board.predictionend_seq⟩) {now : Time} {session : Option Nat}
    {prediction_id : Nat} {content : Option String}
    (hpopular : ∀ prediction : Prediction, prediction.id = prediction_id →
      board.EndsByHand now session content prediction → board.Popular ⟨.prediction, prediction_id⟩) :
    ((onDb (PredictionendsController.create now session prediction_id content)).run Board.exec board).2.Tended := by
  rw [run_onDb]
  cases hfound : board.prediction prediction_id with
  | none =>
    simp only [PredictionendsController.create, select, bind_eq, query_bind, run_step, exec_select, hfound,
      Option.isSome_none]
    exact h
  | some prediction =>
    have hhas : board.has ⟨.prediction, prediction_id⟩ := Option.isSome_of_eq_some hfound
    obtain ⟨-, rfl⟩ := prediction_found hfound
    rw [run_createPredictionend hfound]
    by_cases hended : (board.predictionendOf prediction.id).isSome = true
    · rw [if_pos hended]
      exact h
    · rw [if_neg hended]
      have hnone : board.predictionendOf prediction.id = none := by simpa using hended
      cases huser : board.sessionUser session with
      | none => exact h
      | some user =>
        cases hstock : board.stock prediction.stock_id with
        | none => exact h
        | some stock =>
          cases hstarted : board.startedOrChildren prediction now with
          | false =>
            simp only
            exact tended_destroyPrediction h hnone
          | true =>
            have hends : closestStartTime (graphTime now) ≠ none → content ≠ none →
                board.Popular ⟨.prediction, prediction.id⟩ := fun htime hcontent =>
              hpopular prediction rfl ⟨hfound, hnone, by simp [huser], by simp [hstock], hstarted, htime, hcontent⟩
            have hend := tended_endByHand h hreplies hhas hends hnone stock user
            rw [run_onDb] at hend
            simp only [if_true]
            rw [bind_eq, pure_eq, run_bind_ret]
            exact hend

end

end MyStockIQ.Posts
