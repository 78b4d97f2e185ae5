import MyStockIQ.Posts
/-!
# What a post leaves

`create` writes posts of the current user, whatever the form says: the
association it builds them through overwrites `user_id`. The other way in takes
`user_id` from the form and asks nobody who is signed in, so a post is the
current user's only if the form says so (`ownName_iff`).

`CommentsController#create` and `PredictionsController#create` tag what they
build before they look whether it is valid, and the Tag is a row of its own: one
that is rejected leaves it (`rejected_leaves_tag`). A reply is tagged once it is saved.
-/

open SharedStore Prog

namespace MyStockIQ.Posts

/-- A request that may leave a post. -/
inductive Post where
  | commentsCreate (ticker_symbol : Option String) (params : CommentParams)
  | commentsPost (params : CommentParams)
  | repliesCreate (params : ReplyParams) (repliable_id repliable_type : Option String)
  | repliesNew (params : ReplyParams)

def Post.request (bcrypt : Sessions.BCrypt) (jar : Sessions.Jar) : Post → Request MyStockIQ.Reply
  | commentsCreate ticker_symbol params => CommentsController.create bcrypt jar ticker_symbol params
  | commentsPost params => CommentsController.post params
  | repliesCreate params repliable_id repliable_type =>
    RepliesController.create bcrypt jar params repliable_id repliable_type
  | repliesNew params => RepliesController.new params

def Post.run (bcrypt : Sessions.BCrypt) (jar : Sessions.Jar) (board : Board) (post : Post) :
    Except Error MyStockIQ.Reply × Board :=
  (post.request bcrypt jar).run Board.exec board

/-! ## Running on the board -/

/-- Who `current_user` finds. -/
def Board.currentUser (board : Board) (bcrypt : Sessions.BCrypt) (jar : Sessions.Jar) : Option User :=
  match jar.session_user_id, jar.signed_user_id with
  | some user_id, _ => board.user user_id
  | none, some user_id => (board.user user_id).filter fun _ =>
      (board.remember_digest user_id).any (bcrypt.isPassword · (jar.remember_token.getD ""))
  | none, none => none

theorem run_currentUser (bcrypt : Sessions.BCrypt) (jar : Sessions.Jar) (board : Board) :
    (currentUser bcrypt jar).run Board.exec board = (.ok (board.currentUser bcrypt jar), board) := by
  obtain ⟨session, signed, token⟩ := jar
  cases session with
  | some id => rfl
  | none =>
    cases signed with
    | none => rfl
    | some id =>
      simp only [currentUser, Board.currentUser, bind_eq, query_bind, run_step, Board.exec]
      cases board.user id with
      | none => rfl
      | some user =>
        cases board.remember_digest id with
        | none => rfl
        | some digest =>
          simp only [Option.any_some, Option.filter]
          split
          · rfl
          · rfl

/-- A program on the tables of `Db` leaves the rest of the board. -/
theorem run_onDb {α : Type} (p : MyStockIQ.Request α) (board : Board) :
    (onDb p).run Board.exec board =
      ((p.run Db.exec board.toDb).1.mapError .base, { board with toDb := (p.run Db.exec board.toDb).2 }) :=
  run_lift Board.tables Stmt.base Error.base (fun _ _ => rfl) p board

theorem run_onDb_ok {α : Type} {p : MyStockIQ.Request α} {board : Board} {a : α} {db : Db}
    (h : p.run Db.exec board.toDb = (.ok a, db)) :
    (onDb p).run Board.exec board = (.ok a, { board with toDb := db }) := by
  rw [run_onDb, h]
  rfl

theorem run_onDb_select {α : Type} (query : Query) (answer : Db → α) (board : Board) :
    (onDb (select query answer)).run Board.exec board = (.ok (answer board.toDb), board) := rfl

theorem only_onDb {α : Type} {A : Stmt → Prop} (h : ∀ stmt, A (.base stmt)) (p : MyStockIQ.Request α) :
    (onDb p).Only A :=
  only_lift Board.tables Stmt.base Error.base h p

/-! ## The authors of new posts -/

/-- The statement inserts no post, or one of this author. -/
def Stmt.By (author : Int) : Stmt → Prop
  | .insertComment row => row.user_id = author
  | .insertReply row => row.user_id = author
  | _ => True

/-- The authors of the posts that were not there before. -/
def created (before after : Board) : List Int :=
  (after.comments.drop before.comments.length).map (·.user_id) ++
    (after.replies.drop before.replies.length).map (·.user_id)

theorem created_append {before after : Board} {comments : List Comment} {replies : List Reply}
    (hcomments : after.comments = before.comments ++ comments) (hreplies : after.replies = before.replies ++ replies) :
    created before after = comments.map (·.user_id) ++ replies.map (·.user_id) := by
  unfold created
  rw [hcomments, hreplies, List.drop_left, List.drop_left]

/-- A program that inserts posts of one author only, creates posts of that author only. -/
theorem created_by {α : Type} {author : Int} {p : Request α} (h : p.Only (Stmt.By author)) (board : Board) :
    ∀ user_id ∈ created board (p.run Board.exec board).2, user_id = author := by
  let I (after : Board) : Prop := ∃ comments replies, after.comments = board.comments ++ comments ∧
    after.replies = board.replies ++ replies ∧ (∀ row ∈ comments, row.user_id = author) ∧
    ∀ row ∈ replies, row.user_id = author
  have hstep : ∀ (after : Board) (stmt : Stmt), stmt.By author → I after → I (after.exec stmt) := by
    rintro after stmt hstmt ⟨comments, replies, hcomments, hreplies, hc, hr⟩
    cases stmt with
    | insertComment row =>
      refine ⟨comments ++ [{ row with id := after.comment_seq }], replies, ?_, hreplies, ?_, hr⟩
      · simp [Board.exec, hcomments]
      · intro c hmem
        rcases mem_inserted hmem with hmem | rfl
        · exact hc c hmem
        · exact hstmt
    | insertReply row =>
      refine ⟨comments, replies ++ [{ row with id := after.reply_seq }], hcomments, ?_, hc, ?_⟩
      · simp [Board.exec, hreplies]
      · intro r hmem
        rcases mem_inserted hmem with hmem | rfl
        · exact hr r hmem
        · exact hstmt
    | _ => exact ⟨comments, replies, hcomments, hreplies, hc, hr⟩
  obtain ⟨comments, replies, hcomments, hreplies, hc, hr⟩ :=
    h.run_inv (I := I) hstep (s := board) ⟨[], [], by simp, by simp, by simp, by simp⟩
  rw [created_append hcomments hreplies]
  intro user_id hmem
  rcases List.mem_append.1 hmem with hmem | hmem
  · obtain ⟨row, hrow, rfl⟩ := List.mem_map.1 hmem
    exact hc row hrow
  · obtain ⟨row, hrow, rfl⟩ := List.mem_map.1 hmem
    exact hr row hrow

theorem created_self (board : Board) : created board board = [] := by simp [created]

theorem only_orNil {α : Type} {A : Stmt → Prop} (value : Option α) (method : String) :
    (orNil value method : Request α).Only A := by
  cases value with
  | none => trivial
  | some a => trivial

theorem by_saveComment {comment : Comment} {author : Int} (h : comment.user_id = author) :
    comment.save.Only (Stmt.By author) := by
  unfold Comment.save
  split
  · exact ⟨h, fun _ => trivial⟩
  · trivial

theorem by_saveReply {reply : Reply} {author : Int} (h : reply.user_id = author) :
    reply.save.Only (Stmt.By author) := by
  unfold Reply.save
  split
  · exact ⟨h, fun _ => trivial⟩
  · trivial

theorem by_onDb {α : Type} (author : Int) (p : MyStockIQ.Request α) : (onDb p).Only (Stmt.By author) :=
  only_onDb (fun _ => trivial) p

theorem by_announceComment {comment : Comment} {author : Int} (h : comment.user_id = author) (stock : Stock)
    (user : User) (tag_id : Nat) (tags : List (Option Ref)) :
    (announceComment comment stock user tag_id tags).Only (Stmt.By author) :=
  .bind (by_saveComment h) fun _ => .bind (by_onDb _ _) fun _ => .bind (by_onDb _ _) fun _ =>
    .bind (by_onDb _ _) fun _ => .bind (by_onDb _ _) fun _ => by_onDb _ _

theorem by_targetRepliable (reply : Reply) (tag : Option Ref) (author : Int) :
    (targetRepliable reply tag).Only (Stmt.By author) := by
  unfold targetRepliable
  split
  · trivial
  · refine .bind ((only_query _ _).2 trivial) fun found => .bind (only_orNil _ _) fun repliable => ?_
    split
    · trivial
    · refine .bind (only_orNil _ _) fun targetable => ?_
      split
      · exact .bind (by_onDb _ _) fun _ => trivial
      · trivial

theorem by_announceReply {reply : Reply} {author : Int} (h : reply.user_id = author) :
    (announceReply reply).Only (Stmt.By author) :=
  .bind (by_saveReply h) fun _ => .bind (by_onDb _ _) fun _ => .bind (by_onDb _ _) fun _ =>
    .each _ fun tag _ => by_targetRepliable reply tag author

theorem valid_comment {new : NewComment} {comment : Comment} (h : new.valid = some comment) :
    new.user_id.cast = some comment.user_id := by
  unfold NewComment.valid at h
  split at h
  · next user_id hcast =>
    split at h
    · obtain rfl := Option.some.inj h
      exact hcast
    · cases h
  · cases h

theorem valid_reply {new : NewReply} {reply : Reply} (h : new.valid = some reply) :
    new.user_id.cast = some reply.user_id := by
  unfold NewReply.valid at h
  split at h
  · next user_id repliable_id hcast _ =>
    split at h
    · obtain rfl := Option.some.inj h
      exact hcast
    · cases h
  · cases h

/-! ## The posts of a request -/

section
variable (bcrypt : Sessions.BCrypt) (jar : Sessions.Jar) (board : Board)

/-- `CommentsController#create` creates posts of the current user only. -/
theorem created_commentsCreate (ticker_symbol : Option String) (params : CommentParams) :
    ∀ user_id ∈ created board ((Post.commentsCreate ticker_symbol params).run bcrypt jar board).2,
      ∃ user, board.currentUser bcrypt jar = some user ∧ user_id = user.id := by
  simp only [Post.run, Post.request, CommentsController.create]
  rw [bind_eq, run_bind_ok Board.exec (run_currentUser bcrypt jar board)]
  cases board.currentUser bcrypt jar with
  | none =>
    rw [bind_eq, run_bind_ok Board.exec (run_onDb_select _ _ board)]
    simp [orNil, created_self]
  | some user =>
    intro user_id hmem
    refine ⟨user, rfl, created_by ?_ board user_id hmem⟩
    refine .bind (by_onDb _ _) fun found => ?_
    simp only [orNil, bind_eq, ret_bind]
    refine .bind (only_orNil found _) fun stock => .bind (by_onDb _ _) fun (tag_id, tags) => ?_
    split
    · next comment hvalid =>
      have hauthor : comment.user_id = user.id := (Option.some.inj (valid_comment hvalid)).symm
      exact .bind (by_announceComment hauthor _ _ _ _) fun _ => trivial
    · trivial

/-- `RepliesController#create` creates posts of the current user only. -/
theorem created_repliesCreate (params : ReplyParams) (repliable_id repliable_type : Option String) :
    ∀ user_id ∈ created board ((Post.repliesCreate params repliable_id repliable_type).run bcrypt jar board).2,
      ∃ user, board.currentUser bcrypt jar = some user ∧ user_id = user.id := by
  simp only [Post.run, Post.request, RepliesController.create]
  rw [bind_eq, run_bind_ok Board.exec (run_currentUser bcrypt jar board)]
  cases board.currentUser bcrypt jar with
  | none => simp [orNil, created_self]
  | some user =>
    intro user_id hmem
    refine ⟨user, rfl, created_by ?_ board user_id hmem⟩
    simp only [orNil, bind_eq, ret_bind]
    split
    · next reply hvalid =>
      have hauthor : reply.user_id = user.id := (Option.some.inj (valid_reply hvalid)).symm
      exact .bind (by_announceReply hauthor) fun _ => trivial
    · trivial

/-- What a form saves, by the way that asks nobody who is signed in. -/
def Post.saved : Post → Option Int
  | commentsPost params =>
    ((NewComment.valid ⟨.form params.user_id, params.content⟩).map (·.user_id)).filter fits
  | repliesNew params =>
    (NewReply.valid ⟨.form params.user_id, .form params.repliable_id, params.repliable_type, params.content⟩).bind
      fun reply => if fits reply.user_id ∧ fits reply.repliable_id then some reply.user_id else none
  | _ => none

/-- `CommentsController#post` creates a comment of the user of its form. -/
theorem created_commentsPost (params : CommentParams) :
    created board ((Post.commentsPost params).run bcrypt jar board).2 = (Post.commentsPost params).saved.toList := by
  simp only [Post.run, Post.request, CommentsController.post, Post.saved]
  cases NewComment.valid ⟨.form params.user_id, params.content⟩ with
  | none => exact created_self board
  | some comment =>
    cases hfits : fits comment.user_id with
    | true => simp [Comment.save, hfits, Board.exec, created, Option.filter]
    | false => simp [Comment.save, hfits, created_self, Option.filter]

/-- `RepliesController#new` creates a reply of the user of its form. -/
theorem created_repliesNew (params : ReplyParams) :
    created board ((Post.repliesNew params).run bcrypt jar board).2 = (Post.repliesNew params).saved.toList := by
  simp only [Post.run, Post.request, RepliesController.new, Post.saved]
  cases NewReply.valid ⟨.form params.user_id, .form params.repliable_id, params.repliable_type, params.content⟩ with
  | none => exact created_self board
  | some reply =>
    by_cases hfits : fits reply.user_id = true ∧ fits reply.repliable_id = true
    · simp [Reply.save, hfits, Board.exec, created]
    · simp [Reply.save, hfits, created_self]

/-- Every post the request creates is one of the current user. -/
def OwnName (post : Post) : Prop :=
  ∀ user_id ∈ created board (post.run bcrypt jar board).2,
    ∃ user, board.currentUser bcrypt jar = some user ∧ user_id = user.id

/-- So it is if and only if a form that is saved as it is says so. -/
theorem ownName_iff (post : Post) : OwnName bcrypt jar board post ↔
    ∀ user_id, post.saved = some user_id → ∃ user, board.currentUser bcrypt jar = some user ∧ user_id = user.id := by
  unfold OwnName
  cases post with
  | commentsCreate ticker_symbol params =>
    simpa [Post.saved] using created_commentsCreate bcrypt jar board ticker_symbol params
  | repliesCreate params repliable_id repliable_type =>
    simpa [Post.saved] using created_repliesCreate bcrypt jar board params repliable_id repliable_type
  | commentsPost params =>
    rw [created_commentsPost]
    simp
  | repliesNew params =>
    rw [created_repliesNew]
    simp

end

/-! ## A post of somebody else -/

/-- The tables of `oneStock`, and no posts. -/
def emptyBoard : Board :=
  { oneStock with
    remember_digest := fun _ => none
    comments := []
    replies := []
    newsarticles := []
    comment_seq := 1
    reply_seq := 1
    newsarticle_seq := 1 }

/-- Nobody is signed in, and the form has the id of the one user. -/
theorem anyone_posts : ¬∀ bcrypt jar board post, OwnName bcrypt jar board post := by
  intro h
  have hcreated : (1 : Int) ∈
      created emptyBoard ((Post.commentsPost ⟨some "up", some "1"⟩).run Sessions.plain ⟨none, none, none⟩ emptyBoard).2 := by
    rw [created_commentsPost]
    decide
  obtain ⟨user, hcurrent, -⟩ := h Sessions.plain ⟨none, none, none⟩ emptyBoard _ 1 hcreated
  cases hcurrent

/-! ## Rejected posts -/

/-- A form that is tagged before it is found valid. -/
inductive Submission where
  | prediction (parse : String → Option Int) (now : Time) (session : Option Nat) (params : PredictionParams)
  | comment (ticker_symbol : Option String) (params : CommentParams)

def Submission.run (bcrypt : Sessions.BCrypt) (jar : Sessions.Jar) (board : Board) :
    Submission → Except Error MyStockIQ.Reply × Board
  | prediction parse now session params =>
    (onDb (PredictionsController.create parse now session params)).run Board.exec board
  | comment ticker_symbol params => (Post.commentsCreate ticker_symbol params).run bcrypt jar board

/-- A saved prediction is not answered with messages. -/
theorem ends_savePrediction (row : Prediction) (tag_id : Nat) (user : User) (stock : Stock) (tags : List (Option Ref)) :
    (savePrediction row tag_id >>= fun prediction =>
      announcePrediction prediction user stock tags >>= fun _ =>
        (return .ok : MyStockIQ.Request MyStockIQ.Reply)).Ends (· = .ok) :=
  .bind (ends_true _) fun _ _ => .bind (ends_true _) fun _ _ => rfl

/-- Messages over the form of a prediction: its Tag is saved, and nothing else. -/
theorem run_create_messages {parse : String → Option Int} {now : Time} {session : Option Nat}
    {params : PredictionParams} {db : Db} {errors : List String}
    (h : ((PredictionsController.create parse now session params).run Db.exec db).1 = .ok (.messages errors)) :
    ∃ tag, ((PredictionsController.create parse now session params).run Db.exec db).2 = db.exec (.insertTag tag) := by
  rcases run_create parse now session params db with
    ⟨e, hrun⟩ | ⟨_, tag, hrun⟩ | ⟨user, stock, row, tag, refs, -, -, -, -, -, -, -, hrun⟩
  · rw [hrun] at h
    cases h
  · exact ⟨tag, by rw [hrun]⟩
  · rw [hrun] at h
    cases (ends_savePrediction row db.tag_seq user stock (refs.map some)).run h

/-- The board with one Tag more. -/
def Board.tagged (board : Board) (tag : Tag) : Board := { board with toDb := board.toDb.exec (.insertTag tag) }

/-- `create` raises and writes nothing, or saves the Tag of a comment, and announces it if it is valid
to its stock, its author and all it targets. -/
theorem run_commentsCreate (bcrypt : Sessions.BCrypt) (jar : Sessions.Jar) (board : Board)
    (ticker_symbol : Option String) (params : CommentParams) :
    (∃ e, (Post.commentsCreate ticker_symbol params).run bcrypt jar board = (.error e, board)) ∨
    (∃ errors tag, (Post.commentsCreate ticker_symbol params).run bcrypt jar board =
      (.ok (.messages errors), board.tagged tag)) ∨
    ∃ comment stock user tag refs, board.currentUser bcrypt jar = some user ∧
      ticker_symbol.bind board.stockTicker = some stock ∧
      (∃ content, params.content = some content ∧ refs = board.toDb.targets stock.ticker_symbol content) ∧
      (Post.commentsCreate ticker_symbol params).run bcrypt jar board =
      (announceComment comment stock user board.tag_seq (List.map some refs) >>= fun _ =>
        return .ok).run Board.exec (board.tagged tag) := by
  simp only [Post.run, Post.request, CommentsController.create]
  rw [bind_eq, run_bind_ok Board.exec (run_currentUser bcrypt jar board), bind_eq,
    run_bind_ok Board.exec (run_onDb_select _ _ board)]
  cases board.currentUser bcrypt jar with
  | none => exact .inl ⟨_, rfl⟩
  | some user =>
    cases ticker_symbol.bind board.toDb.stockTicker with
    | none => exact .inl ⟨_, rfl⟩
    | some stock =>
      cases params.content with
      | none => exact .inl ⟨_, rfl⟩
      | some content =>
        obtain ⟨text, htags⟩ := run_addTags content stock.ticker_symbol .comment none board.toDb
        simp only [orNil, bind_eq, ret_bind]
        rw [run_bind_ok Board.exec (run_onDb_ok htags)]
        cases NewComment.valid ⟨.integer user.id, some content⟩ with
        | none => exact .inr (.inl ⟨_, _, rfl⟩)
        | some comment => exact .inr (.inr ⟨comment, stock, user, _, _, rfl, rfl, ⟨content, rfl, rfl⟩, rfl⟩)

/-- A rejected form changes the tables: there is a Tag more. -/
theorem rejected_leaves_tag (bcrypt : Sessions.BCrypt) (jar : Sessions.Jar) (board : Board) (submission : Submission)
    (errors : List String) (h : (submission.run bcrypt jar board).1 = .ok (.messages errors)) :
    ∃ tag, (submission.run bcrypt jar board).2 = board.tagged tag ∧ board.tagged tag ≠ board := by
  have hne (tag : Tag) : board.tagged tag ≠ board := by
    intro heq
    have htags : board.tags ++ [{ tag with id := board.tag_seq }] = board.tags := congrArg (·.tags) heq
    simp at htags
  cases submission with
  | prediction parse now session params =>
    have hrun := run_onDb (PredictionsController.create parse now session params) board
    simp only [Submission.run] at h ⊢
    rw [hrun] at h ⊢
    have hmessages : ((PredictionsController.create parse now session params).run Db.exec board.toDb).1 =
        .ok (.messages errors) := by
      cases hresult : ((PredictionsController.create parse now session params).run Db.exec board.toDb).1 with
      | error e => rw [hresult] at h; cases h
      | ok reply => rw [hresult] at h; cases h; rfl
    obtain ⟨tag, htag⟩ := run_create_messages hmessages
    refine ⟨tag, ?_, hne tag⟩
    rw [htag]
    rfl
  | comment ticker_symbol params =>
    simp only [Submission.run] at h ⊢
    rcases run_commentsCreate bcrypt jar board ticker_symbol params with
      ⟨e, hrun⟩ | ⟨errors', tag, hrun⟩ | ⟨comment, stock, user, tag, refs, -, -, -, hrun⟩
    · rw [hrun] at h
      cases h
    · exact ⟨tag, by rw [hrun], hne tag⟩
    · rw [hrun] at h
      have hends : (announceComment comment stock user board.tag_seq (refs.map some) >>= fun _ =>
          (return .ok : Request MyStockIQ.Reply)).Ends (· = .ok) := .bind (ends_true _) fun _ _ => rfl
      cases hends.run h

/-- A blank comment of the one user on the one stock. -/
def blankComment : Submission := .comment (some "ABC") ⟨some "", none⟩

theorem blankComment_leaves_tag : ∃ tag, (blankComment.run Sessions.plain ⟨some 1, none, none⟩ emptyBoard).2 =
    emptyBoard.tagged tag ∧ emptyBoard.tagged tag ≠ emptyBoard :=
  rejected_leaves_tag _ _ _ blankComment ["Content can't be blank"] (by decide)

theorem blankComment_not_traceless : ¬∀ bcrypt jar board submission errors,
    (Submission.run bcrypt jar board submission).1 = .ok (.messages errors) →
      (Submission.run bcrypt jar board submission).2 = board := by
  intro h
  have heq := h Sessions.plain ⟨some 1, none, none⟩ emptyBoard blankComment ["Content can't be blank"] (by decide)
  have htags : (blankComment.run Sessions.plain ⟨some 1, none, none⟩ emptyBoard).2.tags = [] := by
    rw [heq]
    rfl
  exact absurd htags (by decide)

/-- A rejected reply leaves no trace: it is tagged once it is saved. -/
theorem rejected_reply (bcrypt : Sessions.BCrypt) (jar : Sessions.Jar) (board : Board) (params : ReplyParams)
    (repliable_id repliable_type : Option String) (errors : List String)
    (h : ((Post.repliesCreate params repliable_id repliable_type).run bcrypt jar board).1 = .ok (.messages errors)) :
    ((Post.repliesCreate params repliable_id repliable_type).run bcrypt jar board).2 = board := by
  simp only [Post.run, Post.request, RepliesController.create] at h ⊢
  rw [bind_eq, run_bind_ok Board.exec (run_currentUser bcrypt jar board)] at h ⊢
  cases hcurrent : board.currentUser bcrypt jar with
  | none => rfl
  | some user =>
    simp only [hcurrent, orNil, bind_eq, ret_bind] at h ⊢
    split at h
    · next reply hvalid =>
      have hends : (announceReply reply >>= fun _ => (return .ok : Request MyStockIQ.Reply)).Ends (· = .ok) :=
        .bind (ends_true _) fun _ _ => rfl
      cases hends.run h
    · simp

end MyStockIQ.Posts
