import MyStockIQ.Issued
/-!
# What every post reaches

In a run no item but one that `streams#new` was told about has a stream before it
is there. So what the three requests announce is all a new item has: the user, the
stock and the mentions, each once.
-/

open SharedStore Prog MyStockIQ.Scraper

namespace MyStockIQ.Posts

/-- The id of `row` has been handed out, if it is one of a prediction, a Predictionend or a comment. -/
abbrev Board.Issued (board : Board) (row : Ref) : Prop := board.toDb.Issued board.comment_seq row

/-- The rows are numbered, and every stream is of an item whose id has been handed out. -/
structure Board.Fed (board : Board) : Prop where
  keyed : Keyed board.toDb
  comments : ∀ comment ∈ board.comments, comment.id < board.comment_seq
  streams : MyStockIQ.Fed board.comment_seq board.toDb

/-! ## Statements and programs -/

section
variable {board : Board} {row : Ref}

theorem board_issued_exec (h : board.Issued row) (stmt : Stmt) : (board.exec stmt).Issued row := by
  cases stmt with
  | insertComment comment =>
    obtain ⟨type, id⟩ := row
    cases type with
    | comment => exact Nat.lt_succ_of_lt h
    | _ => exact h
  | base stmt => exact issued_exec h stmt
  | _ => exact h

theorem Board.Fed.exec (h : board.Fed) {stmt : Stmt}
    (hs : ∀ stream, stmt = .base (.insertStream stream) → board.Issued stream.streamable) : (board.exec stmt).Fed := by
  refine ⟨keyed_exec h.keyed stmt, ?_, ?_⟩
  · cases stmt with
    | insertComment comment =>
      intro other hmem
      rcases mem_inserted hmem with hmem | rfl
      · exact Nat.lt_succ_of_lt (h.comments other hmem)
      · exact Nat.lt_succ_self board.comment_seq
    | _ => exact h.comments
  · cases stmt with
    | insertComment comment => exact fun stream hmem => board_issued_exec (h.streams stream hmem) (.insertComment comment)
    | base stmt => exact h.streams.exec fun stream hstream => hs stream (by rw [hstream])
    | _ => exact h.streams

/-- What is there has been handed out. -/
theorem Board.Fed.issued (h : board.Fed) (hhas : board.has row) : board.Issued row := by
  obtain ⟨type, id⟩ := row
  cases type with
  | prediction =>
    obtain ⟨prediction, hfound⟩ := Option.isSome_iff_exists.1 hhas
    obtain ⟨hmem, rfl⟩ := prediction_found hfound
    exact h.keyed.prediction_lt prediction hmem
  | predictionend =>
    obtain ⟨predictionend, hfound⟩ := Option.isSome_iff_exists.1 hhas
    obtain ⟨hmem, rfl⟩ := predictionend_found hfound
    exact h.keyed.predictionend_lt predictionend hmem
  | comment =>
    obtain ⟨comment, hmem, hid⟩ := List.any_eq_true.1 hhas
    obtain rfl : comment.id = id := by simpa using hid
    exact h.comments comment hmem
  | _ => trivial

/-- A program whose streams are all of `row`. -/
theorem outcome_grows {α : Type} {p : Request α} (h : p.Only (Stmt.Grows row)) :
    Outcome Board.exec (fun board => board.Fed ∧ board.Issued row) p (fun _ board => board.Fed ∧ board.Issued row)
      (fun board => board.Fed ∧ board.Issued row) := by
  refine h.outcome fun board stmt hgrows ⟨hfed, hrow⟩ => ⟨hfed.exec ?_, board_issued_exec hrow stmt⟩
  rintro stream rfl
  obtain rfl : stream.streamable = row := hgrows
  exact hrow

theorem Board.Fed.grows {α : Type} (h : board.Fed) (hrow : board.Issued row) {p : Request α}
    (hp : p.Only (Stmt.Grows row)) : (p.run Board.exec board).2.Fed :=
  ((outcome_grows hp).store ⟨h, hrow⟩).1

theorem Board.Fed.withDb (h : board.Fed) {db : Db} (hkeyed : Keyed db) (hfed : MyStockIQ.Fed board.comment_seq db) :
    Board.Fed { board with toDb := db } := ⟨hkeyed, h.comments, hfed⟩

end

/-! ## Requests -/

section
variable {board : Board}

theorem Board.Fed.onDb {α : Type} (h : board.Fed) {p : MyStockIQ.Request α} (hp : Feeds board.comment_seq p) :
    ((onDb p).run Board.exec board).2.Fed := by
  rw [run_onDb]
  exact h.withDb (h.keyed.run p) (hp.store h.streams)

theorem Board.Fed.tagged (h : board.Fed) (tag : Tag) : (board.tagged tag).Fed := by
  have hexec : (board.exec (.base (.insertTag tag))).Fed := h.exec (by simp)
  exact hexec

theorem Board.Fed.announceComment (h : board.Fed) (comment : Comment) (stock : Stock) (user : User) (tag_id : Nat)
    (tags : List (Option Ref)) : ((announceComment comment stock user tag_id tags).run Board.exec board).2.Fed := by
  cases hfits : fits comment.user_id with
  | false =>
    have hrun : (Posts.announceComment comment stock user tag_id tags).run Board.exec board = (.error .rangeError, board) := by
      simp [Posts.announceComment, Comment.save, hfits]
    rw [hrun]
    exact h
  | true =>
    have hinserted : (board.exec (.insertComment comment)).Fed := h.exec (by simp)
    have hissued : (board.exec (.insertComment comment)).Issued ⟨.comment, board.comment_seq⟩ :=
      Nat.lt_succ_self board.comment_seq
    rw [run_announceComment hfits]
    exact hinserted.grows hissued (grows_streamComment _ _ _ _ _)

/-- The streams of a reply are of what it replies to, which is there. -/
theorem outcome_targetRepliable (reply : Reply) (tag : Option Ref) :
    Outcome Board.exec Board.Fed (targetRepliable reply tag) (fun _ => Board.Fed) Board.Fed := by
  unfold targetRepliable
  cases htype : constantize reply.repliable_type with
  | none => exact .raise fun _ h => h
  | some type =>
    refine .of_each fun board h => .ok_bind (a := reply.repliable.filter board.has) rfl ?_
    cases hfound : reply.repliable.filter board.has with
    | none => exact .raise fun _ heq => heq ▸ h
    | some row =>
      obtain ⟨-, hhas⟩ := Option.filter_eq_some_iff.1 hfound
      -- The record is there, so its id has been handed out before.
      refine ((outcome_grows ?_).at_store ⟨h, h.issued hhas⟩).conseq (fun _ h => h) (fun _ _ h => h.1) fun _ h => h.1
      simp only [orNil, bind_eq, ret_bind]
      split
      · trivial
      · refine .bind (only_orNil _ _) fun targetable => ?_
        split
        · exact .bind (grows_onDb (grows_streamSave _)) fun _ => trivial
        · trivial

theorem Board.Fed.announceReply (h : board.Fed) (reply : Reply) :
    ((announceReply reply).run Board.exec board).2.Fed := by
  by_cases hfits : fits reply.user_id ∧ fits reply.repliable_id
  · obtain ⟨tag, hwords⟩ := run_addWordTags reply.content .reply board.reply_seq (board.replied reply)
    have hinserted : (board.exec (.insertReply reply)).Fed := h.exec (by simp)
    have hreplied : (board.replied reply).Fed := hinserted.exec (by simp)
    rw [run_announceReply hfits, run_bind_ok Board.exec hwords]
    exact (Outcome.each _ fun tag _ => outcome_targetRepliable reply tag).store (hreplied.tagged tag)
  · have hraise : (Posts.announceReply reply).run Board.exec board = (.error .rangeError, board) := by
      rw [Posts.announceReply, Reply.save, if_neg hfits]
      rfl
    rw [hraise]
    exact h

theorem Board.Fed.post (h : board.Fed) (bcrypt : Sessions.BCrypt) (jar : Sessions.Jar) (form : Post) :
    (form.run bcrypt jar board).2.Fed := by
  cases form with
  | commentsCreate ticker_symbol params =>
    rcases run_commentsCreate bcrypt jar board ticker_symbol params with
      ⟨e, hrun⟩ | ⟨errors, tag, hrun⟩ | ⟨comment, stock, user, tag, refs, -, -, -, hrun⟩
    · rw [hrun]
      exact h
    · rw [hrun]
      exact h.tagged tag
    · rw [hrun, bind_eq, pure_eq, run_bind_ret]
      exact (h.tagged tag).announceComment comment stock user board.tag_seq (refs.map some)
  | commentsPost params =>
    simp only [Post.run, Post.request, CommentsController.post]
    split
    · next comment hvalid =>
      rw [bind_eq, pure_eq, run_bind_ret]
      unfold Comment.save
      split
      · have hinserted : (board.exec (.insertComment comment)).Fed := h.exec (by simp)
        exact hinserted
      · exact h
    · exact h
  | repliesCreate params repliable_id repliable_type =>
    simp only [Post.run, Post.request, RepliesController.create]
    rw [bind_eq, run_bind_ok Board.exec (run_currentUser bcrypt jar board)]
    cases board.currentUser bcrypt jar with
    | none => exact h
    | some user =>
      simp only [orNil, bind_eq, ret_bind]
      split
      · next reply hvalid =>
        rw [pure_eq, run_bind_ret]
        exact h.announceReply reply
      · exact h
  | repliesNew params =>
    simp only [Post.run, Post.request, RepliesController.new]
    split
    · next reply hvalid =>
      rw [bind_eq, pure_eq, run_bind_ret]
      unfold Reply.save
      split
      · have hinserted : (board.exec (.insertReply reply)).Fed := h.exec (by simp)
        exact hinserted
      · exact h
    · exact h

/-- The statement inserts no stream, or one of an article. -/
def Stmt.OfNews : Stmt → Prop
  | .base (.insertStream stream) => stream.streamable.type = .newsarticle
  | _ => True

theorem ofNews_saveNewsItem (ticker_symbol : String) (news_item : NewsHash) :
    (saveNewsItem ticker_symbol news_item).Only Stmt.OfNews := by
  have honDb {α : Type} {p : MyStockIQ.Request α} (h : p.Only fun stmt => Stmt.OfNews (.base stmt)) :
      (onDb p).Only Stmt.OfNews := Only.lift Board.tables Stmt.base Error.base h
  exact .bind ((only_query _ _).2 trivial) fun _ => .bind (honDb ((only_query _ _).2 trivial)) fun _ =>
    .bind (only_orNil _ _) fun news_object => .bind (only_orNil _ _) fun target_stock =>
      .bind (honDb (only_streamSave trivial rfl)) fun _ => honDb ((only_exec _).2 trivial)

/-- A run inserts articles and goes through what it inserted, unless a quote makes its text another statement. -/
theorem NewsRun.run_inv {run : NewsRun} {A : Stmt → Prop} {I : Board → Prop}
    (hclean : ∀ article ∈ run.fresh board, '\'' ∉ interpolate article.google_news_id)
    (hinsert : ∀ rows, A (.insertNewsarticles rows))
    (hitem : ∀ news_item, (saveNewsItem run.ticker_symbol news_item).Only A)
    (hI : ∀ board stmt, A stmt → I board → I (board.exec stmt)) (h : I board) : I (run.run board) := by
  rw [NewsRun.run_eq]
  split
  · exact h
  · next hempty =>
    have hne : run.fresh board ≠ [] := by simpa using hempty
    have hsave := run_saveToDb run.site run.misread hne hclean board
    split at hsave
    · rw [run_bind_ok Board.exec hsave]
      exact Only.run_inv (.each _ fun news_item _ => hitem news_item) hI (hI board _ (hinsert _) h)
    · rw [run_bind_error Board.exec hsave]
      exact h

/-- The streams of a run are of articles. -/
theorem Board.Fed.googleNews (h : board.Fed) {run : NewsRun}
    (hclean : ∀ article ∈ run.fresh board, '\'' ∉ interpolate article.google_news_id) : (run.run board).Fed := by
  refine NewsRun.run_inv hclean (fun _ => trivial) (ofNews_saveNewsItem run.ticker_symbol) ?_ h
  intro board stmt hs hfed
  refine hfed.exec ?_
  rintro ⟨⟨type, id⟩, targetable⟩ rfl
  obtain rfl : type = .newsarticle := hs
  trivial

end

/-! ## Runs -/

/-- A request of a page, or one of the other actions. -/
inductive Visit where
  | routed (page : Routed)
  | action (job : Action)

namespace Visit

/-- The board a visit leaves. `parse` is `DateTime.parse`. -/
def run (bcrypt : Sessions.BCrypt) (parse : String → Option Int) : Visit → Board → Board
  | .routed page, board => page.run bcrypt parse board
  | .action job, board => { board with toDb := job.run parse board.toDb }

/-- `streams#new` is given no item whose id is still to be handed out, and no id of
an article has a quote, which would make another statement of the insertion. -/
def Admits (board : Board) : Visit → Prop
  | .routed (.streamsNew params) => board.Issued params.streamable
  | .routed (.googleNews run) => ∀ article ∈ run.fresh board, '\'' ∉ interpolate article.google_news_id
  | _ => True

end Visit

section
variable {bcrypt : Sessions.BCrypt} {parse : String → Option Int} {board : Board}

theorem keyed_action {db : Db} (h : Keyed db) (action : Action) : Keyed (action.run parse db) := by
  cases action with
  | request job => exact h.run _
  | createUser row => exact h.of_core rfl
  | destroyUser username =>
    simp only [Action.run, Db.destroyUser]
    cases db.userNamed username with
    | none => exact h
    | some user => exact h.of_core rfl
  | quandlAllstocks rows => exact h.of_core rfl
  | googleDaily ticker_symbol date close_price => exact h.run _

theorem Board.Fed.visit (h : board.Fed) {visit : Visit} (hadmits : visit.Admits board) :
    (visit.run bcrypt parse board).Fed := by
  cases visit with
  | action job => exact h.withDb (keyed_action h.keyed job) (h.streams.action job)
  | routed page =>
    cases page with
    | post jar form => exact h.post bcrypt jar form
    | streamsNew params =>
      change ((StreamsController.new params).run Board.exec board).2.Fed
      -- The one request that sends streams of an item it has not found.
      unfold StreamsController.new
      rw [bind_eq, pure_eq, run_bind_ret]
      exact h.grows hadmits (grows_onDb (grows_streamSave params.targetable))
    | predictionsCreate now session params =>
      change ((Posts.onDb (PredictionsController.create parse now session params)).run Board.exec board).2.Fed
      rw [run_onDb]
      exact h.withDb (h.keyed.run _) (h.streams.create parse now session params)
    | predictionendsCreate now session prediction_id content =>
      exact h.onDb (feeds_predictionendsCreate now session prediction_id content)
    | googleNews run => exact h.googleNews hadmits

/-- The targets of an item's streams. -/
def Board.targetsOf (board : Board) (item : Ref) : List Ref :=
  (board.streams.filter (·.streamable = item)).map (·.targetable)

/-- The new item has streams to the user, to the stock and to what `add_tags`
returned of its text, each once, and the streams of other items are as before. -/
structure FannedOut (before after : Board) (item : Ref) (user : User) (stock : Stock) (content : String) : Prop where
  new : before.has item = false ∧ after.has item = true
  targets : ∃ refs, Tagged before.toDb stock.ticker_symbol content refs ∧ (after.targetsOf item).Nodup ∧
    ∀ ref, ref ∈ after.targetsOf item ↔ ref = ⟨.user, user.id⟩ ∨ ref = ⟨.stock, stock.id⟩ ∨ ref ∈ refs
  others : after.streams.filter (·.streamable ≠ item) = before.streams.filter (·.streamable ≠ item)

theorem Announced.fannedOut {before after : Board} {item : Ref} {user : User} {stock : Stock} {content : String}
    (h : Announced before after item user stock content) (hnone : Unstreamed item before.toDb) :
    FannedOut before after item user stock content := by
  obtain ⟨refs, htagged, ⟨new, hnew, hnodup, hfresh⟩, hall⟩ := h.fans
  have hold : before.streams.filter (·.streamable = item) = [] :=
    List.filter_eq_nil_iff.2 fun stream hmem => by simpa using hnone stream hmem
  have hitem : new.filter (·.streamable = item) = new :=
    List.filter_eq_self.2 fun stream hmem => by simpa using (hfresh stream hmem).2.1
  have hother : new.filter (·.streamable ≠ item) = [] :=
    List.filter_eq_nil_iff.2 fun stream hmem => by simpa using (hfresh stream hmem).2.1
  have htargets : after.targetsOf item = new.map (·.targetable) := by
    rw [Board.targetsOf, hnew, List.filter_append, hold, List.nil_append, hitem]
  refine ⟨h.new, ⟨refs, htagged, ?_, fun ref => ?_⟩, ?_⟩
  · rw [htargets]
    refine hnodup.map_on fun stream hmem other hother hsame => ?_
    obtain ⟨streamable, targetable⟩ := stream
    obtain ⟨streamable', targetable'⟩ := other
    have hstreamable : streamable = streamable' := (hfresh _ hmem).2.1.trans (hfresh _ hother).2.1.symm
    exact congrArg₂ Stream.mk hstreamable hsame
  · rw [htargets, List.mem_map]
    constructor
    · rintro ⟨stream, hmem, rfl⟩
      simpa using (hfresh stream hmem).2.2
    · intro href
      have hmem := hall ref (by simpa using href)
      rw [hnew, List.mem_append] at hmem
      rcases hmem with hmem | hmem
      · exact absurd rfl (hnone _ hmem)
      · exact ⟨_, hmem, rfl⟩
  · rw [hnew, List.filter_append, hother, List.append_nil]

/-- Whatever is announced next on the board reaches whom it should. -/
structure FansOut (bcrypt : Sessions.BCrypt) (parse : String → Option Int) (board : Board) : Prop where
  comment : ∀ jar ticker_symbol params after,
    (Post.commentsCreate ticker_symbol params).run bcrypt jar board = (.ok .ok, after) →
      ∃ user stock content, board.currentUser bcrypt jar = some user ∧
        ticker_symbol.bind board.stockTicker = some stock ∧ params.content = some content ∧
        FannedOut board after ⟨.comment, board.comment_seq⟩ user stock content
  prediction : ∀ now session params db,
    (PredictionsController.create parse now session params).run Db.exec board.toDb = (.ok .ok, db) →
      ∃ user stock content, board.sessionUser session = some user ∧ board.stock params.stock_id = some stock ∧
        params.content = some content ∧
        FannedOut board { board with toDb := db } ⟨.prediction, board.prediction_seq⟩ user stock content
  ending : ∀ now session prediction_id content db,
    (PredictionendsController.create now session prediction_id content).run Db.exec board.toDb =
        (.ok (.messages ["prediction ended."]), db) →
      ∃ user prediction stock text, board.sessionUser session = some user ∧
        board.prediction prediction_id = some prediction ∧ board.stock prediction.stock_id = some stock ∧
        content = some text ∧
        FannedOut board { board with toDb := db } ⟨.predictionend, board.predictionend_seq⟩ user stock text

theorem Board.Fed.fansOut (h : board.Fed) : FansOut bcrypt parse board := by
  have hnone {item : Ref} (hitem : ¬board.Issued item) : Unstreamed item board.toDb := by
    rintro stream hmem rfl
    exact hitem (h.streams stream hmem)
  constructor
  · intro jar ticker_symbol params after hok
    obtain ⟨user, stock, content, huser, hstock, hcontent, hannounced⟩ := announced_commentsCreate h.comments hok
    exact ⟨user, stock, content, huser, hstock, hcontent, hannounced.fannedOut (hnone (lt_irrefl board.comment_seq))⟩
  · intro now session params db hok
    obtain ⟨user, stock, content, huser, hstock, hcontent, hannounced⟩ := announced_predictionsCreate h.keyed hok
    exact ⟨user, stock, content, huser, hstock, hcontent, hannounced.fannedOut (hnone (lt_irrefl board.prediction_seq))⟩
  · intro now session prediction_id content db hok
    obtain ⟨user, prediction, stock, text, huser, hprediction, hstock, hcontent, hannounced⟩ :=
      announced_predictionendsCreate h.keyed hok
    exact ⟨user, prediction, stock, text, huser, hprediction, hstock, hcontent,
      hannounced.fannedOut (hnone (lt_irrefl board.predictionend_seq))⟩

end

/-- After any series of visits, what is announced goes to its user, its stock and
its mentions, each once, and to nobody else. -/
theorem announcement_fans_out (bcrypt : Sessions.BCrypt) (parse : String → Option Int) {start board : Board}
    (hstart : start.Fed) (hboard : Serial (Visit.run bcrypt parse) Visit.Admits start board) :
    FansOut bcrypt parse board := by
  have hfed : board.Fed := hboard.inv hstart fun _ _ hadmits h => h.visit hadmits
  exact hfed.fansOut

theorem fed_emptyBoard : emptyBoard.Fed :=
  ⟨keyed_emptyBoard, by simp [emptyBoard], by simp [emptyBoard, oneStock, MyStockIQ.Fed]⟩

theorem announcement_fans_out_commented : FansOut Sessions.plain tuesdayAfternoon commented := by
  let visit : Visit := .routed (.post analyst (.commentsCreate (some "ABC") ⟨some "up", none⟩))
  have hadmits : visit.Admits emptyBoard := trivial
  have hcommented : Serial (Visit.run Sessions.plain tuesdayAfternoon) Visit.Admits emptyBoard
      (visit.run Sessions.plain tuesdayAfternoon emptyBoard) := .run .init hadmits
  exact announcement_fans_out Sessions.plain tuesdayAfternoon fed_emptyBoard hcommented

theorem Tagged.eq_targets {db : Db} {ticker_symbol content : String} {refs : List Ref}
    (h : Tagged db ticker_symbol content refs) : refs = db.targets ticker_symbol content := by
  obtain ⟨tagable_type, tagable_id, tag_id, db', hrun⟩ := h
  obtain ⟨text, htargets⟩ := run_addTags content ticker_symbol tagable_type tagable_id db
  have hsame := congrArg Prod.fst (hrun.symm.trans htargets)
  simp only [Except.ok.injEq, Prod.mk.injEq] at hsame
  exact List.map_injective_iff.2 (Option.some_injective Ref) hsame.2

/-- A stream to a user who is not there, of the comment that is to come. -/
def foretold : Visit := .routed (.streamsNew ⟨⟨.comment, 1⟩, ⟨.user, 7⟩⟩)

/-- The comment that then comes is in the stream as well. -/
theorem stream_before_comment : ¬∀ bcrypt parse (start board : Board), start.Fed →
    Serial (Visit.run bcrypt parse) (fun _ _ => True) start board → FansOut bcrypt parse board := by
  intro h
  let board := foretold.run Sessions.plain tuesdayAfternoon emptyBoard
  have hrun : Serial (Visit.run Sessions.plain tuesdayAfternoon) (fun _ _ => True) emptyBoard
      (foretold.run Sessions.plain tuesdayAfternoon emptyBoard) := .run .init trivial
  let after : Board := ((Post.commentsCreate (some "ABC") ⟨some "up", none⟩).run Sessions.plain analyst board).2
  have hout := (h Sessions.plain tuesdayAfternoon emptyBoard board fed_emptyBoard hrun).comment analyst (some "ABC")
    ⟨some "up", none⟩ after (Prod.ext (by decide) rfl)
  obtain ⟨user, stock, content, huser, hstock, hcontent, hfanned⟩ := hout
  obtain rfl : (⟨1, "analyst"⟩ : User) = user := Option.some.inj huser
  obtain rfl : "up" = content := Option.some.inj hcontent
  obtain ⟨refs, htagged, -, hall⟩ := hfanned.targets
  have hrefs : refs = board.toDb.targets stock.ticker_symbol "up" := Tagged.eq_targets htagged
  -- The stream targets user 7, whom the text does not mention.
  have hmem := (hall ⟨.user, 7⟩).1 (by decide)
  rw [hrefs] at hmem
  cases Option.some.inj hstock
  revert hmem
  decide

end MyStockIQ.Posts
