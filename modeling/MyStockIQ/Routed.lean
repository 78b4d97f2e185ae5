import MyStockIQ.Tending
/-!
# The sweep after the routed actions

What the other ways in leave to the sweep: replies, streams by hand and the news.
`comments#post` and `replies#new` save what the form says without a popularity,
unlike `comments#create` and `replies#create`, and `streams#new` puts whatever it
is given into a stream. So the sweep gets through (`sweep_reaches`) as long as no
row gets into a stream that lacks a popularity, or has a reply that lacks one.
-/

open SharedStore Prog MyStockIQ.Scraper

namespace MyStockIQ.Posts

/-! ## Replies -/

section
variable {board : Board}

/-- A reply is inserted that nothing in a stream is the repliable of. -/
theorem tended_insertReply (h : board.Tended) {reply : Reply}
    (hreply : ∀ stream ∈ board.streams, reply.repliable ≠ some stream.streamable) :
    (board.exec (.insertReply reply)).Tended := by
  refine ⟨h.keyed, fun stream hmem => ?_⟩
  have hready := h.ready stream hmem
  have hhas : (board.exec (.insertReply reply)).has stream.streamable := by
    have hhas := hready.has
    have hstreamed := hready.streamed
    obtain ⟨⟨type, id⟩, targetable⟩ := stream
    cases type with
    | reply => cases hstreamed
    | _ => exact hhas
  refine ⟨hhas, hready.streamed, hready.popular, ?_, hready.prediction⟩
  intro other hother hrepliable
  rcases mem_inserted hother with hother | rfl
  · exact hready.replies other hother hrepliable
  · exact absurd hrepliable (hreply stream hmem)

/-- The board with a reply and its popularity. -/
def Board.replied (board : Board) (reply : Reply) : Board :=
  (board.exec (.insertReply reply)).exec (.base (.insertPopularity ⟨⟨.reply, board.reply_seq⟩, 0⟩))

/-- A row that is no reply is as ready as it was. -/
theorem ready_replied {row : Ref} (hready : board.Ready row) (reply : Reply) : (board.replied reply).Ready row := by
  have hpopular (other : Ref) (h : board.Popular other) : (board.replied reply).Popular other := by
    have hinserted : (board.exec (.insertReply reply)).Popular other := h
    exact popular_insert hinserted
  have hhas (other : Ref) (hne : other.type ≠ .reply) (h : board.has other) : (board.replied reply).has other := by
    obtain ⟨type, id⟩ := other
    cases type with
    | reply => exact absurd rfl hne
    | _ => exact h
  have hne : row.type ≠ .reply := by
    intro htype
    have hstreamed := hready.streamed
    rw [htype] at hstreamed
    cases hstreamed
  refine ⟨hhas row hne hready.has, hready.streamed, hpopular row hready.popular, ?_, ?_⟩
  · intro other hother hrepliable
    rcases mem_inserted hother with hother | rfl
    · exact hpopular _ (hready.replies other hother hrepliable)
    · exact popular_inserted (board.exec (.insertReply reply)) ⟨⟨.reply, board.reply_seq⟩, 0⟩
  · intro predictionend htype hfound
    obtain ⟨hprediction, hpop⟩ := hready.prediction predictionend htype hfound
    exact ⟨hhas _ (by simp) hprediction, hpopular _ hpop⟩

theorem tended_replied (h : board.Tended) (reply : Reply) : (board.replied reply).Tended := by
  have hkeyed : Keyed (board.exec (.insertReply reply)).toDb := h.keyed
  exact ⟨keyed_exec hkeyed _, fun stream hmem => ready_replied (h.ready stream hmem) reply⟩

/-- What the words of a text target. -/
def Board.targets (board : Board) (content : String) : List Ref := (words content).flatMap board.wordTargets

theorem run_addWordTags (content : String) (tagable_type : ClassName) (tagable_id : Nat) (board : Board) :
    ∃ tag, (onDb (addWordTags content tagable_type tagable_id)).run Board.exec board =
      (.ok ((board.targets content).map some), board.tagged tag) := by
  obtain ⟨tagged, hwords⟩ := run_tagWords (words content) board.toDb
  have hrun : (addWordTags content tagable_type tagable_id).run Db.exec board.toDb =
      (.ok ((board.targets content).map some),
        board.toDb.exec (.insertTag ⟨0, String.intercalate " " tagged, tagable_type, some tagable_id⟩)) :=
    run_bind_ok Db.exec hwords _
  exact ⟨_, run_onDb_ok hrun⟩

theorem repliable_type {reply : Reply} {row : Ref} (h : reply.repliable = some row) :
    constantize reply.repliable_type = some row.type := by
  obtain ⟨type, htype, hrow⟩ := Option.bind_eq_some_iff.1 h
  split at hrow
  · rw [← Option.some.inj hrow]
    exact htype
  · cases hrow

/-- The streams are from the repliable. -/
theorem grows_targetRepliable {reply : Reply} {row : Ref} (h : reply.repliable = some row) (tag : Option Ref) :
    (targetRepliable reply tag).Only (Stmt.Grows row) := by
  unfold targetRepliable
  rw [repliable_type h]
  refine .bind_ends (R := fun found => ∀ other, found = some other → other = row) ((only_query _ _).2 trivial) ?_ ?_
  · intro board other hother
    rw [h] at hother
    exact (Option.some.inj (Option.filter_eq_some_iff.1 hother).1).symm
  · intro found hfound
    cases found with
    | none => trivial
    | some other =>
      obtain rfl := hfound other rfl
      simp only [orNil, bind_eq, ret_bind]
      split
      · trivial
      · refine .bind (only_orNil _ _) fun targetable => ?_
        split
        · exact .bind (grows_onDb (grows_streamSave _)) fun _ => trivial
        · trivial

/-- Nothing is done where the repliable is missing, or is no streamable. -/
theorem run_targetRepliable_none {reply : Reply}
    (h : ∀ row, reply.repliable = some row → board.has row → ¬streamed row.type) (tag : Option Ref) :
    ((targetRepliable reply tag).run Board.exec board).2 = board := by
  unfold targetRepliable
  cases htype : constantize reply.repliable_type with
  | none => rfl
  | some type =>
    simp only [bind_eq, query_bind, run_step, Board.exec]
    cases hfound : reply.repliable.filter board.has with
    | none => rfl
    | some row =>
      obtain ⟨hrow, hhas⟩ := Option.filter_eq_some_iff.1 hfound
      have hstreamed : ¬streamed type := by
        have hsame := (repliable_type hrow).symm.trans htype
        rw [← Option.some.inj hsame]
        exact h row hrow hhas
      simp only [orNil, ret_bind, if_neg hstreamed]
      split
      · rfl
      · cases tag with
        | none => rfl
        | some tag => rfl

theorem run_targetRepliables_none {reply : Reply}
    (h : ∀ row, reply.repliable = some row → board.has row → ¬streamed row.type) (tags : List (Option Ref)) :
    ((Prog.each (targetRepliable reply) tags).run Board.exec board).2 = board := by
  induction tags with
  | nil => rfl
  | cons tag tags ih =>
    have hone := run_targetRepliable_none h tag
    simp only [Prog.each, run_bind]
    rcases hrun : (targetRepliable reply tag).run Board.exec board with ⟨e | _, after⟩
    · rw [hrun] at hone
      exact hone
    · rw [hrun] at hone
      obtain rfl : after = board := hone
      exact ih

theorem run_onDb_write (stmt : MyStockIQ.Stmt) (board : Board) :
    (onDb (write stmt)).run Board.exec board = (.ok (), board.exec (.base stmt)) := rfl

theorem run_announceReply {reply : Reply} (h : fits reply.user_id ∧ fits reply.repliable_id) (board : Board) :
    (announceReply reply).run Board.exec board =
      ((onDb (addWordTags reply.content .reply board.reply_seq)).bind fun tags =>
        Prog.each (targetRepliable reply) tags).run Board.exec (board.replied reply) := by
  have hsave : reply.save.run Board.exec board = (.ok board.reply_seq, board.exec (.insertReply reply)) := by
    rw [Reply.save, if_pos h]
    rfl
  unfold announceReply
  rw [bind_eq, run_bind_ok Board.exec hsave, bind_eq, run_bind_ok Board.exec (run_onDb_write _ _)]
  rfl

/-- A reply that is saved is popular. The streams of its text are from its repliable. -/
theorem tended_announceReply (h : board.Tended) {reply : Reply}
    (hreply : ∀ row, reply.repliable = some row → board.has row → streamed row.type →
      board.targets reply.content ≠ [] → board.Ready row) :
    ((announceReply reply).run Board.exec board).2.Tended := by
  by_cases hfits : fits reply.user_id ∧ fits reply.repliable_id
  · obtain ⟨tag, hwords⟩ := run_addWordTags reply.content .reply board.reply_seq (board.replied reply)
    have htended : ((board.replied reply).tagged tag).Tended := (tended_replied h reply).tagged tag
    rw [run_announceReply hfits, run_bind_ok Board.exec hwords]
    by_cases hnone : ∀ row, reply.repliable = some row → board.has row → ¬streamed row.type
    · have hsame : ∀ row, reply.repliable = some row → ((board.replied reply).tagged tag).has row → ¬streamed row.type := by
        rintro ⟨type, id⟩ hrow hhas hstreamed
        cases type with
        | reply => cases hstreamed
        | _ => exact hnone _ hrow hhas hstreamed
      rw [run_targetRepliables_none hsame]
      exact htended
    · -- The repliable is there and can be streamed: what the text targets goes into its streams.
      push Not at hnone
      obtain ⟨row, hrow, hhas, hstreamed⟩ := hnone
      by_cases htargets : board.targets reply.content = []
      · have hnil : (board.replied reply).targets reply.content = [] := htargets
        rw [hnil]
        exact htended
      · have hready := ready_replied (hreply row hrow hhas hstreamed htargets) reply
        have hgrown : (board.replied reply).Grown row ((board.replied reply).tagged tag) :=
          grown_exec (.base (.insertTag tag)) trivial
        exact htended.run (hgrown.ready hready) (.each _ fun tag _ => grows_targetRepliable hrow tag)
  · have hraise : (announceReply reply).run Board.exec board = (.error .rangeError, board) := by
      rw [announceReply, Reply.save, if_neg hfits]
      rfl
    rw [hraise]
    exact h

/-- The reply `replies#create` saves of its parameters. -/
def createdReply (user : User) (params : ReplyParams) (repliable_id repliable_type : Option String) : Option Reply :=
  NewReply.valid ⟨.integer user.id, .form repliable_id, repliable_type, params.content⟩

theorem tended_repliesCreate (h : board.Tended) {bcrypt : Sessions.BCrypt} {jar : Sessions.Jar} {params : ReplyParams}
    {repliable_id repliable_type : Option String}
    (hreply : ∀ user reply, board.currentUser bcrypt jar = some user →
      createdReply user params repliable_id repliable_type = some reply → ∀ row, reply.repliable = some row →
        board.has row → streamed row.type → board.targets reply.content ≠ [] → board.Ready row) :
    ((Post.repliesCreate params repliable_id repliable_type).run bcrypt jar board).2.Tended := by
  simp only [Post.run, Post.request, RepliesController.create]
  rw [bind_eq, run_bind_ok Board.exec (run_currentUser bcrypt jar board)]
  cases huser : board.currentUser bcrypt jar with
  | none => exact h
  | some user =>
    simp only [orNil, bind_eq, ret_bind]
    split
    · next reply hvalid =>
      rw [pure_eq, run_bind_ret]
      exact tended_announceReply h (hreply user reply huser hvalid)
    · exact h

/-- The reply `replies#new` saves of its form. -/
def newReply (params : ReplyParams) : Option Reply :=
  NewReply.valid ⟨.form params.user_id, .form params.repliable_id, params.repliable_type, params.content⟩

theorem tended_repliesNew (h : board.Tended) {bcrypt : Sessions.BCrypt} {jar : Sessions.Jar} {params : ReplyParams}
    (hreply : ∀ reply, newReply params = some reply → fits reply.user_id → fits reply.repliable_id →
      ∀ stream ∈ board.streams, reply.repliable ≠ some stream.streamable) :
    ((Post.repliesNew params).run bcrypt jar board).2.Tended := by
  simp only [Post.run, Post.request, RepliesController.new]
  split
  · next reply hvalid =>
    rw [bind_eq, pure_eq, run_bind_ret]
    unfold Reply.save
    split
    · next hfits => exact tended_insertReply h (hreply reply hvalid hfits.1 hfits.2)
    · exact h
  · exact h

theorem tended_commentsPost (h : board.Tended) {bcrypt : Sessions.BCrypt} {jar : Sessions.Jar} {params : CommentParams} :
    ((Post.commentsPost params).run bcrypt jar board).2.Tended := by
  simp only [Post.run, Post.request, CommentsController.post]
  split
  · next comment hvalid =>
    rw [bind_eq, pure_eq, run_bind_ret]
    unfold Comment.save
    split
    · have hgrown : board.Grown ⟨.user, 0⟩ (board.exec (.insertComment comment)) := grown_exec _ trivial
      exact h.grown hgrown (keyed_exec h.keyed _) (.inr (List.Subset.refl _))
    · exact h
  · exact h

end

/-! ## `streams#new` -/

/-- `new`, where both ends are of classes of the application. -/
def StreamsController.new (params : Stream) : Request MyStockIQ.Reply := do
  let _ ← onDb (Stream.save params)
  return .ok

theorem tended_streamsNew {board : Board} (h : board.Tended) {params : Stream} (hready : board.Ready params.streamable) :
    ((StreamsController.new params).run Board.exec board).2.Tended := by
  unfold StreamsController.new
  rw [bind_eq, pure_eq, run_bind_ret]
  exact h.run hready (grows_onDb (grows_streamSave params.targetable))

/-! ## The news -/

section
variable {board : Board}

/-- What an article that is sent leaves. -/
theorem tended_saveNewsItem (h : board.Tended) {news_item : NewsHash}
    (hrow : ∀ row, board.newsarticle news_item.google_news_id = some row → board.RepliesPopular ⟨.newsarticle, row.id⟩)
    (ticker_symbol : String) {after : Board}
    (hafter : ((saveNewsItem ticker_symbol news_item).run Board.exec board).2 = after) :
    after.Tended ∧ after.newsarticles = board.newsarticles ∧
      ∀ other, board.RepliesPopular other → after.RepliesPopular other := by
  have hkept : board.Tended ∧ board.newsarticles = board.newsarticles ∧
      ∀ other, board.RepliesPopular other → board.RepliesPopular other := ⟨h, rfl, fun _ h => h⟩
  simp only [saveNewsItem, bind_eq, query_bind, run_step, Board.exec] at hafter
  rw [run_bind_ok Board.exec (run_onDb_select _ _ board)] at hafter
  cases hfound : board.newsarticle news_item.google_news_id with
  | none =>
    rw [hfound] at hafter
    obtain rfl : board = after := hafter
    exact hkept
  | some row =>
    rw [hfound] at hafter
    cases hstock : board.stockTicker ticker_symbol with
    | none =>
      rw [hstock] at hafter
      obtain rfl : board = after := hafter
      exact hkept
    | some stock =>
      rw [hstock] at hafter
      let streamable : Ref := ⟨.newsarticle, row.id⟩
      let rest : Request Unit := (onDb (Stream.save ⟨streamable, ⟨.stock, stock.id⟩⟩)).bind fun _ =>
        onDb (write (.insertPopularity ⟨streamable, 0⟩))
      obtain rfl : (rest.run Board.exec board).2 = after := hafter
      have hrest : rest.Only (Stmt.Grows streamable) :=
        .bind (grows_onDb (grows_streamSave _)) fun _ => grows_onDb ((only_exec _).2 trivial)
      have hgrown := grown_run hrest board
      obtain ⟨saved, more, hsave⟩ := run_streamSave ⟨streamable, ⟨.stock, stock.id⟩⟩ board.toDb
      have hrun : rest.run Board.exec board = (.ok (), Board.exec { board with toDb := board.toDb.withStreams more }
          (.base (.insertPopularity ⟨streamable, 0⟩))) := by
        exact run_bind_ok Board.exec (run_onDb_ok hsave) _
      have hhas : board.has streamable := by
        have hmem : row ∈ board.newsarticles := (List.mem_filter.1 (List.mem_of_getLast? hfound)).1
        exact List.any_eq_true.2 ⟨row, hmem, by simp [streamable]⟩
      have hready : (rest.run Board.exec board).2.Ready streamable := by
        refine ready_of_popular hgrown (hrow row hfound) (hgrown.has _ hhas) ?_ rfl (by simp [streamable])
        rw [hrun]
        exact popular_inserted _ _
      refine ⟨h.grown hgrown (keyed_run h.keyed rest) (.inl hready), ?_, fun _ => hgrown.repliesPopular⟩
      rw [hrun]
      rfl

/-- No new article has a reply without a popularity left to it already. -/
theorem tended_googleNews (h : board.Tended) {run : NewsRun}
    (hclean : ∀ article ∈ run.fresh board, '\'' ∉ interpolate article.google_news_id)
    (hreplies : ∀ id, board.newsarticle_seq ≤ id → id < board.newsarticle_seq + (run.fresh board).length →
      board.RepliesPopular ⟨.newsarticle, id⟩) : (run.run board).Tended := by
  rw [NewsRun.run_eq]
  split
  · exact h
  · next hempty =>
    have hne : run.fresh board ≠ [] := by simpa using hempty
    have hsave := run_saveToDb run.site run.misread hne hclean board
    split at hsave
    · rw [run_bind_ok Board.exec hsave]
      let inserted := board.exec (.insertNewsarticles ((run.fresh board).map NewsHash.stored))
      have hgrown : board.Grown ⟨.user, 0⟩ inserted := grown_exec _ trivial
      have htended : inserted.Tended := h.grown hgrown (keyed_exec h.keyed _) (.inr (List.Subset.refl _))
      -- The articles stay as they were inserted, and a new one is found by the id it was inserted with.
      let I (after : Board) : Prop := after.Tended ∧ after.newsarticles = inserted.newsarticles ∧
        ∀ id, board.newsarticle_seq ≤ id → id < board.newsarticle_seq + (run.fresh board).length →
          after.RepliesPopular ⟨.newsarticle, id⟩
      have hitem : ∀ news_item ∈ run.fresh board, ∀ before : Board, I before →
          I ((saveNewsItem run.ticker_symbol news_item).run Board.exec before).2 := by
        rintro news_item hmem before ⟨hbefore, hsame, hpopular⟩
        have hrow : ∀ row, before.newsarticle news_item.google_news_id = some row →
            before.RepliesPopular ⟨.newsarticle, row.id⟩ := by
          intro row hfound
          have hfound := List.mem_filter.1 (List.mem_of_getLast? hfound)
          rw [hsame] at hfound
          obtain ⟨hrow, hid⟩ := hfound
          -- An old article with this id would have kept the new one from being inserted.
          rcases List.mem_append.1 hrow with hold | hnew
          · have hnone := NewsRun.newsarticle_none.1 (NewsRun.fresh_none hmem)
            rw [List.filter_eq_nil_iff] at hnone
            exact absurd hid (hnone row hold)
          · obtain ⟨hge, hlt⟩ := id_numbered hnew
            rw [List.length_map] at hlt
            exact hpopular row.id hge hlt
        obtain ⟨hafter, hnews, hkept⟩ := tended_saveNewsItem hbefore hrow run.ticker_symbol rfl
        exact ⟨hafter, hnews.trans hsame, fun id hge hlt => hkept _ (hpopular id hge hlt)⟩
      have hloop : Outcome Board.exec I (Prog.each (saveNewsItem run.ticker_symbol) (run.fresh board)) (fun _ => I) I := by
        refine .each _ fun news_item hmem => .of_each fun before hbefore => .of_run rfl ?_ ?_
        · exact fun _ _ => hitem news_item hmem before hbefore
        · exact fun _ _ => hitem news_item hmem before hbefore
      exact (hloop.store ⟨htended, rfl, fun id hge hlt => hgrown.repliesPopular (hreplies id hge hlt)⟩).1
    · rw [run_bind_error Board.exec hsave]
      exact h

end

/-! ## Runs -/

inductive Routed where
  | post (jar : Sessions.Jar) (post : Post)
  | streamsNew (params : Stream)
  | predictionsCreate (now : Time) (session : Option Nat) (params : PredictionParams)
  | predictionendsCreate (now : Time) (session : Option Nat) (prediction_id : Nat) (content : Option String)
  | googleNews (run : NewsRun)

namespace Routed

/-- The board an action leaves. `parse` is `DateTime.parse`. -/
def run (bcrypt : Sessions.BCrypt) (parse : String → Option Int) (routed : Routed) (board : Board) : Board :=
  match routed with
  | post jar form => (form.run bcrypt jar board).2
  | streamsNew params => ((StreamsController.new params).run Board.exec board).2
  | predictionsCreate now session params =>
    ((onDb (PredictionsController.create parse now session params)).run Board.exec board).2
  | predictionendsCreate now session prediction_id content =>
    ((onDb (PredictionendsController.create now session prediction_id content)).run Board.exec board).2
  | googleNews run => run.run board

/-- The streamable that `streams#new` is given is there. -/
def Existing (board : Board) : Routed → Prop
  | streamsNew params => board.has params.streamable
  | _ => True

/-- No row gets into a stream that the sweep cannot go through from. -/
def Tends (bcrypt : Sessions.BCrypt) (board : Board) : Routed → Prop
  | post _ (.commentsCreate _ _) => board.RepliesPopular ⟨.comment, board.comment_seq⟩
  | post _ (.commentsPost _) => True
  | post jar (.repliesCreate params repliable_id repliable_type) => ∀ user reply,
    board.currentUser bcrypt jar = some user → createdReply user params repliable_id repliable_type = some reply →
      ∀ row, reply.repliable = some row → board.has row → streamed row.type → board.targets reply.content ≠ [] →
        board.Ready row
  | post _ (.repliesNew params) => ∀ reply, newReply params = some reply → fits reply.user_id → fits reply.repliable_id →
    ∀ stream ∈ board.streams, reply.repliable ≠ some stream.streamable
  | streamsNew params => board.Ready params.streamable
  | predictionsCreate _ _ _ => board.RepliesPopular ⟨.prediction, board.prediction_seq⟩
  | predictionendsCreate now session prediction_id content =>
    board.RepliesPopular ⟨.predictionend, board.predictionend_seq⟩ ∧ ∀ prediction : Prediction,
      prediction.id = prediction_id → board.EndsByHand now session content prediction →
        board.Popular ⟨.prediction, prediction_id⟩
  | googleNews run =>
    (∀ article ∈ run.fresh board, '\'' ∉ interpolate article.google_news_id) ∧
      ∀ id, board.newsarticle_seq ≤ id → id < board.newsarticle_seq + (run.fresh board).length →
        board.RepliesPopular ⟨.newsarticle, id⟩

end Routed

theorem tended_routed {bcrypt : Sessions.BCrypt} (parse : String → Option Int) {board : Board} {routed : Routed}
    (htends : routed.Tends bcrypt board) (h : board.Tended) : (routed.run bcrypt parse board).Tended := by
  cases routed with
  | post jar form =>
    cases form with
    | commentsCreate ticker_symbol params => exact tended_commentsCreate h htends bcrypt jar ticker_symbol params
    | commentsPost params => exact tended_commentsPost h
    | repliesCreate params repliable_id repliable_type => exact tended_repliesCreate h htends
    | repliesNew params => exact tended_repliesNew h htends
  | streamsNew params => exact tended_streamsNew h htends
  | predictionsCreate now session params => exact tended_predictionsCreate h htends parse now session params
  | predictionendsCreate now session prediction_id content =>
    exact tended_predictionendsCreate h htends.1 htends.2
  | googleNews run => exact tended_googleNews h htends.1 htends.2

/-- After any series of actions that let no such row into a stream, the sweep
completes, and updates the popularity of every streamable and of each reply to it. -/
theorem sweep_reaches {R : Type} [Add R] [Sub R] [Mul R] [Div R] [NatCast R] (bcrypt : Sessions.BCrypt)
    (parse : String → Option Int) {start board : Board} (hkeyed : Keyed start.toDb) (hempty : start.streams = [])
    (hboard : Serial (Routed.run bcrypt parse) (Routed.Tends bcrypt) start board) (f : Sweep.Functions R)
    (likes : List Sweep.Like) (created_at : Nat → Time) (now : Time) (score : Nat → R) :
    Sweep.Reaches f (Sweep.ofBoard board likes created_at) now score := by
  have hstart : start.Tended := ⟨hkeyed, by simp [hempty]⟩
  have htended : board.Tended := hboard.inv hstart fun _ _ htends h => tended_routed parse htends h
  exact Sweep.reaches_of_ready likes created_at htended.ready f now score

/-! ## A comment, and one without a popularity -/

/-- The one user, signed in. -/
def analyst : Sessions.Jar := ⟨some 1, none, none⟩

def runPlain (routed : Routed) (board : Board) : Board := routed.run Sessions.plain tuesdayAfternoon board

/-- A comment on the one stock. -/
def commented : Board := runPlain (.post analyst (.commentsCreate (some "ABC") ⟨some "up", none⟩)) emptyBoard

/-- The text of a reply to it, which names the user. -/
def why : ReplyParams := ⟨some "why? @analyst", none, none, none⟩

def replyToComment : Routed := .post analyst (.repliesCreate why (some "1") (some "Comment"))

theorem keyed_emptyBoard : Keyed emptyBoard.toDb :=
  ⟨by simp [emptyBoard, oneStock], .nil, by simp [emptyBoard, oneStock], .nil⟩

theorem comment_tends (ticker_symbol : Option String) (params : CommentParams) :
    (Routed.post analyst (.commentsCreate ticker_symbol params)).Tends Sessions.plain emptyBoard := by
  intro reply hmem
  cases hmem

theorem tended_commented : commented.Tended := by
  have hempty : emptyBoard.Tended := ⟨keyed_emptyBoard, by simp [emptyBoard, oneStock]⟩
  unfold commented runPlain
  exact tended_routed tuesdayAfternoon (comment_tends _ _) hempty

theorem replyToComment_tends : replyToComment.Tends Sessions.plain commented := by
  intro user reply huser hreply row hrow _ _ _
  obtain rfl : (⟨1, "analyst"⟩ : User) = user := Option.some.inj huser
  obtain rfl : (⟨0, 1, 1, "Comment", "why? @analyst"⟩ : Reply) = reply := Option.some.inj hreply
  obtain rfl : (⟨.comment, 1⟩ : Ref) = row := Option.some.inj hrow
  exact tended_commented.ready ⟨⟨.comment, 1⟩, ⟨.stock, 1⟩⟩ (by decide)

theorem sweep_reaches_replied :
    Sweep.Reaches Sweep.rational (Sweep.ofBoard (runPlain replyToComment commented) [] fun _ => 0) 0 fun _ => 0 :=
  sweep_reaches Sessions.plain tuesdayAfternoon keyed_emptyBoard rfl
    (.run (.run .init (comment_tends (some "ABC") ⟨some "up", none⟩)) replyToComment_tends) Sweep.rational [] _ 0 _

/-- The comment `comments#post` saves, put into a stream. -/
def posted : Board :=
  runPlain (.streamsNew ⟨⟨.comment, 1⟩, ⟨.stock, 1⟩⟩)
    (runPlain (.post ⟨none, none, none⟩ (.commentsPost ⟨some "up", some "1"⟩)) emptyBoard)

theorem posted_not_reached : ¬∀ (bcrypt : Sessions.BCrypt) (parse : String → Option Int) (start board : Board),
    Keyed start.toDb → start.streams = [] →
      Serial (Routed.run bcrypt parse) (fun board routed => routed.Existing board) start board →
        ∀ (f : Sweep.Functions Rat) (likes : List Sweep.Like) (created_at : Nat → Time) (now : Time) (score : Nat → Rat),
          Sweep.Reaches f (Sweep.ofBoard board likes created_at) now score := by
  intro h
  have hposted : Serial (Routed.run Sessions.plain tuesdayAfternoon) (fun board routed => routed.Existing board)
      emptyBoard posted := by
    have hpost : (Routed.post ⟨none, none, none⟩ (.commentsPost ⟨some "up", some "1"⟩)).Existing emptyBoard := trivial
    unfold posted runPlain
    refine .run (.run .init hpost) ?_
    change Board.has _ _ = true
    decide
  have hreaches := h Sessions.plain tuesdayAfternoon emptyBoard posted keyed_emptyBoard rfl hposted Sweep.rational []
    (fun _ => 0) 0 fun _ => 0
  cases hreaches.1

end MyStockIQ.Posts
