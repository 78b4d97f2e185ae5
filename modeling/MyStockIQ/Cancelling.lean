import MyStockIQ.Delivery
/-!
# Cancelling a prediction that is discussed

`PredictionendsController#create` looks for children among the streams, as it did
before there were replies ("Needs to be changed to replies when replies are
available"). A reply leaves no stream that targets its prediction, so one that has not
started is destroyed under its replies, and `replies` goes with nothing in the model of a
prediction. A prediction is spared exactly where a request that cancels it finds no reply
to it.
-/

open SharedStore Prog MyStockIQ.Scraper

namespace MyStockIQ

/-! ## What keeps a prediction -/

section
variable {db : Db} {id : Nat}

theorem prediction_exec {stmt : Stmt} (hs : stmt.Sparing) (h : (db.prediction id).isSome) :
    ((db.exec stmt).prediction id).isSome := by
  cases stmt with
  | insertPrediction row => exact Posts.isSome_find_append _ h
  | updatePrediction other changes =>
    exact Posts.isSome_find_updated Prediction.id changes.set (fun _ => rfl) other id h
  | destroyPrediction other => exact hs.elim
  | _ => exact h

theorem prediction_run {α : Type} {p : Request α} (hp : p.Only Stmt.Sparing) (h : (db.prediction id).isSome) :
    ((p.run Db.exec db).2.prediction id).isSome :=
  hp.run_inv (I := fun db => (db.prediction id).isSome) (fun _ _ hs h => prediction_exec hs h) h

theorem prediction_destroyed {other : Nat} (hne : id ≠ other) (h : (db.prediction id).isSome) :
    ((db.exec (.destroyPrediction other)).prediction id).isSome := by
  obtain ⟨prediction, hfound⟩ := Option.isSome_iff_exists.1 h
  obtain ⟨-, rfl⟩ := prediction_found hfound
  exact Posts.find_destroyed hfound hne

end

/-! ## One request -/

/-- What a request needs to destroy the prediction: somebody is signed in, and the prediction
has no Predictionend, has its stock, has not started, and is targeted by no stream. -/
structure Db.Cancels (db : Db) (now : Time) (session : Option Nat) (prediction_id : Nat) : Prop where
  user : (db.sessionUser session).isSome
  unended : db.predictionendOf prediction_id = none
  prediction : ∃ prediction stock, db.prediction prediction_id = some prediction ∧
    db.stock prediction.stock_id = some stock ∧ db.startedOrChildren prediction now = false

section
variable {db : Db} {now : Time} {session : Option Nat} {prediction_id : Nat} {content : Option String}

theorem Db.Cancels.run (h : db.Cancels now session prediction_id) :
    (PredictionendsController.create now session prediction_id content).run Db.exec db =
      (.ok (.messages ["prediction removed."]), db.exec (.destroyPrediction prediction_id)) := by
  obtain ⟨prediction, stock, hfound, hstock, hstarted⟩ := h.prediction
  obtain ⟨user, huser⟩ := Option.isSome_iff_exists.1 h.user
  rw [run_createPredictionend hfound, h.unended]
  simp [huser, hstock, hstarted]

/-- Without that, every prediction is there afterwards. -/
theorem prediction_kept (h : ¬db.Cancels now session prediction_id) {id : Nat} (hhas : (db.prediction id).isSome) :
    (((PredictionendsController.create now session prediction_id content).run Db.exec db).2.prediction id).isSome := by
  cases hfound : db.prediction prediction_id with
  | none =>
    have hgone : (PredictionendsController.create now session prediction_id content).run Db.exec db =
        (.ok (.messages ["prediction has already been canceled"]), db) := by
      simp [PredictionendsController.create, select, hfound]
    rw [hgone]
    exact hhas
  | some prediction =>
    rw [run_createPredictionend hfound]
    split
    · exact hhas
    · next hended =>
      have hended : db.predictionendOf prediction_id = none := by simpa using hended
      split
      · exact hhas
      · exact hhas
      · next user stock huser hstock =>
        split
        · rw [bind_eq, pure_eq, run_bind_ret]
          exact prediction_run ((gentle_endByHand _ _ _ _ _).mono fun _ hs => hs.2) hhas
        · next hstarted =>
          -- Signed in, not ended, not started and without children: this is the removal.
          exact absurd ⟨by simp [huser], hended, prediction, stock, hfound, hstock, by simpa using hstarted⟩ h

/-- A prediction that is discussed stays if the request would not remove such a one. -/
theorem prediction_spared {Discussed : Nat → Prop} (hs : db.Cancels now session prediction_id → ¬Discussed prediction_id)
    {id : Nat} (hid : Discussed id) (hhas : (db.prediction id).isSome) :
    (((PredictionendsController.create now session prediction_id content).run Db.exec db).2.prediction id).isSome := by
  by_cases hcancels : db.Cancels now session prediction_id
  · have hne : id ≠ prediction_id := by
      rintro rfl
      exact hs hcancels hid
    rw [hcancels.run]
    exact prediction_destroyed hne hhas
  · exact prediction_kept hcancels hhas

end

/-! ## Other requests and jobs -/

theorem sparing_createPrediction (parse : String → Option Int) (now : Time) (session : Option Nat)
    (params : PredictionParams) : (PredictionsController.create parse now session params).Only Stmt.Sparing :=
  only_createPrediction parse now session params (fun _ hs => hs.1.sparing) (fun _ => trivial) fun _ _ _ => trivial

/-- No other job destroys a prediction. -/
theorem sparing_job (parse : String → Option Int) {job : Job}
    (hjob : ∀ now session prediction_id content, job ≠ .createPredictionend now session prediction_id content) :
    (job.request parse).Only Stmt.Sparing := by
  have hmild (stmt : Stmt) (hs : stmt.Mild) : stmt.Sparing := hs.1.sparing
  have hgentle (stmt : Stmt) (hs : stmt.Gentle) : stmt.Sparing := hs.2
  cases job with
  | createPrediction now session params => exact only_unanswered (sparing_createPrediction parse now session params)
  | showPrediction session id => exact only_unanswered ((gentle_showPrediction session id).mono hgentle)
  | showStock session ticker_symbol feed =>
    exact only_unanswered (only_showStock (fun _ => Stmt.Quiet.sparing) hgentle session ticker_symbol feed)
  | createPredictionend now session prediction_id content => exact absurd rfl (hjob now session prediction_id content)
  | predictionEnd => exact gentle_predictionEnd.mono hgentle
  | verifyStart prediction_id minute_array =>
    exact only_verifyStart prediction_id minute_array hmild (fun _ => trivial) fun _ _ _ => trivial
  | verifyEnd predictionend_id now minute_array =>
    exact only_verifyEnd predictionend_id now minute_array hmild (fun _ => trivial) (fun _ _ _ _ => trivial) fun _ _ => trivial
  | googleIntraday ticker_symbol feed => exact (mild_googleIntraday ticker_symbol feed).mono hmild

/-- The action is not the removal of a prediction for which `Discussed` holds. -/
def Action.Spares (Discussed : Nat → Prop) (db : Db) : Action → Prop
  | .request (.createPredictionend now session prediction_id _) =>
    db.Cancels now session prediction_id → ¬Discussed prediction_id
  | _ => True

/-- An action takes no prediction away that is discussed. -/
theorem prediction_action {parse : String → Option Int} {Discussed : Nat → Prop} {db : Db} {action : Action}
    (hs : action.Spares Discussed db) {id : Nat} (hid : Discussed id) (hhas : (db.prediction id).isSome) :
    ((action.run parse db).prediction id).isSome := by
  cases action with
  | request job =>
    cases job with
    | createPredictionend now session prediction_id content =>
      have hrun := run_bind_ret Db.exec (PredictionendsController.create now session prediction_id content) (fun _ => ()) db
      have hstore : (Job.run parse (.createPredictionend now session prediction_id content) db).2 =
          ((PredictionendsController.create now session prediction_id content).run Db.exec db).2 := hrun
      rw [Action.run, hstore]
      exact prediction_spared hs hid hhas
    | _ => exact prediction_run (sparing_job parse (by rintro _ _ _ _ ⟨⟩)) hhas
  | createUser row => exact hhas
  | destroyUser username =>
    simp only [Action.run, Db.destroyUser]
    cases db.userNamed username with
    | none => exact hhas
    | some user => exact hhas
  | quandlAllstocks rows => exact hhas
  | googleDaily ticker_symbol date close_price =>
    refine prediction_run ?_ hhas
    exact .bind ((only_query _ _).2 trivial) fun _ => .bind (only_orNil _ _) fun _ =>
      .bind ((quiet_stockSave _ _).mono fun _ => Stmt.Quiet.sparing) fun _ => trivial

namespace Posts

/-- The statement destroys no prediction. -/
def Stmt.Sparing : Stmt → Prop
  | .base stmt => stmt.Sparing
  | _ => True

section
variable {board : Board} {id : Nat}

theorem sparing_onDb {α : Type} {p : MyStockIQ.Request α} (h : p.Only MyStockIQ.Stmt.Sparing) :
    (onDb p).Only Stmt.Sparing := Only.lift Board.tables Stmt.base Error.base h

theorem sparing_mild {α : Type} {p : MyStockIQ.Request α} (h : Mildly p) : (onDb p).Only Stmt.Sparing :=
  sparing_onDb (h.mono fun _ hs => hs.1.sparing)

theorem sparing_currentUser (bcrypt : Sessions.BCrypt) (jar : Sessions.Jar) : (currentUser bcrypt jar).Only Stmt.Sparing := by
  unfold Posts.currentUser
  split
  · exact (only_query _ _).2 trivial
  · refine .bind ((only_query _ _).2 trivial) fun (found, remember_digest) => ?_
    dsimp only
    split
    · split
      · trivial
      · trivial
    · trivial
  · trivial

theorem sparing_announceComment (comment : Comment) (stock : Stock) (user : User) (tag_id : Nat) (tags : List (Option Ref)) :
    (announceComment comment stock user tag_id tags).Only Stmt.Sparing := by
  refine .bind ?_ fun id => .bind (sparing_mild (mild_write ⟨trivial, trivial⟩)) fun _ =>
    .bind (sparing_mild (mild_write ⟨trivial, trivial⟩)) fun _ => .bind (sparing_mild (mild_streamSave _)) fun _ =>
      .bind (sparing_mild (mild_streamSave _)) fun _ => sparing_mild (mild_targetTags _ _)
  unfold Comment.save
  split
  · exact ⟨trivial, fun _ => trivial⟩
  · trivial

theorem sparing_announceReply (reply : Reply) : (announceReply reply).Only Stmt.Sparing := by
  have hwords (id : Nat) : Mildly (addWordTags reply.content .reply id) :=
    .bind (only_tagWords (fun _ => ⟨trivial, trivial⟩) (fun _ => ⟨trivial, trivial⟩) _) fun _ =>
      .bind (mild_write ⟨trivial, trivial⟩) fun _ => trivial
  refine .bind ?_ fun id => .bind (sparing_mild (mild_write ⟨trivial, trivial⟩)) fun _ =>
    .bind (sparing_mild (hwords id)) fun tags => .each tags fun tag _ => ?_
  · unfold Reply.save
    split
    · exact ⟨trivial, fun _ => trivial⟩
    · trivial
  · unfold targetRepliable
    split
    · trivial
    · refine .bind ((only_query _ _).2 trivial) fun found => .bind (only_orNil _ _) fun repliable => ?_
      split
      · trivial
      · refine .bind (only_orNil _ _) fun targetable => ?_
        split
        · exact .bind (sparing_mild (mild_streamSave _)) fun _ => trivial
        · trivial

theorem sparing_post (bcrypt : Sessions.BCrypt) (jar : Sessions.Jar) (form : Post) :
    (form.request bcrypt jar).Only Stmt.Sparing := by
  cases form with
  | commentsCreate ticker_symbol params =>
    refine .bind (sparing_currentUser bcrypt jar) fun found => .bind (sparing_mild (mild_select trivial)) fun stock =>
      .bind (only_orNil _ _) fun user => .bind (only_orNil _ _) fun stock =>
        .bind (sparing_mild (mild_addTags _ _ _ _)) fun (tag_id, tags) => ?_
    dsimp only
    split
    · exact .bind (sparing_announceComment _ _ _ _ _) fun _ => trivial
    · trivial
  | commentsPost params =>
    simp only [Post.request, CommentsController.post]
    split
    · refine .bind ?_ fun _ => trivial
      unfold Comment.save
      split
      · exact ⟨trivial, fun _ => trivial⟩
      · trivial
    · trivial
  | repliesCreate params repliable_id repliable_type =>
    refine .bind (sparing_currentUser bcrypt jar) fun found => .bind (only_orNil _ _) fun user => ?_
    dsimp only
    split
    · exact .bind (sparing_announceReply _) fun _ => trivial
    · trivial
  | repliesNew params =>
    simp only [Post.request, RepliesController.new]
    split
    · refine .bind ?_ fun _ => trivial
      unfold Reply.save
      split
      · exact ⟨trivial, fun _ => trivial⟩
      · trivial
    · trivial

theorem sparing_saveNewsItem (ticker_symbol : String) (news_item : NewsHash) :
    (saveNewsItem ticker_symbol news_item).Only Stmt.Sparing :=
  .bind ((only_query _ _).2 trivial) fun _ => .bind (sparing_mild (mild_select trivial)) fun _ =>
    .bind (only_orNil _ _) fun _ => .bind (only_orNil _ _) fun _ => .bind (sparing_mild (mild_streamSave _)) fun _ =>
      sparing_mild (mild_write ⟨trivial, trivial⟩)

/-! ## Runs -/

/-- There is a reply to the prediction. -/
def Board.RepliedTo (board : Board) (prediction_id : Nat) : Prop :=
  ∃ reply ∈ board.replies, reply.repliable = some ⟨.prediction, prediction_id⟩

/-- The reply is there, and so is the prediction. -/
def Board.Holds (board : Board) (reply : Reply) (prediction_id : Nat) : Prop :=
  reply ∈ board.replies ∧ (board.prediction prediction_id).isSome

/-- What a request destroys had not started, and had neither replies nor a stream targeting it. -/
def Board.CancelsUndiscussed (board : Board) (now : Time) (session : Option Nat) (prediction_id : Nat)
    (content : Option String) : Prop :=
  ∀ id prediction, board.prediction id = some prediction →
    ((PredictionendsController.create now session prediction_id content).run Db.exec board.toDb).2.prediction id = none →
    now ≤ prediction.start_time ∧ ¬board.RepliedTo id ∧ ∀ stream ∈ board.streams, stream.targetable ≠ ⟨.prediction, id⟩

/-- The visit is not the removal of a prediction with replies, nor of news whose ids have quotes. -/
def Visit.Spares (board : Board) : Visit → Prop
  | .routed (.predictionendsCreate now session prediction_id _) =>
    board.Cancels now session prediction_id → ¬board.RepliedTo prediction_id
  | .routed (.googleNews run) => ∀ article ∈ run.fresh board, '\'' ∉ interpolate article.google_news_id
  | .action job => job.Spares board.RepliedTo board.toDb
  | _ => True

theorem holds_exec {reply : Reply} {stmt : Stmt} (hs : stmt.Sparing) (h : board.Holds reply id) :
    (board.exec stmt).Holds reply id := by
  obtain ⟨hmem, hhas⟩ := h
  cases stmt with
  | insertReply row => exact ⟨List.mem_append_left _ hmem, hhas⟩
  | base stmt => exact ⟨hmem, prediction_exec hs hhas⟩
  | _ => exact ⟨hmem, hhas⟩

theorem holds_run {α : Type} {reply : Reply} {p : Request α} (hp : p.Only Stmt.Sparing) (h : board.Holds reply id) :
    (p.run Board.exec board).2.Holds reply id :=
  hp.run_inv (I := fun board => board.Holds reply id) (fun _ _ hs h => holds_exec hs h) h

theorem holds_visit {bcrypt : Sessions.BCrypt} {parse : String → Option Int} {visit : Visit} {reply : Reply}
    (hs : visit.Spares board) (hreply : reply.repliable = some ⟨.prediction, id⟩) (h : board.Holds reply id) :
    (visit.run bcrypt parse board).Holds reply id := by
  have hdiscussed : board.RepliedTo id := ⟨reply, h.1, hreply⟩
  cases visit with
  | action job => exact ⟨h.1, prediction_action hs hdiscussed h.2⟩
  | routed page =>
    cases page with
    | post jar form => exact holds_run (sparing_post bcrypt jar form) h
    | streamsNew params =>
      have hnew : (StreamsController.new params).Only Stmt.Sparing :=
        .bind (sparing_mild (mild_streamSave _)) fun _ => trivial
      exact holds_run hnew h
    | predictionsCreate now session params =>
      exact holds_run (sparing_onDb (sparing_createPrediction parse now session params)) h
    | predictionendsCreate now session prediction_id content =>
      change ((onDb (PredictionendsController.create now session prediction_id content)).run Board.exec board).2.Holds reply id
      rw [run_onDb]
      exact ⟨h.1, prediction_spared hs hdiscussed h.2⟩
    | googleNews run =>
      exact NewsRun.run_inv (I := fun board => board.Holds reply id) hs (fun _ => trivial)
        (sparing_saveNewsItem run.ticker_symbol) (fun _ _ hs h => holds_exec hs h) h

/-- A request that cancels only what has no replies destroys only what is undiscussed, and the other way round. -/
theorem cancelsUndiscussed_iff (board : Board) (now : Time) (session : Option Nat) (prediction_id : Nat)
    (content : Option String) : board.CancelsUndiscussed now session prediction_id content ↔
      (board.Cancels now session prediction_id → ¬board.RepliedTo prediction_id) := by
  constructor
  · intro h hcancels
    obtain ⟨prediction, stock, hfound, -, -⟩ := hcancels.prediction
    refine (h prediction_id prediction hfound ?_).2.1
    rw [hcancels.run]
    simp [Db.prediction, Db.exec]
  · intro h id prediction hfound hgone
    have hhas : (board.prediction id).isSome := by rw [hfound]; rfl
    have hcancels : board.Cancels now session prediction_id := by
      by_contra hnot
      have hkept : (((PredictionendsController.create now session prediction_id content).run Db.exec
          board.toDb).2.prediction id).isSome := prediction_kept hnot hhas
      simp [hgone] at hkept
    -- Only the prediction of the request is destroyed.
    obtain rfl : id = prediction_id := by
      by_contra hne
      have hkept := prediction_destroyed hne hhas
      rw [hcancels.run] at hgone
      simp [hgone] at hkept
    obtain ⟨row, stock, hrow, -, hstarted⟩ := hcancels.prediction
    obtain rfl := Option.some.inj (hfound.symm.trans hrow)
    obtain ⟨-, rfl⟩ := prediction_found hfound
    simp only [Db.startedOrChildren, Bool.or_eq_false_iff, decide_eq_false_iff_not, not_lt, List.any_eq_false,
      decide_eq_true_eq] at hstarted
    exact ⟨hstarted.1, h hcancels, hstarted.2⟩

end

/-- A request destroys only what is undiscussed if and only if it removes nothing with replies. And in
every run that removes nothing with replies, a reply to a prediction that is there keeps its prediction. -/
theorem cancelling_spares_discussed (bcrypt : Sessions.BCrypt) (parse : String → Option Int) :
    (∀ (board : Board) now session prediction_id content, board.CancelsUndiscussed now session prediction_id content ↔
      (board.Cancels now session prediction_id → ¬board.RepliedTo prediction_id)) ∧
    ∀ before after, Serial (Visit.run bcrypt parse) Visit.Spares before after → ∀ reply id,
      reply.repliable = some ⟨.prediction, id⟩ → before.Holds reply id → after.Holds reply id := by
  refine ⟨cancelsUndiscussed_iff, fun before after hrun reply id hreply h => ?_⟩
  exact hrun.inv (I := fun board => board.Holds reply id) h fun _ _ hs h => holds_visit hs hreply h

/-! ## A prediction removed under its reply -/

def doubt : ReplyParams := ⟨some "why?", none, none, none⟩

/-- The one user predicts, and replies to the prediction. -/
def discussed : Board :=
  runPlain (.post analyst (.repliesCreate doubt (some "1") (some "Prediction")))
    (runPlain (.predictionsCreate (1436191200 * 1000000000) (some 1)
      ⟨1, some "110", some "up", some "7 July, 2015", some "2:00 PM"⟩) emptyBoard)

/-- Once it has started it is ended, and kept under its reply. -/
theorem discussed_kept : Board.Holds
    (runPlain (.predictionendsCreate (1436191320 * 1000000000) (some 1) 1 none) discussed)
    ⟨1, 1, 1, "Prediction", "why?"⟩ 1 := by
  have hspares : Visit.Spares discussed (.routed (.predictionendsCreate (1436191320 * 1000000000) (some 1) 1 none)) := by
    intro hcancels
    obtain ⟨prediction, stock, hfound, -, hstarted⟩ := hcancels.prediction
    obtain rfl : _ = prediction := Option.some.inj hfound
    exact absurd hstarted (by decide)
  exact (cancelling_spares_discussed Sessions.plain tuesdayAfternoon).2 discussed _ (.run .init hspares) _ 1 rfl
    ⟨by decide, by decide⟩

theorem discussed_cancels_undiscussed : ¬∀ (board : Board) now session prediction_id content,
    board.CancelsUndiscussed now session prediction_id content := by
  intro h
  have hcancels : discussed.Cancels (1436191200 * 1000000000) (some 1) 1 :=
    ⟨by decide, by decide, _, _, rfl, rfl, by decide⟩
  refine (cancelsUndiscussed_iff _ _ _ _ _).1 (h discussed (1436191200 * 1000000000) (some 1) 1 none) hcancels ?_
  exact ⟨⟨1, 1, 1, "Prediction", "why?"⟩, by decide, rfl⟩

end Posts

end MyStockIQ
