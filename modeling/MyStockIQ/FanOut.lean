import MyStockIQ.Routed
/-!
# To whom a post goes

A comment, a prediction or a Predictionend gets streams to the user, to the
stock and to whatever its text mentions. These overlap, so what is followed is
which streams a program adds: of one item, each once, and to the whole of a list.
-/

open SharedStore Prog

namespace MyStockIQ

/-! ## Streams that are added -/

/-- From `db` to `db'` streams of `item` were added, each once, to those of `refs` that had none, and nothing else. -/
structure Fans (item : Ref) (refs : List Ref) (db db' : Db) : Prop where
  added : ∃ new, db'.streams = db.streams ++ new ∧ new.Nodup ∧
    ∀ stream ∈ new, stream ∉ db.streams ∧ stream.streamable = item ∧ stream.targetable ∈ refs
  all : ∀ ref ∈ refs, ⟨item, ref⟩ ∈ db'.streams

section
variable {item : Ref} {refs refs' : List Ref} {db db₁ db₂ : Db}

theorem Fans.of_streams (h : db₁.streams = db.streams) : Fans item [] db db₁ :=
  ⟨⟨[], by simp [h], .nil, by simp⟩, by simp⟩

theorem Fans.trans (h : Fans item refs db db₁) (h' : Fans item refs' db₁ db₂) : Fans item (refs ++ refs') db db₂ := by
  obtain ⟨new, hnew, hnodup, hfresh⟩ := h.added
  obtain ⟨more, hmore, hnodup', hfresh'⟩ := h'.added
  have hsub : ∀ stream ∈ db₁.streams, stream ∈ db₂.streams := by
    intro stream hmem
    rw [hmore]
    exact List.mem_append_left _ hmem
  refine ⟨⟨new ++ more, ?_, ?_, ?_⟩, ?_⟩
  · rw [hmore, hnew, List.append_assoc]
  · rw [List.nodup_append]
    refine ⟨hnodup, hnodup', ?_⟩
    rintro stream hmem other hother rfl
    refine (hfresh' stream hother).1 ?_
    rw [hnew]
    exact List.mem_append_right _ hmem
  · intro stream hmem
    rcases List.mem_append.1 hmem with hmem | hmem
    · obtain ⟨hnot, hitem, href⟩ := hfresh stream hmem
      exact ⟨hnot, hitem, List.mem_append_left _ href⟩
    · obtain ⟨hnot, hitem, href⟩ := hfresh' stream hmem
      refine ⟨fun hold => hnot ?_, hitem, List.mem_append_right _ href⟩
      rw [hnew]
      exact List.mem_append_left _ hold
  · intro ref href
    rcases List.mem_append.1 href with href | href
    · exact hsub _ (h.all ref href)
    · exact h'.all ref href

theorem Fans.congr (h : Fans item refs db db₁) (hrefs : ∀ ref, ref ∈ refs ↔ ref ∈ refs') : Fans item refs' db db₁ := by
  obtain ⟨new, hnew, hnodup, hfresh⟩ := h.added
  refine ⟨⟨new, hnew, hnodup, fun stream hmem => ?_⟩, fun ref href => h.all ref ((hrefs ref).2 href)⟩
  obtain ⟨hnot, hitem, href⟩ := hfresh stream hmem
  exact ⟨hnot, hitem, (hrefs _).1 href⟩

theorem Fans.of_insert {target : Ref} (h : (⟨item, target⟩ : Stream) ∉ db.streams) :
    Fans item [target] db (db.exec (.insertStream ⟨item, target⟩)) where
  added := ⟨[⟨item, target⟩], rfl, List.nodup_singleton _, by simpa using h⟩
  all := by simp [Db.exec]

theorem Fans.of_present {target : Ref} (h : (⟨item, target⟩ : Stream) ∈ db.streams) : Fans item [target] db db where
  added := ⟨[], by simp, .nil, by simp⟩
  all := by simpa using h

end

/-! ## Programs that add them -/

section
variable {L S ε α β : Type}

/-- Whenever it completes, the program has added the streams of `item` to `refs`, seen on the tables the store holds. -/
def Fanning (view : S → Db) (eff : S → L → S) (item : Ref) (refs : List Ref) (p : Prog L S ε α) : Prop :=
  ∀ s a s', p.run eff s = (.ok a, s') → Fans item refs (view s) (view s')

variable {view : S → Db} {eff : S → L → S} {item : Ref} {refs refs' : List Ref}

theorem Fanning.ret (a : α) : Fanning view eff item [] (ret a : Prog L S ε α) := by
  rintro s _ _ ⟨⟩
  exact .of_streams rfl

theorem Fanning.bind {p : Prog L S ε α} {f : α → Prog L S ε β} (hp : Fanning view eff item refs p)
    (hf : ∀ a, Fanning view eff item refs' (f a)) : Fanning view eff item (refs ++ refs') (p.bind f) := by
  intro s b s' hrun
  rw [run_bind] at hrun
  rcases h : p.run eff s with ⟨e | a, s₁⟩
  · rw [h] at hrun
    cases hrun
  · rw [h] at hrun
    exact (hp s a s₁ h).trans (hf a s₁ b s' hrun)

/-- First what adds nothing. -/
theorem Fanning.then_all {p : Prog L S ε α} {f : α → Prog L S ε β} (hp : Fanning view eff item [] p)
    (hf : ∀ a, Fanning view eff item refs (f a)) : Fanning view eff item refs (p.bind f) := hp.bind hf

/-- First a stream to `target`. -/
theorem Fanning.then_more {target : Ref} {p : Prog L S ε α} {f : α → Prog L S ε β}
    (hp : Fanning view eff item [target] p) (hf : ∀ a, Fanning view eff item refs (f a)) :
    Fanning view eff item (target :: refs) (p.bind f) := hp.bind hf

/-- Last what adds nothing. -/
theorem Fanning.then_none {p : Prog L S ε α} {f : α → Prog L S ε β} (hp : Fanning view eff item refs p)
    (hf : ∀ a, Fanning view eff item [] (f a)) : Fanning view eff item refs (p.bind f) := by
  have h := hp.bind hf
  rwa [List.append_nil] at h

/-- A program whose statements leave the streams alone. -/
theorem Fanning.still {A : L → Prop} {p : Prog L S ε α} (h : p.Only A)
    (hA : ∀ s l, A l → (view (eff s l)).streams = (view s).streams) : Fanning view eff item [] p := by
  intro s a s' hrun
  have hsame := h.run_inv (I := fun t => (view t).streams = (view s).streams)
    (fun t l hl ht => (hA t l hl).trans ht) rfl
  rw [hrun] at hsame
  exact .of_streams hsame

end

/-- The statement leaves the streams alone. -/
def Stmt.Still : Stmt → Prop
  | .insertStream _ | .destroyPrediction _ | .destroyPredictionend _ _ => False
  | _ => True

theorem streams_still {stmt : Stmt} (h : stmt.Still) (db : Db) : (db.exec stmt).streams = db.streams := by
  cases stmt with
  | insertStream stream => exact h.elim
  | destroyPrediction id => exact h.elim
  | destroyPredictionend prediction_id id => exact h.elim
  | _ => rfl

section
variable {α : Type} {item : Ref}

abbrev FanningDb (item : Ref) (refs : List Ref) (p : Request α) : Prop := Fanning id Db.exec item refs p

theorem fanning_still {p : Request α} (h : p.Only Stmt.Still) : FanningDb item [] p :=
  .still h fun db _ hs => streams_still hs db

theorem fanning_save (target : Ref) : FanningDb item [target] (Stream.save ⟨item, target⟩) := by
  intro db saved db' hrun
  rw [run_saveStream] at hrun
  split at hrun
  · next hmem =>
    cases hrun
    exact .of_present hmem
  · next hmem =>
    cases hrun
    exact .of_insert hmem

theorem fanning_create! (target : Ref) : FanningDb item [target] (Stream.create! ⟨item, target⟩) := by
  intro db a db' hrun
  rw [run_create!] at hrun
  split at hrun
  · cases hrun
  · next hmem =>
    cases hrun
    exact .of_insert hmem

/-- Each of the tags, with those that are there already passed over in silence. -/
theorem fanning_targetTags (refs : List Ref) : FanningDb item refs (targetTags item (refs.map some)) := by
  induction refs with
  | nil => exact .ret ()
  | cons ref refs ih =>
    have hsave : FanningDb item [ref] ((Stream.save ⟨item, ref⟩).bind fun _ => Prog.ret ()) :=
      .then_none (fanning_save ref) fun _ => .ret ()
    exact .then_more hsave fun _ => ih

theorem still_stockSave (stock : Stock) (assigned : StockChanges) : (stock.save assigned).Only Stmt.Still :=
  only_stockSave trivial trivial

theorem fanning_announcePrediction (prediction : Prediction) (user : User) (stock : Stock) (refs : List Ref) :
    FanningDb ⟨.prediction, prediction.id⟩ (⟨.user, user.id⟩ :: ⟨.stock, stock.id⟩ :: refs)
      (announcePrediction prediction user stock (refs.map some)) := by
  refine .then_all (fanning_still ((only_query _ _).2 trivial)) fun count => ?_
  refine .then_all (fanning_still (still_stockSave stock _)) fun _ => .then_all (fanning_still (only_orNil _ _)) fun _ => ?_
  refine .then_more (fanning_create! _) fun _ => .then_more (fanning_create! _) fun _ => ?_
  exact .then_none (fanning_targetTags refs) fun _ => fanning_still ((only_exec _).2 trivial)

/-- The rest of an ending by hand, once its text is tagged. -/
theorem fanning_endingStreams (user : User) (stock : Stock) (refs : List Ref) :
    FanningDb item (⟨.stock, stock.id⟩ :: ⟨.user, user.id⟩ :: refs) (do
      Stream.create! ⟨item, ⟨.stock, stock.id⟩⟩
      Stream.create! ⟨item, ⟨.user, user.id⟩⟩
      targetTags item (refs.map some)) :=
  .then_more (fanning_create! _) fun _ => .then_more (fanning_create! _) fun _ => fanning_targetTags refs

end

/-! ## What is mentioned stays the same -/

theorem wordTargets_congr {db db' : Db} (hstock : ∀ name, stockTag.find db' name = stockTag.find db name)
    (huser : ∀ name, userTag.find db' name = userTag.find db name) (word : String) :
    db'.wordTargets word = db.wordTargets word := by
  unfold Db.wordTargets TagKind.targets
  split
  · simp only [hstock]
  · simp only [huser]
  · rfl

theorem find_updateStock (db : Db) (id : Nat) (changes : StockChanges) (name : String) :
    stockTag.find (db.exec (.updateStock id changes)) name = stockTag.find db name := by
  have hsame : ∀ row : Stock, (if row.id = id then changes.set row else row).ticker_symbol = row.ticker_symbol ∧
      (if row.id = id then changes.set row else row).id = row.id := by
    intro row
    split
    · exact ⟨rfl, rfl⟩
    · exact ⟨rfl, rfl⟩
  simp only [stockTag, Db.stockTicker, Db.exec, List.find?_map, Option.map_map, Function.comp_def, hsame]

/-- The counter of a stock is no name. -/
theorem targets_saved (db : Db) (id : Nat) (changes : PredictionChanges) (stock : Stock) (ticker_symbol content : String) :
    (db.saved id changes stock).targets ticker_symbol content = db.targets ticker_symbol content := by
  have hfind : (∀ name, stockTag.find (db.saved id changes stock) name = stockTag.find db name) ∧
      ∀ name, userTag.find (db.saved id changes stock) name = userTag.find db name := by
    unfold Db.saved Db.counted
    split
    · exact ⟨fun name => find_updateStock _ _ _ name, fun name => rfl⟩
    · exact ⟨fun name => rfl, fun name => rfl⟩
  unfold Db.targets
  rw [show (db.saved id changes stock).wordTargets = db.wordTargets from funext (wordTargets_congr hfind.1 hfind.2)]

/-! ## The three requests -/

/-- What `add_tags` returns for the text at the start of the request. -/
def Tagged (db : Db) (ticker_symbol content : String) (refs : List Ref) : Prop :=
  ∃ tagable_type tagable_id tag_id db', (addTags (some content) ticker_symbol tagable_type tagable_id).run Db.exec db =
    (.ok (tag_id, refs.map some), db')

theorem tagged_targets (db : Db) (ticker_symbol content : String) :
    Tagged db ticker_symbol content (db.targets ticker_symbol content) := by
  obtain ⟨text, hrun⟩ := run_addTags content ticker_symbol .comment none db
  exact ⟨_, _, _, _, hrun⟩

namespace Posts

/-- From `before` to `after` the streams of `item`, which is new, were added: to the user, to the
stock and to what the text mentions. -/
structure Announced (before after : Board) (item : Ref) (user : User) (stock : Stock) (content : String) : Prop where
  new : before.has item = false ∧ after.has item = true
  fans : ∃ refs, Tagged before.toDb stock.ticker_symbol content refs ∧
    Fans item (⟨.user, user.id⟩ :: ⟨.stock, stock.id⟩ :: refs) before.toDb after.toDb

section
variable {board : Board}

theorem fanning_onDb {α : Type} {item : Ref} {refs : List Ref} {p : MyStockIQ.Request α} (h : FanningDb item refs p) :
    Fanning Board.toDb Board.exec item refs (onDb p) := by
  intro before a after hrun
  rw [run_onDb] at hrun
  rcases hp : p.run Db.exec before.toDb with ⟨e | b, db⟩
  · rw [hp] at hrun
    cases hrun
  · rw [hp] at hrun
    obtain ⟨-, rfl⟩ := Prod.mk.inj hrun
    exact h _ b db hp

/-- The rest of `announceComment`, once the comment is saved. -/
def streamComment (id : Nat) (stock : Stock) (user : User) (tag_id : Nat) (tags : List (Option Ref)) : Request Unit := do
  onDb (write (.attachTag tag_id id))
  let streamable : Ref := ⟨.comment, id⟩
  onDb (write (.insertPopularity ⟨streamable, 0⟩))
  let _ ← onDb (Stream.save ⟨streamable, ⟨.stock, stock.id⟩⟩)
  let _ ← onDb (Stream.save ⟨streamable, ⟨.user, user.id⟩⟩)
  onDb (targetTags streamable tags)

theorem fanning_streamComment (id : Nat) (stock : Stock) (user : User) (tag_id : Nat) (refs : List Ref) :
    Fanning Board.toDb Board.exec ⟨.comment, id⟩ (⟨.stock, stock.id⟩ :: ⟨.user, user.id⟩ :: refs)
      (streamComment id stock user tag_id (refs.map some)) := by
  have hwrite (stmt : MyStockIQ.Stmt) (h : stmt.Still) : FanningDb ⟨.comment, id⟩ [] (write stmt) :=
    fanning_still ((only_exec stmt).2 h)
  refine .then_all (fanning_onDb (hwrite _ trivial)) fun _ => .then_all (fanning_onDb (hwrite _ trivial)) fun _ => ?_
  exact .then_more (fanning_onDb (fanning_save _)) fun _ => .then_more (fanning_onDb (fanning_save _)) fun _ =>
    fanning_onDb (fanning_targetTags refs)

theorem grows_streamComment (id : Nat) (stock : Stock) (user : User) (tag_id : Nat) (tags : List (Option Ref)) :
    (streamComment id stock user tag_id tags).Only (Stmt.Grows ⟨.comment, id⟩) :=
  .bind (grows_onDb ((only_exec _).2 trivial)) fun _ => .bind (grows_onDb ((only_exec _).2 trivial)) fun _ =>
    .bind (grows_onDb (grows_streamSave _)) fun _ => .bind (grows_onDb (grows_streamSave _)) fun _ =>
      grows_onDb (grows_targetTags tags)

theorem run_announceComment {comment : Comment} (h : fits comment.user_id = true) (stock : Stock) (user : User)
    (tag_id : Nat) (tags : List (Option Ref)) (board : Board) :
    (announceComment comment stock user tag_id tags).run Board.exec board =
      (streamComment board.comment_seq stock user tag_id tags).run Board.exec (board.exec (.insertComment comment)) := by
  unfold announceComment Comment.save
  rw [if_pos h]
  rfl

/-- What an accepted comment adds. -/
theorem announced_commentsCreate (hcomments : ∀ comment ∈ board.comments, comment.id < board.comment_seq)
    {bcrypt : Sessions.BCrypt} {jar : Sessions.Jar} {ticker_symbol : Option String} {params : CommentParams} {after : Board}
    (hok : (Post.commentsCreate ticker_symbol params).run bcrypt jar board = (.ok .ok, after)) :
    ∃ user stock content, board.currentUser bcrypt jar = some user ∧ ticker_symbol.bind board.stockTicker = some stock ∧
      params.content = some content ∧ Announced board after ⟨.comment, board.comment_seq⟩ user stock content := by
  rcases run_commentsCreate bcrypt jar board ticker_symbol params with
    ⟨e, hrun⟩ | ⟨errors, tag, hrun⟩ | ⟨comment, stock, user, tag, refs, huser, hstock, ⟨content, hcontent, rfl⟩, hrun⟩
  · cases hrun.symm.trans hok
  · cases hrun.symm.trans hok
  · refine ⟨user, stock, content, huser, hstock, hcontent, ?_⟩
    have hrun := hrun.symm.trans hok
    cases hfits : fits comment.user_id with
    | false =>
      simp only [announceComment, Comment.save, hfits] at hrun
      cases hrun
    | true =>
      let item : Ref := ⟨.comment, board.comment_seq⟩
      let inserted := (board.tagged tag).exec (.insertComment comment)
      obtain ⟨-, a, hannounce⟩ := run_of_answered Board.exec hrun
      have hstream : (streamComment board.comment_seq stock user board.tag_seq
          ((board.toDb.targets stock.ticker_symbol content).map some)).run Board.exec inserted = (.ok a, after) :=
        (run_announceComment hfits stock user board.tag_seq _ (board.tagged tag)).symm.trans hannounce
      have hadded := fanning_streamComment _ _ _ _ _ inserted a after hstream
      have hgrown := grown_run (grows_streamComment board.comment_seq stock user board.tag_seq
        ((board.toDb.targets stock.ticker_symbol content).map some)) inserted
      have hhas : inserted.has item := by
        refine List.any_eq_true.2 ⟨{ comment with id := board.comment_seq }, ?_, by simp [item]⟩
        exact List.mem_append_right _ (List.mem_singleton_self _)
      have hafter : after.has item := by
        rw [hstream] at hgrown
        exact hgrown.has item hhas
      refine ⟨⟨?_, hafter⟩, _, tagged_targets _ _ _, ?_⟩
      · refine List.any_eq_false.2 fun old hmem => ?_
        have hlt := hcomments old hmem
        simp only [decide_eq_true_eq]
        omega
      · -- The Tag and the comment come without a stream.
        have hstreams : Fans item [] board.toDb inserted.toDb := .of_streams rfl
        exact (hstreams.trans hadded).congr fun ref => by simp [or_left_comm]

/-- What an accepted prediction adds. -/
theorem announced_predictionsCreate (h : Keyed board.toDb) {parse : String → Option Int} {now : Time}
    {session : Option Nat} {params : PredictionParams} {db : Db}
    (hok : (PredictionsController.create parse now session params).run Db.exec board.toDb = (.ok .ok, db)) :
    ∃ user stock content, board.sessionUser session = some user ∧ board.stock params.stock_id = some stock ∧
      params.content = some content ∧
      Announced board { board with toDb := db } ⟨.prediction, board.prediction_seq⟩ user stock content := by
  rcases run_create parse now session params board.toDb with
    ⟨e, hrun⟩ | ⟨errors, tag, hrun⟩ | ⟨user, stock, row, tag, refs, huser, hstock, -, hid, -, -, ⟨content, hcontent, rfl⟩, hrun⟩
  · cases hrun.symm.trans hok
  · cases hrun.symm.trans hok
  · refine ⟨user, stock, content, huser, hstock, hcontent, ?_⟩
    have hfound : (board.toDb.exec (.insertTag tag)).stock row.stock_id = some stock := by
      have hsame : stock.id = params.stock_id := by simpa using List.find?_some hstock
      rw [hid, hsame]
      exact hstock
    let item : Ref := ⟨.prediction, board.prediction_seq⟩
    let prediction : Prediction := { row with id := board.prediction_seq }
    have hrun := hrun.symm.trans hok
    rw [bind_eq, run_bind_ok Db.exec (run_savePrediction hfound board.tag_seq)] at hrun
    obtain ⟨-, a, hannounce⟩ := run_of_answered Db.exec hrun
    let saved : Db := ((board.toDb.exec (.insertTag tag)).exec (.insertPrediction row)).exec
      (.attachTag board.tag_seq board.prediction_seq) |>.counted stock
    have hstream : (announcePrediction prediction user stock
        ((board.toDb.targets stock.ticker_symbol content).map some)).run Db.exec saved = (.ok a, db) := hannounce
    have hadded := fanning_announcePrediction prediction user stock (board.toDb.targets stock.ticker_symbol content) _ a db
      hstream
    have hpredictions : db.predictions = board.predictions ++ [prediction] := by
      have hcore := (mild_announcePrediction prediction user stock
        ((board.toDb.targets stock.ticker_symbol content).map some)).quiet.core saved
      rw [hstream] at hcore
      exact (congrArg Prod.fst hcore).trans (counted_predictions _ _)
    refine ⟨⟨?_, ?_⟩, _, tagged_targets _ _ _, ?_⟩
    · refine Option.isSome_eq_false_iff.2 (Option.isNone_iff_eq_none.2 (List.find?_eq_none.2 fun old hmem => ?_))
      have hne : old.id ≠ board.prediction_seq := (h.prediction_lt old hmem).ne
      simpa using hne
    · refine List.find?_isSome.2 ⟨prediction, ?_, decide_eq_true rfl⟩
      rw [hpredictions]
      exact List.mem_append_right _ (List.mem_singleton_self _)
    · have hstreams : Fans item [] board.toDb saved := .of_streams (counted_streams _ _)
      exact hstreams.trans hadded

/-- What the announcement of an ending adds, and that the Predictionends stay as they were. -/
theorem announced_announceEnding {ending : Predictionend} {stock : Stock} {user : User} {text : String} {db db' : Db} {a : Unit}
    (hok : (announceEnding ending stock user (some text)).run Db.exec db = (.ok a, db')) :
    Fans ⟨.predictionend, ending.id⟩ (⟨.user, user.id⟩ :: ⟨.stock, stock.id⟩ :: db.targets stock.ticker_symbol text) db db' ∧
      db'.predictionends = db.predictionends := by
  have hcore := (quiet_announceEnding ending stock user (some text)).core db
  rw [hok] at hcore
  refine ⟨?_, congrArg (fun core => core.2.1) hcore⟩
  let popular := db.exec (.insertPopularity ⟨⟨.predictionend, ending.id⟩, 0⟩)
  obtain ⟨tagged, htags⟩ := run_addTags text stock.ticker_symbol .predictionend (some ending.id) popular
  have hrun := (run_bind_ok Db.exec htags fun added => do
    Stream.create! ⟨⟨.predictionend, ending.id⟩, ⟨.stock, stock.id⟩⟩
    Stream.create! ⟨⟨.predictionend, ending.id⟩, ⟨.user, user.id⟩⟩
    targetTags ⟨.predictionend, ending.id⟩ added.2).symm.trans hok
  have hadded := fanning_endingStreams user stock (popular.targets stock.ticker_symbol text) _ a db' hrun
  have hstreams : Fans ⟨.predictionend, ending.id⟩ [] db
      (popular.exec (.insertTag ⟨0, tagged, .predictionend, some ending.id⟩)) := .of_streams rfl
  refine (hstreams.trans hadded).congr fun ref => ?_
  -- A popularity has no name that could be mentioned.
  have hsame : popular.targets stock.ticker_symbol text = db.targets stock.ticker_symbol text := rfl
  simp [hsame, or_left_comm]

/-- A completed ending by hand has announced the row it inserted. -/
theorem predictionendsCreate_inv {now : Time} {session : Option Nat} {prediction_id : Nat} {content : Option String} {db : Db}
    (hok : (PredictionendsController.create now session prediction_id content).run Db.exec board.toDb =
      (.ok (.messages ["prediction ended."]), db)) :
    ∃ user prediction stock time text, board.sessionUser session = some user ∧
      board.prediction prediction_id = some prediction ∧ board.stock prediction.stock_id = some stock ∧
      content = some text ∧
      (announceEnding { handEnding prediction stock time (some text) with id := board.predictionend_seq } stock user
        (some text)).run Db.exec ((board.saved prediction.id (deactivate.dirty prediction) stock).exec
          (.insertPredictionend (handEnding prediction stock time (some text)))) = (.ok (), db) := by
  cases hfound : board.prediction prediction_id with
  | none =>
    have hgone : (PredictionendsController.create now session prediction_id content).run Db.exec board.toDb =
        (.ok (.messages ["prediction has already been canceled"]), board.toDb) := by
      simp [PredictionendsController.create, select, hfound]
    exact absurd (congrArg Prod.fst (hgone.symm.trans hok)) (by simp)
  | some prediction =>
    rw [run_createPredictionend hfound] at hok
    by_cases hended : (board.predictionendOf prediction_id).isSome = true
    · rw [if_pos hended] at hok
      exact absurd (congrArg Prod.fst hok) (by simp)
    · rw [if_neg hended] at hok
      cases huser : board.sessionUser session with
      | none => simp [huser] at hok
      | some user =>
        cases hstock : board.stock prediction.stock_id with
        | none => simp [huser, hstock] at hok
        | some stock =>
          simp only [huser, hstock] at hok
          cases hstarted : board.startedOrChildren prediction now with
          | false => simp [hstarted] at hok
          | true =>
            obtain ⟨-, rfl⟩ := prediction_found hfound
            have hnone : board.predictionendOf prediction.id = none := by simpa using hended
            rw [if_pos hstarted, bind_eq] at hok
            obtain ⟨-, a, hend⟩ := run_of_answered Db.exec hok
            rw [run_endByHand hnone] at hend
            cases htime : closestStartTime (graphTime now) with
            | none => simp [htime] at hend
            | some time =>
              rw [htime] at hend
              cases content with
              | none => cases hend
              | some text => exact ⟨user, prediction, stock, time, text, rfl, rfl, hstock, rfl, hend⟩

/-- What a completed ending by hand adds. -/
theorem announced_predictionendsCreate (h : Keyed board.toDb) {now : Time} {session : Option Nat} {prediction_id : Nat}
    {content : Option String} {db : Db}
    (hok : (PredictionendsController.create now session prediction_id content).run Db.exec board.toDb =
      (.ok (.messages ["prediction ended."]), db)) :
    ∃ user prediction stock text, board.sessionUser session = some user ∧
      board.prediction prediction_id = some prediction ∧ board.stock prediction.stock_id = some stock ∧
      content = some text ∧
      Announced board { board with toDb := db } ⟨.predictionend, board.predictionend_seq⟩ user stock text := by
  obtain ⟨user, prediction, stock, time, text, huser, hfound, hstock, hcontent, hend⟩ := predictionendsCreate_inv hok
  refine ⟨user, prediction, stock, text, huser, hfound, hstock, hcontent, ?_⟩
  obtain ⟨hadded, hends⟩ := announced_announceEnding hend
  let item : Ref := ⟨.predictionend, board.predictionend_seq⟩
  let saved : Db := board.toDb.saved prediction.id (deactivate.dirty prediction) stock
  let row := handEnding prediction stock time (some text)
  have htargets : (saved.exec (.insertPredictionend row)).targets stock.ticker_symbol text =
      board.toDb.targets stock.ticker_symbol text := targets_saved _ _ _ _ _ _
  rw [htargets] at hadded
  refine ⟨⟨?_, ?_⟩, _, tagged_targets _ _ _, ?_⟩
  · refine Option.isSome_eq_false_iff.2 (Option.isNone_iff_eq_none.2 (List.find?_eq_none.2 fun old hmem => ?_))
    have hne : old.id ≠ board.predictionend_seq := (h.predictionend_lt old hmem).ne
    simpa using hne
  · have hseq : saved.predictionend_seq = board.predictionend_seq := counted_predictionend_seq _ _
    refine List.find?_isSome.2 ⟨{ row with id := saved.predictionend_seq }, ?_, decide_eq_true hseq⟩
    rw [hends]
    exact List.mem_append_right _ (List.mem_singleton_self _)
  · have hstreams : Fans item [] board.toDb (saved.exec (.insertPredictionend row)) :=
      .of_streams (streams_inserted row)
    exact hstreams.trans hadded

end

end Posts

end MyStockIQ
