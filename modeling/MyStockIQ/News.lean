import MyStockIQ.Imports
import MyStockIQ.Posting
/-!
# The news in the streams (`lib/scraper.rb`)

`google_news` inserts the articles of a feed that are not there yet, and gives
each a stream to the stock the feed was asked for. For an article that is there
`check_for_dup` is meant to add the stream, through a class `NewsData` that
exists nowhere; `process_rss_feed` rescues the exception. So an article that was
first fetched for one stock never reaches the stream of another
(`merger_for_one`), and what a run finds there has to have arrived before
(`news_arrives`).
-/

open SharedStore Prog Sql MyStockIQ.Scraper

namespace MyStockIQ.Posts

/-- `Newsarticle.find_by(google_news_id: ..)`, the newest. -/
def Board.newsarticle (board : Board) (google_news_id : Option Str) : Option Newsarticle :=
  (board.newsarticles.filter (·.google_news_id = google_news_id)).getLast?

/-- `check_for_dup` -/
def checkForDup (hash_item : NewsHash) : Request Bool := do
  let known ← Prog.query (.selectNewsarticle hash_item.google_news_id) fun board =>
    (board.newsarticle hash_item.google_news_id).isSome
  if known then
    let _ ← Prog.query (.selectNewsarticle hash_item.google_news_id) fun board =>
      board.newsarticle hash_item.google_news_id
    .raise (.nameError "NewsData")
  else return true

/-- `process_rss_feed`, which goes on with the next entry if one raises. A hash is
kept as it was before its quotes were doubled. -/
def processRssFeed (site : Site) : List Entry → Request (List NewsHash)
  | [] => return []
  | row :: rows =>
    match GoogleNews.said site row with
    | none => processRssFeed site rows
    | some hash_item => do
      let checked ← (checkForDup hash_item).attempt
      let hash_array ← processRssFeed site rows
      return if checked = some true then hash_item :: hash_array else hash_array

/-- `save_to_db`. What the database makes of a text that does not read as the insertion is `misread`. -/
def saveToDb (site : Site) (misread : Str → Request Unit) (hash_array : List NewsHash) : Request Unit :=
  match Scraper.saveToDb (GoogleNews.singleRowInsert site) GoogleNews.allDataInsert
      (hash_array.map NewsHash.doubled) with
  | none => return ()
  | some sql =>
    if lex sql = some (newsStatement site hash_array) then
      if hash_array.all NewsHash.storable then Prog.exec (.insertNewsarticles (hash_array.map NewsHash.stored))
      else .raise .statementInvalid
    else misread sql

/-- What `save_to_stream` does with each of its hashes. -/
def saveNewsItem (ticker_symbol : String) (news_item : NewsHash) : Request Unit := do
  let news_object ← Prog.query (.selectNewsarticle news_item.google_news_id) fun board =>
    board.newsarticle news_item.google_news_id
  let target_stock ← onDb (select (.stockTicker ticker_symbol) (·.stockTicker ticker_symbol))
  let news_object ← orNil news_object "streams"
  let target_stock ← orNil target_stock "id"
  let streamable : Ref := ⟨.newsarticle, news_object.id⟩
  let _ ← onDb (Stream.save ⟨streamable, ⟨.stock, target_stock.id⟩⟩)
  onDb (write (.insertPopularity ⟨streamable, 0⟩))

/-- `ScraperPublic.google_news` -/
def googleNews (site : Site) (misread : Str → Request Unit) (ticker_symbol : String) (entries : List Entry) :
    Request Unit := do
  let news_hash_array ← processRssFeed site entries
  if news_hash_array.isEmpty then return ()
  else
    saveToDb site misread news_hash_array
    Prog.each (saveNewsItem ticker_symbol) news_hash_array

/-- A run, with the site and the database as they are then. -/
structure NewsRun where
  site : Site
  misread : Str → Request Unit
  ticker_symbol : String
  entries : List Entry

namespace NewsRun

def run (self : NewsRun) (board : Board) : Board :=
  ((googleNews self.site self.misread self.ticker_symbol self.entries).run Board.exec board).2

/-- The articles `data_hash` can parse. -/
def parsed (self : NewsRun) : List NewsHash := self.entries.filterMap (GoogleNews.said self.site)

/-- Those that are not there yet. -/
def fresh (self : NewsRun) (board : Board) : List NewsHash :=
  self.parsed.filter fun article => (board.newsarticle article.google_news_id).isNone

end NewsRun

/-! ## What a run does -/

theorem run_checkForDup (hash_item : NewsHash) (board : Board) : (checkForDup hash_item).attempt.run Board.exec board =
    (.ok (if (board.newsarticle hash_item.google_news_id).isNone then some true else none), board) := by
  rw [run_attempt]
  cases h : board.newsarticle hash_item.google_news_id with
  | none => simp [checkForDup, Board.exec, h]
  | some row => simp [checkForDup, Board.exec, h]

theorem run_processRssFeed (site : Site) (entries : List Entry) (board : Board) :
    (processRssFeed site entries).run Board.exec board =
      (.ok ((entries.filterMap (GoogleNews.said site)).filter fun article =>
        (board.newsarticle article.google_news_id).isNone), board) := by
  induction entries with
  | nil => rfl
  | cons row rows ih =>
    unfold processRssFeed
    cases hsaid : GoogleNews.said site row with
    | none => simpa [hsaid] using ih
    | some hash_item =>
      dsimp only
      rw [bind_eq, run_bind_ok Board.exec (run_checkForDup hash_item board), bind_eq, run_bind_ok Board.exec ih]
      cases h : board.newsarticle hash_item.google_news_id with
      | none => simp [hsaid, h]
      | some row => simp [hsaid, h]

/-- Articles that are not misread are inserted, unless there is one the columns cannot hold. -/
theorem run_saveToDb (site : Site) (misread : Str → Request Unit) {hash_array : List NewsHash} (hne : hash_array ≠ [])
    (hclean : ∀ article ∈ hash_array, '\'' ∉ interpolate article.google_news_id) (board : Board) :
    (saveToDb site misread hash_array).run Board.exec board =
      if hash_array.all NewsHash.storable then (.ok (), board.exec (.insertNewsarticles (hash_array.map NewsHash.stored)))
      else (.error .statementInvalid, board) := by
  unfold saveToDb
  split
  · next hsql => exact absurd (saveToDb_none.1 hsql) (by simpa using hne)
  · next sql hsql =>
    have hreads : Sql.lex sql = some (newsStatement site hash_array) := by
      rw [saveToDb_some hsql]
      exact (news_reads_iff site _).2 hclean
    rw [if_pos hreads]
    split
    · rfl
    · rfl

/-- The articles as rows, numbered from the sequence. -/
def Board.numbered (board : Board) (articles : List NewsHash) : List Newsarticle :=
  articles.zipIdx.map fun row => ⟨row.1, board.newsarticle_seq + row.2⟩

/-- The stream of an article to a stock. -/
def Newsarticle.to (self : Newsarticle) (stock : Stock) : Stream := ⟨⟨.newsarticle, self.id⟩, ⟨.stock, stock.id⟩⟩

/-- The board with more streams, and other popularities. -/
def Board.sent (board : Board) (more : List Stream) (popularities : List Popularity) : Board :=
  { board with
    streams := board.streams ++ more
    popularities := popularities }

/-! ## Numbered rows -/

theorem forall₂_zipIdx {A B : Type} {R : A → B → Prop} {f : A × Nat → B} {l : List A} {n : Nat}
    (h : ∀ a ∈ l.zipIdx n, R a.1 (f a)) : List.Forall₂ R l ((l.zipIdx n).map f) := by
  induction l generalizing n with
  | nil => exact .nil
  | cons a l ih => exact .cons (h (a, n) (by simp)) (ih fun b hb => h b (by simp [hb]))

theorem map_toNewsHash_numbered (board : Board) (articles : List NewsHash) :
    (board.numbered articles).map (·.toNewsHash) = articles := by
  rw [Board.numbered, List.map_map]
  exact List.zipIdx_map_fst 0 articles

theorem map_id_numbered (board : Board) (articles : List NewsHash) :
    (board.numbered articles).map (·.id) = (List.range' 0 articles.length).map (board.newsarticle_seq + ·) := by
  rw [← List.zipIdx_map_snd, Board.numbered, List.map_map, List.map_map]
  rfl

theorem nodup_numbered (board : Board) (articles : List NewsHash) :
    ((board.numbered articles).map (·.id)).Nodup := by
  rw [map_id_numbered]
  exact List.Nodup.map (fun _ _ h => Nat.add_left_cancel h) List.nodup_range'

theorem id_numbered {board : Board} {articles : List NewsHash} {row : Newsarticle}
    (h : row ∈ board.numbered articles) :
    board.newsarticle_seq ≤ row.id ∧ row.id < board.newsarticle_seq + articles.length := by
  have hid : row.id ∈ (board.numbered articles).map (·.id) := List.mem_map_of_mem h
  rw [map_id_numbered] at hid
  obtain ⟨n, hn, heq⟩ := List.mem_map.1 hid
  rw [List.mem_range'_1] at hn
  omega

/-- The rows of a key no two of which are the same. -/
theorem filter_key {A K : Type} [DecidableEq K] {key : A → K} {l : List A} (h : (l.map key).Nodup) {a : A}
    (ha : a ∈ l) : l.filter (key · = key a) = [a] := by
  induction l with
  | nil => cases ha
  | cons b l ih =>
    rw [List.map_cons, List.nodup_cons] at h
    rcases List.mem_cons.1 ha with rfl | ha
    · have hnone : l.filter (key · = key a) = [] := by
        rw [List.filter_eq_nil_iff]
        intro b hb heq
        exact h.1 (of_decide_eq_true heq ▸ List.mem_map_of_mem hb)
      simp [hnone]
    · have hne : key b ≠ key a := by
        intro heq
        exact h.1 (heq ▸ List.mem_map_of_mem ha)
      simp [hne, ih h.2 ha]

/-! ## Following one run through -/

theorem run_saveNewsItem {board : Board} {ticker_symbol : String} {news_item : NewsHash} {row : Newsarticle}
    {stock : Stock} (hrow : board.newsarticle news_item.google_news_id = some row)
    (hstock : board.stockTicker ticker_symbol = some stock) (hnew : row.to stock ∉ board.streams) :
    ∃ popularities, (saveNewsItem ticker_symbol news_item).run Board.exec board =
      (.ok (), board.sent [row.to stock] popularities) := by
  have hsave : (Stream.save (row.to stock)).run Db.exec board.toDb =
      (.ok true, { board.toDb with streams := board.streams ++ [row.to stock] }) := by
    simp [Stream.save, select, write, hnew, Db.exec]
  simp only [saveNewsItem, bind_eq, query_bind, run_step, Board.exec, hrow, orNil, ret_bind]
  rw [run_bind_ok Board.exec (run_onDb_select _ _ board), hstock]
  exact ⟨_, run_bind_ok Board.exec (run_onDb_ok hsave) _⟩

/-- `save_to_stream`, where every article has a row of its own that no stream is from. -/
theorem run_saveToStream {ticker_symbol : String} {stock : Stock} {news_hash_array : List NewsHash}
    {rows : List Newsarticle} {board : Board}
    (hrows : List.Forall₂ (fun (news_item : NewsHash) row => board.newsarticle news_item.google_news_id = some row)
      news_hash_array rows)
    (hstock : board.stockTicker ticker_symbol = some stock) (hnodup : (rows.map (·.id)).Nodup)
    (hnew : ∀ row ∈ rows, row.to stock ∉ board.streams) :
    ∃ popularities, (Prog.each (saveNewsItem ticker_symbol) news_hash_array).run Board.exec board =
      (.ok (), board.sent (rows.map (·.to stock)) popularities) := by
  induction news_hash_array generalizing rows board with
  | nil =>
    cases hrows
    exact ⟨board.popularities, by simp [Prog.each, Board.sent]⟩
  | cons news_item rest ih =>
    obtain ⟨row, rows, hrow, hrest, rfl⟩ : ∃ row rows', board.newsarticle news_item.google_news_id = some row ∧
        List.Forall₂ (fun (news_item : NewsHash) row => board.newsarticle news_item.google_news_id = some row)
          rest rows' ∧ rows = row :: rows' := by
      cases hrows with
      | cons hrow hrest => exact ⟨_, _, hrow, hrest, rfl⟩
    rw [List.map_cons, List.nodup_cons] at hnodup
    obtain ⟨popularities, hitem⟩ := run_saveNewsItem hrow hstock (hnew row (by simp))
    -- The stream just sent is from another row than those to come.
    have hrest_new : ∀ other ∈ rows, other.to stock ∉ board.streams ++ [row.to stock] := by
      intro other hother hmem
      rcases List.mem_append.1 hmem with hmem | hmem
      · exact hnew other (by simp [hother]) hmem
      · have hid : other.id = row.id := by simpa [Newsarticle.to] using hmem
        exact hnodup.1 (hid ▸ List.mem_map_of_mem hother)
    obtain ⟨popularities', hloop⟩ :=
      @ih rows (board.sent [row.to stock] popularities) hrest hstock hnodup.2 hrest_new
    refine ⟨popularities', ?_⟩
    refine (run_bind_ok Board.exec hitem _).trans (hloop.trans ?_)
    simp [Board.sent]

/-! ## Arrival -/

/-- The article has exactly one row, and exactly one stream goes from it to the stock of the ticker. -/
def Board.Arrived (board : Board) (ticker_symbol : String) (google_news_id : Option Str) : Prop :=
  ∃ stock row, board.stockTicker ticker_symbol = some stock ∧
    board.newsarticles.filter (·.google_news_id = google_news_id) = [row] ∧ board.streams.count (row.to stock) = 1

/-- The rows and the streams of articles have ids the sequence gave. -/
structure Board.Numbered (board : Board) : Prop where
  rows : ∀ row ∈ board.newsarticles, row.id < board.newsarticle_seq
  streams : ∀ stream ∈ board.streams, stream.streamable.type = .newsarticle → stream.streamable.id < board.newsarticle_seq

namespace NewsRun

/-- The ticker is that of a stock. What the feed has of articles that are there
has arrived at that stock already; the others have different ids, without quotes,
and can be saved. -/
structure Admits (board : Board) (run : NewsRun) : Prop where
  stock : run.parsed ≠ [] → (board.stockTicker run.ticker_symbol).isSome
  known : ∀ article ∈ run.parsed, article ∉ run.fresh board → board.Arrived run.ticker_symbol article.google_news_id
  distinct : ((run.fresh board).map (·.google_news_id)).Nodup
  savable : ∀ article ∈ run.fresh board,
    article.google_news_id.isSome ∧ '\'' ∉ interpolate article.google_news_id ∧ article.storable

variable {board : Board} {run : NewsRun}

theorem run_eq (self : NewsRun) (board : Board) : self.run board =
    if (self.fresh board).isEmpty then board
    else ((saveToDb self.site self.misread (self.fresh board)).bind fun _ =>
      Prog.each (saveNewsItem self.ticker_symbol) (self.fresh board)).run Board.exec board |>.2 := by
  unfold NewsRun.run googleNews
  rw [bind_eq, run_bind_ok Board.exec (run_processRssFeed self.site self.entries board)]
  change (Prog.run Board.exec (if (self.fresh board).isEmpty then _ else _) board).2 = _
  split
  · rfl
  · rfl

theorem Admits.run_saveToDb (h : run.Admits board) (hne : run.fresh board ≠ []) :
    (saveToDb run.site run.misread (run.fresh board)).run Board.exec board =
      (.ok (), board.exec (.insertNewsarticles ((run.fresh board).map NewsHash.stored))) := by
  have hstorable : (run.fresh board).all NewsHash.storable := by
    rw [List.all_eq_true]
    exact fun article hmem => (h.savable article hmem).2.2
  rw [Posts.run_saveToDb run.site run.misread hne (fun article hmem => (h.savable article hmem).2.1) board,
    if_pos hstorable]

theorem Admits.stored (h : run.Admits board) {article : NewsHash} (hmem : article ∈ run.fresh board) :
    article.stored.google_news_id = article.google_news_id := by
  obtain ⟨id, hid⟩ := Option.isSome_iff_exists.1 (h.savable article hmem).1
  simp [NewsHash.stored, hid, interpolate]

/-- The rows of the new articles. -/
def rows (self : NewsRun) (board : Board) : List Newsarticle :=
  board.numbered ((self.fresh board).map NewsHash.stored)

theorem Admits.map_key_rows (h : run.Admits board) :
    (run.rows board).map (·.google_news_id) = (run.fresh board).map (·.google_news_id) := by
  have hkey : (run.rows board).map (·.google_news_id) =
      ((run.rows board).map (·.toNewsHash)).map (·.google_news_id) := by
    rw [List.map_map]
    rfl
  rw [hkey, rows, map_toNewsHash_numbered, List.map_map]
  apply List.map_congr_left
  intro article hmem
  exact h.stored hmem

theorem newsarticle_none {google_news_id : Option Str} :
    board.newsarticle google_news_id = none ↔ board.newsarticles.filter (·.google_news_id = google_news_id) = [] := by
  rw [Board.newsarticle, List.getLast?_eq_none_iff]

theorem fresh_none {article : NewsHash} (hmem : article ∈ run.fresh board) :
    board.newsarticle article.google_news_id = none :=
  Option.isNone_iff_eq_none.1 (List.mem_filter.1 hmem).2

/-- A new article has one row once they are inserted. -/
theorem Admits.inserted (h : run.Admits board) {row : Newsarticle} (hmem : row ∈ run.rows board) :
    (board.newsarticles ++ run.rows board).filter (·.google_news_id = row.google_news_id) = [row] := by
  have hkey : row.google_news_id ∈ (run.rows board).map (·.google_news_id) := List.mem_map_of_mem hmem
  rw [h.map_key_rows] at hkey
  obtain ⟨article, harticle, heq⟩ := List.mem_map.1 hkey
  have hold : board.newsarticles.filter (·.google_news_id = row.google_news_id) = [] := by
    rw [← newsarticle_none, ← heq]
    exact fresh_none harticle
  have hdistinct : ((run.rows board).map (·.google_news_id)).Nodup := by
    rw [h.map_key_rows]
    exact h.distinct
  rw [List.filter_append, hold, filter_key hdistinct hmem, List.nil_append]

/-- No stream is from a new article yet. -/
theorem not_sent (hnumbered : board.Numbered) {row : Newsarticle} (hrow : row ∈ run.rows board) (stock : Stock) :
    row.to stock ∉ board.streams := by
  intro hmem
  have hlt : row.id < board.newsarticle_seq := hnumbered.streams _ hmem rfl
  have hge := (id_numbered hrow).1
  omega

/-- The run inserts the new articles, and sends each to the stock. -/
theorem Admits.run_eq_sent (h : run.Admits board) (hnumbered : board.Numbered) (hne : run.fresh board ≠ []) :
    ∃ stock popularities, board.stockTicker run.ticker_symbol = some stock ∧
      run.run board = Board.sent (board.exec (.insertNewsarticles ((run.fresh board).map NewsHash.stored)))
        ((run.rows board).map (·.to stock)) popularities := by
  have hparsed : run.parsed ≠ [] := by
    intro hnil
    exact hne (by simp [fresh, hnil])
  obtain ⟨stock, hstock⟩ := Option.isSome_iff_exists.1 (h.stock hparsed)
  have hzip : run.rows board = (run.fresh board).zipIdx.map fun article =>
      (⟨article.1.stored, board.newsarticle_seq + article.2⟩ : Newsarticle) := by
    rw [rows, Board.numbered, List.zipIdx_map, List.map_map]
    rfl
  have hlookup : List.Forall₂ (fun (news_item : NewsHash) row =>
      (board.exec (.insertNewsarticles ((run.fresh board).map NewsHash.stored))).newsarticle news_item.google_news_id =
        some row) (run.fresh board) (run.rows board) := by
    rw [hzip]
    apply forall₂_zipIdx
    intro article harticle
    have hfresh : article.1 ∈ run.fresh board := List.fst_mem_of_mem_zipIdx harticle
    have hrow : (⟨article.1.stored, board.newsarticle_seq + article.2⟩ : Newsarticle) ∈ run.rows board := by
      rw [hzip]
      exact List.mem_map_of_mem harticle
    have hone := h.inserted hrow
    rw [h.stored hfresh] at hone
    exact congrArg List.getLast? hone
  have hnew : ∀ row ∈ run.rows board, row.to stock ∉ board.streams := fun row hrow => not_sent hnumbered hrow stock
  obtain ⟨popularities, hloop⟩ := run_saveToStream hlookup hstock (nodup_numbered board _) hnew
  refine ⟨stock, popularities, hstock, ?_⟩
  rw [run_eq, if_neg (by simpa using hne), run_bind_ok Board.exec (h.run_saveToDb hne), hloop]

/-- It inserts nothing if nothing is new. -/
theorem run_eq_self (hnil : run.fresh board = []) : run.run board = board := by
  rw [run_eq, if_pos (by simp [hnil])]

/-- The ids stay ones the sequence gave. -/
theorem Admits.numbered (h : run.Admits board) (hnumbered : board.Numbered) : (run.run board).Numbered := by
  by_cases hne : run.fresh board = []
  · rwa [run_eq_self hne]
  obtain ⟨stock, popularities, -, hrun⟩ := h.run_eq_sent hnumbered hne
  have hseq : (run.run board).newsarticle_seq =
      board.newsarticle_seq + ((run.fresh board).map NewsHash.stored).length := by
    rw [hrun]
    rfl
  constructor
  · intro row hmem
    rw [hseq]
    rw [hrun] at hmem
    rcases List.mem_append.1 hmem with hmem | hmem
    · exact Nat.lt_add_right _ (hnumbered.rows row hmem)
    · exact (id_numbered hmem).2
  · intro stream hmem htype
    rw [hseq]
    rw [hrun] at hmem
    rcases List.mem_append.1 hmem with hmem | hmem
    · exact Nat.lt_add_right _ (hnumbered.streams stream hmem htype)
    · obtain ⟨row, hrow, rfl⟩ := List.mem_map.1 hmem
      exact (id_numbered hrow).2

/-- The articles sent are new, so no stream was from one. -/
theorem count_sent (stock other : Stock) {row : Newsarticle}
    (hrow : row.id < board.newsarticle_seq) : ((run.rows board).map (·.to stock)).count (row.to other) = 0 := by
  apply List.count_eq_zero_of_not_mem
  intro hmem
  obtain ⟨sent, hsent, heq⟩ := List.mem_map.1 hmem
  have hid : sent.id = row.id := congrArg (·.streamable.id) heq
  have hge := (id_numbered hsent).1
  omega

/-- A new article arrives. -/
theorem Admits.arrives (h : run.Admits board) (hnumbered : board.Numbered) {article : NewsHash}
    (hmem : article ∈ run.fresh board) : (run.run board).Arrived run.ticker_symbol article.google_news_id := by
  obtain ⟨stock, popularities, hstock, hrun⟩ := h.run_eq_sent hnumbered (List.ne_nil_of_mem hmem)
  have hkey : article.google_news_id ∈ (run.rows board).map (·.google_news_id) := by
    rw [h.map_key_rows]
    exact List.mem_map_of_mem hmem
  obtain ⟨row, hrow, hid⟩ := List.mem_map.1 hkey
  rw [hrun]
  refine ⟨stock, row, hstock, hid ▸ h.inserted hrow, ?_⟩
  have hold : board.streams.count (row.to stock) = 0 := List.count_eq_zero_of_not_mem (not_sent hnumbered hrow stock)
  have hnodup : ((run.rows board).map (·.to stock)).Nodup := by
    have hids : ((run.rows board).map (·.to stock)).map (·.streamable.id) = (run.rows board).map (·.id) := by
      rw [List.map_map]
      rfl
    apply List.Nodup.of_map (·.streamable.id)
    rw [hids]
    exact nodup_numbered board _
  change (board.streams ++ (run.rows board).map (·.to stock)).count (row.to stock) = 1
  rw [List.count_append, hold, List.count_eq_one_of_mem hnodup (List.mem_map_of_mem hrow)]

/-- One that had arrived is left as it is. -/
theorem Admits.stays (h : run.Admits board) (hnumbered : board.Numbered) {ticker_symbol : String}
    {google_news_id : Option Str} (harrived : board.Arrived ticker_symbol google_news_id) :
    (run.run board).Arrived ticker_symbol google_news_id := by
  by_cases hne : run.fresh board = []
  · rwa [run_eq_self hne]
  obtain ⟨stock, popularities, -, hrun⟩ := h.run_eq_sent hnumbered hne
  obtain ⟨other, row, hother, hone, hcount⟩ := harrived
  rw [hrun]
  refine ⟨other, row, hother, ?_, ?_⟩
  · have hnone : (run.rows board).filter (·.google_news_id = google_news_id) = [] := by
      rw [List.filter_eq_nil_iff]
      intro new hnew heq
      have hkey : new.google_news_id ∈ (run.rows board).map (·.google_news_id) := List.mem_map_of_mem hnew
      rw [h.map_key_rows] at hkey
      obtain ⟨article, harticle, hid⟩ := List.mem_map.1 hkey
      have hempty := newsarticle_none.1 (fresh_none harticle)
      rw [hid, of_decide_eq_true heq, hone] at hempty
      cases hempty
    change (board.newsarticles ++ run.rows board).filter (·.google_news_id = google_news_id) = [row]
    rw [List.filter_append, hone, hnone, List.append_nil]
  · have hmem : row ∈ board.newsarticles := by
      apply List.mem_of_mem_filter (p := (·.google_news_id = google_news_id))
      rw [hone]
      exact List.mem_singleton_self row
    change (board.streams ++ (run.rows board).map (·.to stock)).count (row.to other) = 1
    rw [List.count_append, hcount, count_sent stock other (hnumbered.rows row hmem)]

end NewsRun

/-- After every run of a series that meets the condition at each run, what the
feed has is there once, and in the stream of its stock once. -/
theorem news_arrives {start board : Board} (hstart : start.Numbered)
    (hboard : Serial NewsRun.run (fun board run => run.Admits board) start board) {run : NewsRun} (h : run.Admits board) :
    ∀ article ∈ run.parsed, (run.run board).Arrived run.ticker_symbol article.google_news_id := by
  have hnumbered : board.Numbered := hboard.inv hstart fun _ _ hadmits hnumbered => hadmits.numbered hnumbered
  intro article hmem
  -- What is there already is only looked up, so it must have arrived before.
  by_cases hfresh : article ∈ run.fresh board
  · exact h.arrives hnumbered hfresh
  · exact h.stays hnumbered (h.known article hmem hfresh)

/-! ## An article for two stocks -/

/-- Two stocks and no news. -/
def twoStocks : Board :=
  { emptyBoard with
    stocks := [⟨1, "A stock", "ABC", none, none, none, 0⟩, ⟨2, "Another", "XYZ", none, none, none, 0⟩] }

/-- An entry about both. -/
def merger : Entry where
  entry_id := some "tag:merger".toList
  title := some "Merger".toList
  url := some "http://news".toList
  summary := some "width:80%;\">They merge</div>color:#888888;\">Wire</".toList
  published := some 0

/-- A run that gets it for a ticker. -/
def mergerFor (ticker_symbol : String) : NewsRun := ⟨quietSite, fun _ => .ret (), ticker_symbol, [merger]⟩

/-- What it says. -/
def mergerNews : NewsHash where
  google_news_id := some "tag:merger".toList
  title := "Merger".toList
  source := "Wire".toList
  url := "http://news".toList
  summary := "They merge".toList
  date := some 0

theorem parsed_merger (ticker_symbol : String) : (mergerFor ticker_symbol).parsed = [mergerNews] := by
  have hsaid : GoogleNews.said quietSite merger = some mergerNews := rfl
  simp [NewsRun.parsed, mergerFor, hsaid]

theorem twoStocks_numbered : twoStocks.Numbered :=
  ⟨by simp [twoStocks, emptyBoard], by simp [twoStocks, emptyBoard, oneStock]⟩

theorem fresh_merger (ticker_symbol : String) : (mergerFor ticker_symbol).fresh twoStocks = [mergerNews] := by
  unfold NewsRun.fresh
  rw [parsed_merger]
  rfl

theorem merger_admits : (mergerFor "ABC").Admits twoStocks where
  stock _ := rfl
  known article hmem hknown := absurd hmem (by rwa [parsed_merger, ← fresh_merger "ABC"])
  distinct := by simp [fresh_merger]
  savable article hmem := by
    obtain rfl : article = mergerNews := by simpa [fresh_merger] using hmem
    exact ⟨rfl, by decide, by decide⟩

/-- The board after the first run. -/
def merged : Board := (mergerFor "ABC").run twoStocks

theorem arrived_merged : merged.Arrived "ABC" mergerNews.google_news_id :=
  merger_admits.arrives twoStocks_numbered (by simp [fresh_merger])

theorem fresh_merged (ticker_symbol : String) : (mergerFor ticker_symbol).fresh merged = [] := by
  obtain ⟨stock, row, -, hone, -⟩ := arrived_merged
  have hknown : merged.newsarticle mergerNews.google_news_id = some row := congrArg List.getLast? hone
  simp [NewsRun.fresh, parsed_merger, hknown]

/-- The same feed once more has nothing new. -/
theorem merged_admits : (mergerFor "ABC").Admits merged := by
  obtain ⟨stock, row, hstock, -, -⟩ := arrived_merged
  refine ⟨?_, ?_, ?_, ?_⟩
  · intro _
    exact Option.isSome_of_eq_some hstock
  · intro article hmem _
    obtain rfl : article = mergerNews := by simpa [parsed_merger] using hmem
    exact arrived_merged
  · simp [fresh_merged]
  · intro article hmem
    simp [fresh_merged] at hmem

theorem merger_twice : ((mergerFor "ABC").run merged).Arrived "ABC" mergerNews.google_news_id :=
  news_arrives twoStocks_numbered (.run .init merger_admits) merged_admits mergerNews (by simp [parsed_merger])

/-- The feed of the other stock: it finds the article there, and sends it nowhere. -/
theorem merger_for_one : ¬∀ (start board : Board), start.Numbered →
    Serial NewsRun.run (fun _ _ => True) start board → ∀ run : NewsRun, ∀ article ∈ run.parsed,
      (run.run board).Arrived run.ticker_symbol article.google_news_id := by
  intro h
  have harrived := h twoStocks merged twoStocks_numbered (.run .init trivial) (mergerFor "XYZ") mergerNews
    (by simp [parsed_merger])
  rw [NewsRun.run_eq_self (fresh_merged "XYZ")] at harrived
  obtain ⟨stock, popularities, hstock, hrun⟩ :=
    merger_admits.run_eq_sent twoStocks_numbered (by simp [fresh_merger])
  change merged = _ at hrun
  obtain ⟨other, row, hother, -, hcount⟩ := harrived
  have hmem : row.to other ∈ merged.streams := List.count_pos_iff.1 (by omega)
  rw [hrun] at hmem hother
  obtain ⟨sent, -, heq⟩ : ∃ sent ∈ (mergerFor "ABC").rows twoStocks, sent.to stock = row.to other := by
    rcases List.mem_append.1 hmem with hmem | hmem
    · cases hmem
    · exact List.mem_map.1 hmem
  have hid : stock.id = other.id := congrArg (·.targetable.id) heq
  obtain rfl : stock = ⟨1, "A stock", "ABC", none, none, none, 0⟩ := (Option.some.inj hstock).symm
  obtain rfl : other = ⟨2, "Another", "XYZ", none, none, none, 0⟩ := (Option.some.inj hother).symm
  cases hid

end MyStockIQ.Posts
