import MyStockIQ.Scraper
import MyStockIQ.Sql.Reading
/-!
# What the scraper's statements say

A statement says what its feed said if it reads as the insertion or update of
the feed's own values. `statement_reads_iff` gives the batches it does so for:
the columns whose quotes are not doubled must have none, and what goes in
without quotes must be a number. The library's pieces follow the code's own
way of joining strings.
-/

open Sql

namespace MyStockIQ.Scraper

-- The fixed texts are up to a hundred characters long.
set_option maxRecDepth 2000

/-! ## What the feeds say -/

/-- The hash with the quotes of its texts doubled. -/
def NewsHash.doubled (h : NewsHash) : NewsHash :=
  { h with
    title := gsubQuote h.title
    source := gsubQuote h.source
    url := gsubQuote h.url
    summary := gsubQuote h.summary }

/-- What an entry says, before any quote is doubled. -/
def GoogleNews.said (site : Site) (row : Entry) : Option NewsHash := do
  let row_summary ← row.summary
  let summary ← between "width:80%;\">" "</div>" row_summary
  let summary ← site.unescapeHTML summary
  let source ← between "color:#888888;\">" "</" row_summary
  let source ← site.unescapeHTML source
  let url ← row.url
  let row_title ← row.title
  let title ← site.unescapeHTML row_title
  some
    { google_news_id := row.entry_id
      title := title
      source := source
      url := url
      summary := summary
      date := row.published }

theorem GoogleNews.dataHash_eq (site : Site) (row : Entry) :
    dataHash site row = (said site row).map NewsHash.doubled := by
  unfold dataHash said NewsHash.doubled
  simp only [Option.bind_eq_bind, Option.map_bind, Option.map_some, Function.comp_def]

/-- The articles a batch of entries gives. -/
def GoogleNews.articles (site : Site) (entries : List Entry) : List NewsHash :=
  processRssFeed (said site) (checkForDup site) entries

theorem GoogleNews.articles_eq (site : Site) (entries : List Entry) :
    processRssFeed (dataHash site) (checkForDup site) entries = (articles site entries).map NewsHash.doubled := by
  have hd : dataHash site = fun row => (said site row).map NewsHash.doubled := by
    funext row
    exact dataHash_eq site row
  have hc : checkForDup site ∘ NewsHash.doubled = checkForDup site := rfl
  unfold articles processRssFeed
  rw [hd, ← List.map_filterMap, List.filter_map, hc]

def StockHash.doubled (h : StockHash) : StockHash := { h with stock := gsubQuote h.stock }

/-- What a row says of a stock. -/
def QuandlAllstocks.said (site : Site) (row : Row) : Option (Option StockHash) := do
  let code := dropEod (← row.cell 0)
  let real_name ← site.dropSuffix code (← row.cell 1)
  some (some { stock := real_name, ticker_symbol := code, active := true })

theorem QuandlAllstocks.dataHash_eq (site : Site) (row : Row) :
    dataHash site row = (said site row).map (Option.map StockHash.doubled) := by
  unfold dataHash said StockHash.doubled
  simp only [Option.bind_eq_bind, Option.map_bind, Option.map_some, Function.comp_def]

/-- The stocks a batch of rows gives, if no row raises. -/
def QuandlAllstocks.stocks (site : Site) (rows : List Row) : Option (List StockHash) :=
  processCsvFile (said site) (checkForDup site) rows

theorem mapM_map {A B C : Type} (f : A → Option B) (g : B → C) (l : List A) :
    l.mapM (fun a => (f a).map g) = (l.mapM f).map (List.map g) := by
  induction l with
  | nil => rfl
  | cons a l ih =>
    simp only [List.mapM_cons, ih]
    cases f a with
    | none => rfl
    | some b => cases l.mapM f <;> rfl

theorem QuandlAllstocks.stocks_eq (site : Site) (rows : List Row) :
    processCsvFile (dataHash site) (checkForDup site) rows = (stocks site rows).map (List.map StockHash.doubled) := by
  have hd : dataHash site = fun row => (said site row).map (Option.map StockHash.doubled) := by
    funext row
    exact dataHash_eq site row
  have hc : checkForDup site ∘ StockHash.doubled = checkForDup site := rfl
  unfold stocks processCsvFile
  rw [hd, mapM_map, Option.map_map, Option.map_map]
  congr 1
  funext hash_items
  have hf : (hash_items.map (Option.map StockHash.doubled)).filterMap id =
      (hash_items.filterMap id).map StockHash.doubled := by
    rw [List.filterMap_map, List.map_filterMap]
    rfl
  simp only [Function.comp_apply]
  rw [hf, List.filter_map, hc]

/-! ## Rows -/

theorem digit_ne_quote (n : Int) : '\'' ≠ digit n := by
  have h : ∀ k : Nat, k < 10 → '\'' ≠ Nat.digitChar k := by decide
  exact h _ (by omega)

theorem quote_not_mem_toDb (t : Time) : '\'' ∉ toDb t := by
  simp [toDb, fourDigits, twoDigits, digit_ne_quote]

theorem quote_not_mem_timeToS (t : Option Time) : '\'' ∉ interpolate (t.map timeToS) := by
  cases t with
  | none => simp [interpolate]
  | some t => simp [interpolate, timeToS, quote_not_mem_toDb]


def newsValues (site : Site) (n : Nat) (h : NewsHash) : List Token :=
  [literal (interpolate h.google_news_id), literal h.title, literal h.url, literal h.summary,
    literal (interpolate (h.date.map timeToS)), literal (toDb (site.now n)), literal (toDb (site.now n)),
    literal h.source]

def newsPiece (site : Site) (n : Nat) (h : NewsHash) : Piece :=
  .row [.verbatim (interpolate h.google_news_id), .doubled h.title, .doubled h.url, .doubled h.summary,
    .verbatim (interpolate (h.date.map timeToS)), .verbatim (toDb (site.now n)), .verbatim (toDb (site.now n)),
    .doubled h.source]

theorem gsubQuote_eq (s : Str) : gsubQuote s = double '\'' s := rfl

/-- The strings between the columns of a row. -/
theorem row_strings : "('".toList = ['(', '\''] ∧ "','".toList = ['\'', ',', '\''] ∧ "')".toList = ['\'', ')'] ∧
    "',".toList = ['\'', ','] ∧ ",'".toList = [',', '\''] := ⟨rfl, rfl, rfl, rfl, rfl⟩

theorem newsPiece_text (site : Site) (n : Nat) (h : NewsHash) :
    (newsPiece site n h).text = GoogleNews.singleRowInsert site n h.doubled := by
  obtain ⟨h0, h1, h2, -, -⟩ := row_strings
  unfold newsPiece GoogleNews.singleRowInsert NewsHash.doubled
  rw [h0, h1, h2]
  generalize interpolate (h.date.map timeToS) = date
  generalize toDb (site.now n) = time
  simp [gsubQuote_eq, enclose]

theorem newsPiece_tokens (site : Site) (n : Nat) (h : NewsHash) :
    (newsPiece site n h).tokens = valueRow (newsValues site n h) := rfl

theorem newsPiece_ok (site : Site) (n : Nat) (h : NewsHash) :
    (newsPiece site n h).ok ↔ '\'' ∉ interpolate h.google_news_id := by
  simp [newsPiece, quote_not_mem_timeToS, quote_not_mem_toDb]

def stockValues (site : Site) (n : Nat) (h : StockHash) : List Token :=
  [literal h.stock, literal h.ticker_symbol, word (toString h.active), literal (toDb (site.now n)),
    literal (toDb (site.now n))]

def stockPiece (site : Site) (n : Nat) (h : StockHash) : Piece :=
  .row [.doubled h.stock, .verbatim h.ticker_symbol,
    .word (toString h.active).toList (toString h.active).toList (by cases h.active <;> rfl),
    .verbatim (toDb (site.now n)), .verbatim (toDb (site.now n))]

theorem stockPiece_text (site : Site) (n : Nat) (h : StockHash) :
    (stockPiece site n h).text = QuandlAllstocks.singleRowInsert site n h.doubled := by
  obtain ⟨h0, h1, h2, h3, h4⟩ := row_strings
  unfold stockPiece QuandlAllstocks.singleRowInsert StockHash.doubled
  rw [h0, h1, h2, h3, h4]
  generalize toDb (site.now n) = time
  simp [gsubQuote_eq, enclose]

theorem stockPiece_tokens (site : Site) (n : Nat) (h : StockHash) :
    (stockPiece site n h).tokens = valueRow (stockValues site n h) := rfl

theorem stockPiece_ok (site : Site) (n : Nat) (h : StockHash) :
    (stockPiece site n h).ok ↔ '\'' ∉ h.ticker_symbol := by
  simp [stockPiece, quote_not_mem_toDb]

/-! ## Insertions -/

theorem scan_comma_space : scan .between [',', ' '] = ([.symbol ','], .between) := by decide

/-- Rows with commas between them, after the head of the insertion. -/
def insertion (head : Str) (tokens : List Token) (h : scan .between head = (tokens, .between)) (rows : List Piece) :
    Piece :=
  .after head tokens h (.join ',' [' '] [.symbol ','] scan_comma_space separator_comma rows)

theorem forall_zipIdx {A : Type} (l : List A) (P : A → Prop) : (∀ a ∈ l.zipIdx, P a.1) ↔ ∀ a ∈ l, P a := by
  have h := List.zipIdx_map_fst 0 l
  constructor
  · intro hp a ha
    rw [← h] at ha
    obtain ⟨b, hb, rfl⟩ := List.mem_map.1 ha
    exact hp b hb
  · intro hp a ha
    apply hp
    rw [← h]
    exact List.mem_map_of_mem ha

/-- An insertion of rows reads as the insertion of their values just when each row does. -/
theorem inserted_iff {A : Type} {head : Str} {table : String} {columns : List String}
    (hhead : scan .between head = (insertHead table columns, .between)) {piece : A × Nat → Piece} {text : A × Nat → Str}
    {values : A × Nat → List Token} {ok : A → Prop} (htext : ∀ a, (piece a).text = text a)
    (htokens : ∀ a, (piece a).tokens = valueRow (values a)) (hok : ∀ a, (piece a).ok ↔ ok a.1) (rows : List A) :
    lex (head ++ join ", " (rows.zipIdx.map text)) = some (insertInto table columns (rows.zipIdx.map values)) ↔
      ∀ a ∈ rows, ok a := by
  have hp := (insertion _ _ hhead (rows.zipIdx.map piece)).lex_iff
  have hrows : rows.zipIdx.map text = (rows.zipIdx.map piece).map Piece.text := by
    simp only [List.map_map, Function.comp_def, htext]
  have hvalues : (rows.zipIdx.map values).map valueRow = (rows.zipIdx.map piece).map Piece.tokens := by
    simp only [List.map_map, Function.comp_def, htokens]
  rw [hrows, insertInto, hvalues, ← forall_zipIdx rows]
  refine hp.trans ?_
  simp only [insertion, Piece.after_ok, Piece.join_ok, true_and, List.forall_mem_map, hok]

def newsColumns : List String :=
  ["google_news_id", "title", "url", "summary", "date", "created_at", "updated_at", "source"]

/-- What `save_to_db` says of the articles. -/
def newsStatement (site : Site) (articles : List NewsHash) : List Token :=
  insertInto "newsarticles" newsColumns (articles.zipIdx.map fun a => newsValues site a.2 a.1)

theorem news_head : scan .between ("INSERT INTO newsarticles \n".toList ++
    "      (google_news_id, title, url, summary, date, created_at, updated_at, source)\n      VALUES ".toList) =
    (insertHead "newsarticles" newsColumns, .between) := by
  rw [String.toList_ofList, String.toList_ofList]
  rfl

/-- The insertion of a batch of articles. -/
theorem news_reads_iff (site : Site) (articles : List NewsHash) :
    lex (GoogleNews.allDataInsert
        ((articles.map NewsHash.doubled).zipIdx.map fun h => GoogleNews.singleRowInsert site h.2 h.1)) =
        some (newsStatement site articles) ↔ ∀ a ∈ articles, '\'' ∉ interpolate a.google_news_id := by
  rw [List.zipIdx_map, List.map_map]
  exact inserted_iff news_head (fun a => newsPiece_text site a.2 a.1) (fun a => newsPiece_tokens site a.2 a.1)
    (fun a => newsPiece_ok site a.2 a.1) articles

def stockColumns : List String := ["stock", "ticker_symbol", "active", "updated_at", "created_at"]

/-- What `save_to_db` says of the stocks. -/
def stockStatement (site : Site) (stocks : List StockHash) : List Token :=
  insertInto "stocks" stockColumns (stocks.zipIdx.map fun s => stockValues site s.2 s.1)

theorem stock_head : scan .between
    "INSERT INTO stocks \n      (stock,ticker_symbol,active,updated_at,created_at)\n      VALUES ".toList =
    (insertHead "stocks" stockColumns, .between) := by
  rw [String.toList_ofList]
  rfl

/-- The insertion of a batch of stocks. -/
theorem stock_reads_iff (site : Site) (stocks : List StockHash) :
    lex (QuandlAllstocks.allDataInsert
        ((stocks.map StockHash.doubled).zipIdx.map fun h => QuandlAllstocks.singleRowInsert site h.2 h.1)) =
        some (stockStatement site stocks) ↔ ∀ s ∈ stocks, '\'' ∉ s.ticker_symbol := by
  rw [List.zipIdx_map, List.map_map]
  exact inserted_iff stock_head (fun s => stockPiece_text site s.2 s.1) (fun s => stockPiece_tokens site s.2 s.1)
    (fun s => stockPiece_ok site s.2 s.1) stocks

/-! ## Updates -/

/-- The strings of the case lines. -/
theorem line_strings : "WHEN '".toList = ['W', 'H', 'E', 'N', ' ', '\''] ∧
    "' THEN ".toList = ['\'', ' ', 'T', 'H', 'E', 'N', ' '] ∧
    "' THEN '".toList = ['\'', ' ', 'T', 'H', 'E', 'N', ' ', '\''] ∧ "'".toList = ['\''] := ⟨rfl, rfl, rfl, rfl⟩

theorem scan_when : scan .between ['W', 'H', 'E', 'N', ' '] = ([word "when"], .between) := rfl

theorem scan_then : scan .between [' ', 'T', 'H', 'E', 'N', ' '] = ([word "then"], .between) := rfl

/-- A case line. -/
def whenThen (key : Str) (value : Piece) : Piece :=
  .after _ _ scan_when (.between (.verbatim key) _ _ _ scan_then separator_space value)

/-- Case lines, and what follows them on the next lines. -/
def caseLines (lines : List Piece) (rest : Str) (ts : List Token) (h : scan .between ('\n' :: rest) = (ts, .between))
    (next : Piece) : Piece :=
  .between (.join '\n' [] [] (by decide) separator_line lines) '\n' rest ts h separator_line next

/-- The keys of the last line. -/
def keyList (keys : List Str) : Piece :=
  .before (.join ',' [' '] [.symbol ','] scan_comma_space separator_comma (keys.map .verbatim)) ')' [] [.symbol ')']
    Piece.scan_paren separator_paren

theorem whenThen_text (key : Str) (value : Piece) :
    (whenThen key value).text = "WHEN '".toList ++ key ++ "' THEN ".toList ++ value.text := by
  obtain ⟨h0, h1, -, -⟩ := line_strings
  rw [h0, h1]
  simp [whenThen, enclose]

theorem whenThen_ok (key : Str) (value : Piece) : (whenThen key value).ok ↔ '\'' ∉ key ∧ value.ok := by
  simp [whenThen]

theorem keyList_text (keys : List Str) :
    (keyList keys).text = join ", " (keys.map fun k => "'".toList ++ k ++ "'".toList) ++ ")".toList := by
  have h : (fun k : Str => "'".toList ++ k ++ "'".toList) = enclose := by
    funext k
    simp [enclose]
  rw [h]
  simp only [keyList, Piece.before_text, Piece.join_text, List.map_map]
  rfl

theorem keyList_ok (keys : List Str) : (keyList keys).ok ↔ ∀ k ∈ keys, '\'' ∉ k := by
  simp only [keyList, Piece.before_ok, Piece.join_ok, and_true, List.forall_mem_map, Piece.verbatim_ok]

def peLine (h : PeHash) : Piece :=
  whenThen (interpolate h.ticker_symbol) (.numeral (interpolate h.price_to_earnings))

theorem peLine_text (h : PeHash) : (peLine h).text = YahooPE.createCaseLine h := whenThen_text _ _

theorem pe_head : scan .between
    "update stocks \n            SET price_to_earnings = CASE ticker_symbol\n              ".toList =
    ([word "update", word "stocks", word "set", word "price_to_earnings", .symbol '=', word "case",
      word "ticker_symbol"], .between) := by
  rw [String.toList_ofList]
  rfl

theorem pe_tail : scan .between ('\n' :: "            END\n          WHERE ticker_symbol IN (".toList) =
    ([word "end", word "where", word "ticker_symbol", word "in", .symbol '('], .between) := by
  rw [String.toList_ofList]
  rfl

def peUpdate (hashes : List PeHash) : Piece :=
  .after _ _ pe_head
    (caseLines (hashes.map peLine) _ _ pe_tail (keyList (hashes.map fun h => interpolate h.ticker_symbol)))

theorem peUpdate_text (hashes : List PeHash) :
    (peUpdate hashes).text =
      YahooPE.allDataUpdate (hashes.map YahooPE.createCaseLine) (hashes.map YahooPE.createWhereLine) := by
  have hl : hashes.map YahooPE.createCaseLine = (hashes.map peLine).map Piece.text := by
    simp [Function.comp_def, peLine_text]
  have hk : hashes.map YahooPE.createWhereLine =
      (hashes.map fun h => interpolate h.ticker_symbol).map fun k => "'".toList ++ k ++ "'".toList := by
    rw [List.map_map]
    rfl
  have hm : "\n            END\n          WHERE ticker_symbol IN (".toList =
      '\n' :: "            END\n          WHERE ticker_symbol IN (".toList := by
    rw [String.toList_ofList, String.toList_ofList]
  have hn : "\n".toList = ['\n'] := rfl
  simp only [peUpdate, caseLines, Piece.after_text, Piece.between_text, Piece.join_text, keyList_text]
  unfold YahooPE.allDataUpdate
  rw [hl, hk, hm]
  generalize "            END\n          WHERE ticker_symbol IN (".toList = tail
  generalize "update stocks \n            SET price_to_earnings = CASE ticker_symbol\n              ".toList = head
  generalize ")".toList = close
  generalize join ", " _ = keys
  unfold join
  rw [hn]
  simp only [List.append_assoc, List.cons_append]

/-- What `update_db` says of the prices. -/
def peStatement (hashes : List PeHash) : List Token :=
  updateSet "stocks"
    [("price_to_earnings", caseOf "ticker_symbol"
      (hashes.map fun h => (interpolate h.ticker_symbol, numeral (interpolate h.price_to_earnings))))]
    "ticker_symbol" (hashes.map fun h => interpolate h.ticker_symbol)

theorem intercalate_nil (l : List (List Token)) : ([] : List Token).intercalate l = l.flatten := by
  induction l with
  | nil => rfl
  | cons ts l ih =>
    cases l with
    | nil => simp
    | cons ts' l =>
      rw [List.intercalate_cons_cons, ih]
      simp

theorem peUpdate_tokens (hashes : List PeHash) : (peUpdate hashes).tokens = peStatement hashes := by
  have hl : (hashes.map peLine).map Piece.tokens = hashes.map fun h =>
      [word "when", literal (interpolate h.ticker_symbol), word "then"] ++
        numeral (interpolate h.price_to_earnings) := by
    rw [List.map_map]
    rfl
  simp only [peUpdate, caseLines, keyList, Piece.after_tokens, Piece.between_tokens, Piece.before_tokens,
    Piece.join_tokens, hl, intercalate_nil, peStatement, updateSet, caseOf, commas, parens]
  simp [List.flatMap, Function.comp_def]

theorem peUpdate_ok (hashes : List PeHash) : (peUpdate hashes).ok ↔
    ∀ h ∈ hashes, '\'' ∉ interpolate h.ticker_symbol ∧ IsNumeral (interpolate h.price_to_earnings) := by
  simp only [peUpdate, caseLines, Piece.after_ok, Piece.between_ok, Piece.join_ok, true_and, List.forall_mem_map,
    peLine, whenThen_ok, keyList_ok, Piece.numeral_ok]
  constructor
  · rintro ⟨hl, -⟩
    exact hl
  · intro hl
    exact ⟨hl, fun h hh => (hl h hh).1⟩

def industryLine (key : Str) (value : Option Str) : Piece := whenThen key (.verbatim (interpolate value))

theorem industryLine_text (key : Str) (value : Option Str) :
    (industryLine key value).text = "WHEN '".toList ++ key ++ "' THEN '".toList ++ interpolate value ++ "'".toList := by
  obtain ⟨-, h1, h2, h3⟩ := line_strings
  rw [industryLine, whenThen_text, h1, h2, h3]
  simp [enclose]

theorem industry_head : scan .between
    "update stocks \n            SET stock_industry = CASE ticker_symbol\n              ".toList =
    ([word "update", word "stocks", word "set", word "stock_industry", .symbol '=', word "case",
      word "ticker_symbol"], .between) := by
  rw [String.toList_ofList]
  rfl

theorem industry_middle : scan .between
    ('\n' :: "            END,\n             exchange = CASE ticker_symbol\n              ".toList) =
    ([word "end", .symbol ',', word "exchange", .symbol '=', word "case", word "ticker_symbol"], .between) := by
  rw [String.toList_ofList]
  rfl

theorem industry_tail : scan .between ('\n' :: "            END\n\n          WHERE ticker_symbol IN (".toList) =
    ([word "end", word "where", word "ticker_symbol", word "in", .symbol '('], .between) := by
  rw [String.toList_ofList]
  rfl

def industryUpdate (hashes : List IndustryHash) : Piece :=
  .after _ _ industry_head
    (caseLines (hashes.map fun h => industryLine h.ticker_symbol h.stock_industry) _ _ industry_middle
      (caseLines (hashes.map fun h => industryLine h.ticker_symbol h.exchange) _ _ industry_tail
        (keyList (hashes.map fun h => h.ticker_symbol))))

theorem industryUpdate_text (hashes : List IndustryHash) :
    (industryUpdate hashes).text =
      QuandlIndustry.allDataUpdate (hashes.map QuandlIndustry.createCaseLine)
        (hashes.map QuandlIndustry.createWhereLine) (hashes.map QuandlIndustry.createCaseLine2) := by
  have hi : hashes.map QuandlIndustry.createCaseLine =
      (hashes.map fun h => industryLine h.ticker_symbol h.stock_industry).map Piece.text := by
    simp only [List.map_map, Function.comp_def, industryLine_text]
    rfl
  have hx : hashes.map QuandlIndustry.createCaseLine2 =
      (hashes.map fun h => industryLine h.ticker_symbol h.exchange).map Piece.text := by
    simp only [List.map_map, Function.comp_def, industryLine_text]
    rfl
  have hk : hashes.map QuandlIndustry.createWhereLine =
      (hashes.map fun h => h.ticker_symbol).map fun k => "'".toList ++ k ++ "'".toList := by
    rw [List.map_map]
    rfl
  have hm : "\n            END,\n             exchange = CASE ticker_symbol\n              ".toList =
      '\n' :: "            END,\n             exchange = CASE ticker_symbol\n              ".toList := by
    rw [String.toList_ofList, String.toList_ofList]
  have ht : "\n            END\n\n          WHERE ticker_symbol IN (".toList =
      '\n' :: "            END\n\n          WHERE ticker_symbol IN (".toList := by
    rw [String.toList_ofList, String.toList_ofList]
  have hn : "\n".toList = ['\n'] := rfl
  simp only [industryUpdate, caseLines, Piece.after_text, Piece.between_text, Piece.join_text, keyList_text]
  unfold QuandlIndustry.allDataUpdate
  rw [hi, hx, hk, hm, ht]
  generalize "            END,\n             exchange = CASE ticker_symbol\n              ".toList = middle
  generalize "            END\n\n          WHERE ticker_symbol IN (".toList = tail
  generalize "update stocks \n            SET stock_industry = CASE ticker_symbol\n              ".toList = head
  generalize ")".toList = close
  generalize join ", " _ = keys
  unfold join
  rw [hn]
  simp only [List.append_assoc, List.cons_append]

/-- What `update_db` says of the industries and exchanges. -/
def industryStatement (hashes : List IndustryHash) : List Token :=
  updateSet "stocks"
    [("stock_industry", caseOf "ticker_symbol"
        (hashes.map fun h => (h.ticker_symbol, [literal (interpolate h.stock_industry)]))),
      ("exchange", caseOf "ticker_symbol"
        (hashes.map fun h => (h.ticker_symbol, [literal (interpolate h.exchange)])))]
    "ticker_symbol" (hashes.map fun h => h.ticker_symbol)

theorem industryLine_tokens (key : Str) (value : Option Str) :
    (industryLine key value).tokens = [word "when", literal key, word "then", literal (interpolate value)] := rfl

theorem industryUpdate_tokens (hashes : List IndustryHash) :
    (industryUpdate hashes).tokens = industryStatement hashes := by
  simp only [industryUpdate, caseLines, keyList, Piece.after_tokens, Piece.between_tokens, Piece.before_tokens,
    Piece.join_tokens, List.map_map, Function.comp_def, industryLine_tokens, intercalate_nil, industryStatement,
    updateSet, caseOf, commas, parens]
  simp [List.flatMap, Function.comp_def]

theorem industryUpdate_ok (hashes : List IndustryHash) : (industryUpdate hashes).ok ↔
    ∀ h ∈ hashes, '\'' ∉ h.ticker_symbol ∧ '\'' ∉ interpolate h.stock_industry ∧ '\'' ∉ interpolate h.exchange := by
  simp only [industryUpdate, caseLines, Piece.after_ok, Piece.between_ok, Piece.join_ok, true_and,
    List.forall_mem_map, industryLine, whenThen_ok, keyList_ok, Piece.verbatim_ok]
  constructor
  · rintro ⟨hi, hx, -⟩ h hh
    exact ⟨(hi h hh).1, (hi h hh).2, (hx h hh).2⟩
  · intro hl
    exact ⟨fun h hh => ⟨(hl h hh).1, (hl h hh).2.1⟩, fun h hh => ⟨(hl h hh).1, (hl h hh).2.2⟩,
      fun h hh => (hl h hh).1⟩

/-! ## The statement of a batch -/

/-- The statement that says what a batch says. -/
def Feed.meaning (site : Site) : Feed → Option (List Token)
  | .googleNews entries => some (newsStatement site (GoogleNews.articles site entries))
  | .quandlAllstocks rows => (QuandlAllstocks.stocks site rows).map (stockStatement site)
  | .yahooPE rows => (processCsvFile YahooPE.dataHash (fun _ => true) rows).map peStatement
  | .quandlIndustry rows =>
    (processCsvFile QuandlIndustry.dataHash (QuandlIndustry.checkForDup site) rows).map industryStatement

/-- The texts put in as they came have no quote, and the prices are numbers. -/
def Feed.Clean (site : Site) : Feed → Prop
  | .googleNews entries => ∀ a ∈ GoogleNews.articles site entries, '\'' ∉ interpolate a.google_news_id
  | .quandlAllstocks rows => ∀ stocks ∈ QuandlAllstocks.stocks site rows, ∀ s ∈ stocks, '\'' ∉ s.ticker_symbol
  | .yahooPE rows => ∀ hashes ∈ processCsvFile YahooPE.dataHash (fun _ => true) rows, ∀ h ∈ hashes,
    '\'' ∉ interpolate h.ticker_symbol ∧ IsNumeral (interpolate h.price_to_earnings)
  | .quandlIndustry rows => ∀ hashes ∈ processCsvFile QuandlIndustry.dataHash (QuandlIndustry.checkForDup site) rows,
    ∀ h ∈ hashes,
      '\'' ∉ h.ticker_symbol ∧ '\'' ∉ interpolate h.stock_industry ∧ '\'' ∉ interpolate h.exchange

theorem saveToDb_some {H : Type} {single_row_insert : Nat → H → Str} {all_data_insert : List Str → Str}
    {hash_array : List H} {sql : Str} (h : saveToDb single_row_insert all_data_insert hash_array = some sql) :
    sql = all_data_insert (hash_array.zipIdx.map fun h => single_row_insert h.2 h.1) := by
  unfold saveToDb at h
  dsimp only at h
  split at h
  · cases h
  · cases h
    rfl

theorem updateDb_some {H : Type} {create_case_line create_where_line : H → Str}
    {all_data_update : List Str → List Str → Str} {hash_array : List H} {sql : Str}
    (h : updateDb create_case_line create_where_line all_data_update hash_array = some sql) :
    sql = all_data_update (hash_array.map create_case_line) (hash_array.map create_where_line) := by
  unfold updateDb at h
  dsimp only at h
  split at h
  · cases h
  · cases h
    rfl

/-- The statement built from a batch says what the batch says just when no text
put in without doubling its quotes has one and every price is a number. -/
theorem statement_reads_iff (site : Site) (feed : Feed) (sql : Str) (h : feed.statement site = some sql) :
    lex sql = feed.meaning site ↔ feed.Clean site := by
  cases feed with
  | googleNews entries =>
    simp only [Feed.statement, GoogleNews.articles_eq] at h
    rw [saveToDb_some h]
    exact news_reads_iff site (GoogleNews.articles site entries)
  | quandlAllstocks rows =>
    simp only [Feed.statement, QuandlAllstocks.stocks_eq, Option.bind_eq_bind, Option.bind_eq_some_iff,
      Option.map_eq_some_iff] at h
    obtain ⟨_, ⟨stocks, hs, rfl⟩, h⟩ := h
    rw [saveToDb_some h]
    simp only [Feed.meaning, Feed.Clean, hs, Option.map_some, Option.mem_some_iff, forall_eq']
    exact stock_reads_iff site stocks
  | yahooPE rows =>
    simp only [Feed.statement, Option.bind_eq_bind, Option.bind_eq_some_iff] at h
    obtain ⟨hashes, hs, h⟩ := h
    rw [updateDb_some h, ← peUpdate_text]
    simp only [Feed.meaning, Feed.Clean, hs, Option.map_some, Option.mem_some_iff, forall_eq']
    rw [← peUpdate_tokens, ← peUpdate_ok]
    exact (peUpdate hashes).lex_iff
  | quandlIndustry rows =>
    simp only [Feed.statement, Option.bind_eq_bind, Option.bind_eq_some_iff] at h
    obtain ⟨hashes, hs, h⟩ := h
    rw [updateDb_some h, ← industryUpdate_text]
    simp only [Feed.meaning, Feed.Clean, hs, Option.map_some, Option.mem_some_iff, forall_eq']
    rw [← industryUpdate_tokens, ← industryUpdate_ok]
    exact (industryUpdate hashes).lex_iff

/-- A site that knows every stock and no article, with nothing to unescape. -/
def quietSite : Site where
  unescapeHTML s := some s
  dropSuffix _ name := some name
  articleExists _ := false
  stockExists _ := true
  now _ := 0

/-- A row of prices. -/
def priceRows : List Row := [[some "AAPL".toList, some "15.3".toList]]

theorem statement_reads_price :
    lex (YahooPE.allDataUpdate ["WHEN 'AAPL' THEN 15.3".toList] ["'AAPL'".toList]) =
      (Feed.yahooPE priceRows).meaning quietSite := by
  have hk : processCsvFile YahooPE.dataHash (fun _ => true) priceRows =
      some [⟨some "AAPL".toList, some "15.3".toList⟩] := by rfl
  have hc : YahooPE.createCaseLine ⟨some "AAPL".toList, some "15.3".toList⟩ = "WHEN 'AAPL' THEN 15.3".toList := by
    rfl
  have hw : YahooPE.createWhereLine ⟨some "AAPL".toList, some "15.3".toList⟩ = "'AAPL'".toList := by rfl
  have hs : (Feed.yahooPE priceRows).statement quietSite =
      some (YahooPE.allDataUpdate ["WHEN 'AAPL' THEN 15.3".toList] ["'AAPL'".toList]) := by
    simp only [Feed.statement, hk, Option.bind_eq_bind, Option.bind_some, updateDb, List.map_cons, List.map_nil, hc, hw]
    rfl
  refine (statement_reads_iff quietSite _ _ hs).2 ?_
  intro hashes hh h hm
  rw [hk, Option.mem_some_iff] at hh
  subst hh
  rw [List.mem_singleton] at hm
  subst hm
  exact ⟨by decide, .fraction, rfl, rfl⟩

def apparelRows : List Row :=
  [[some "PLCE".toList, none, none, some "Women's Apparel".toList, some "NASDAQ".toList]]

/-- The quote of an industry's name ends its literal. -/
theorem statement_misreads_industry :
    ¬ ∀ (site : Site) (feed : Feed) (sql : Str), feed.statement site = some sql → lex sql = feed.meaning site := by
  intro h
  have hk : processCsvFile QuandlIndustry.dataHash (QuandlIndustry.checkForDup quietSite) apparelRows =
      some [⟨"PLCE".toList, some "Women's Apparel".toList, some "NASDAQ".toList⟩] := by
    rfl
  generalize hi : (⟨"PLCE".toList, some "Women's Apparel".toList, some "NASDAQ".toList⟩ : IndustryHash) = hash at hk
  have hs : (Feed.quandlIndustry apparelRows).statement quietSite = some (industryUpdate [hash]).text := by
    simp only [Feed.statement, hk, Option.bind_eq_bind, Option.bind_some, updateDb, industryUpdate_text]
    rfl
  have hl := h quietSite (.quandlIndustry apparelRows) _ hs
  simp only [Feed.meaning, hk, Option.map_some, ← industryUpdate_tokens, Piece.lex_iff, industryUpdate_ok] at hl
  have hq := (hl hash (by simp)).2.1
  rw [← hi] at hq
  exact hq (by decide)

end MyStockIQ.Scraper
