import MyStockIQ.Statements
import MyStockIQ.Sql.Update
/-!
# The nightly updates of the stocks (`lib/scraper.rb`, `lib/tasks/scheduler.rake`)

At night the ratios and the industries of the stocks are brought up to date, each batch with
one `UPDATE` put together as a text. The text is read, parsed and run here as the database
does it, so a batch sets its columns of the stocks it names to what its first row for each
says. The workers take the jobs in any order, and take one again when it failed: what the
table holds when all are done does not depend on it (`stocks_renewed`).
-/

open Sql

namespace MyStockIQ.Scraper

/-! ## The table -/

/-- A row of `stocks`, with what the updates read and write. `F` is the type of the numbers in its columns. -/
structure ListedStock (F : Type) where
  id : Nat
  ticker_symbol : Str
  active : Bool
  price_to_earnings : Option F
  stock_industry : Option Str
  exchange : Option Str
  deriving DecidableEq

variable {F : Type}

/-- A literal in a column of texts, or a numeric constant in one of numbers. `float` makes the number of its sign
and its digits, if it is in the range of the column. -/
def listedColumns (float : Bool → Str → Option F) : Columns (ListedStock F) where
  read row column := if column = "ticker_symbol".toList then some row.ticker_symbol else none
  write row column value :=
    if column = "price_to_earnings".toList then
      match value with
      | none => some { row with price_to_earnings := none }
      | some (.number negative constant) =>
        (float negative constant).map fun number => { row with price_to_earnings := some number }
      | some (.text _) => none
    else if column = "stock_industry".toList then
      match value with
      | none => some { row with stock_industry := none }
      | some (.text text) => some { row with stock_industry := some text }
      | some (.number _ _) => none
    else if column = "exchange".toList then
      match value with
      | none => some { row with exchange := none }
      | some (.text text) => some { row with exchange := some text }
      | some (.number _ _) => none
    else none

/-- `ActiveRecord::Base.connection.execute`, of an update of the stocks; `none` if it raises. -/
def execute (float : Bool → Str → Option F) (sql : Str) (stocks : List (ListedStock F)) : Option (List (ListedStock F)) := do
  let update ← parse (← lex sql)
  if update.table = "stocks".toList then update.run (listedColumns float) stocks else none

/-- `Stock.where(ticker_symbol: symbol).exists?`, of this table. -/
def knows (stocks : List (ListedStock F)) (site : Site) : Site :=
  { site with stockExists := fun symbol => stocks.any (·.ticker_symbol = symbol) }

/-- A batch of an update. One that raises, or has nothing to run, leaves the table as it was. -/
def runBatch (site : Site) (float : Bool → Str → Option F) (feed : Feed) (stocks : List (ListedStock F)) :
    List (ListedStock F) :=
  ((feed.statement (knows stocks site)).bind fun sql => execute float sql stocks).getD stocks

/-! ## The jobs -/

/-- The rows of the file at an address; `none` if opening it raises. -/
abbrev Internet := Str → Option (List Row)

/-- `url_pe_ratios`; `encode` is `URI.encode`. -/
def urlPeRatios (encode : Str → Str) (stock_array : List Str) : Str :=
  let ticker_string := stock_array.foldl (fun ticker_string ticker => ticker_string ++ ticker ++ "+".toList) []
  encode ("http://finance.yahoo.com/d/quotes.csv?s=".toList ++ ticker_string ++ "&f=|r".toList)

def industryUrl (encode : Str → Str) : Str :=
  encode "http://s3.amazonaws.com/quandl-static-content/Ticker+CSV's/Stock+Exchanges/stockinfo.csv".toList

/-- A job of the queue. -/
inductive NightJob where
  | yahooPE (stock_array : List Str)
  | quandlIndustry
  deriving DecidableEq

def NightJob.url (encode : Str → Str) : NightJob → Str
  | .yahooPE stock_array => urlPeRatios encode stock_array
  | .quandlIndustry => industryUrl encode

def NightJob.feed : NightJob → List Row → Feed
  | .yahooPE _, rows => .yahooPE rows
  | .quandlIndustry, rows => .quandlIndustry rows

/-- `ScraperPublic.yahoo_pe` and `ScraperPublic.quandl_industry`. The second is given the stocks, and does not look at
them. -/
def NightJob.perform (site : Site) (encode : Str → Str) (float : Bool → Str → Option F) (job : NightJob)
    (internet : Internet) (stocks : List (ListedStock F)) : List (ListedStock F) :=
  match internet (job.url encode) with
  | none => stocks
  | some rows => runBatch site float (job.feed rows) stocks

/-- `each_slice(n)`, of at most `fuel` slices. -/
def slices {α : Type} (n : Nat) : Nat → List α → List (List α)
  | 0, _ => []
  | fuel + 1, xs => if xs.isEmpty then [] else xs.take n :: slices n fuel (xs.drop n)

/-- The symbols of `Stock.where(active: true)`. -/
def activeSymbols (stocks : List (ListedStock F)) : List Str := (stocks.filter (·.active)).map (·.ticker_symbol)

/-- The jobs of the tasks `yahoo_pe` and `quandl_industry`. -/
def nightJobs (stocks : List (ListedStock F)) : List NightJob :=
  (slices 199 (activeSymbols stocks).length (activeSymbols stocks)).map .yahooPE ++ [.quandlIndustry]

/-- A job that a worker takes, with what it finds on the internet then. -/
structure Attempt where
  job : NightJob
  internet : Internet

/-- The attempts one after another. -/
def performAll (site : Site) (encode : Str → Str) (float : Bool → Str → Option F) (attempts : List Attempt)
    (stocks : List (ListedStock F)) : List (ListedStock F) :=
  attempts.foldl (fun stocks attempt => attempt.job.perform site encode float attempt.internet stocks) stocks

/-! ## What a batch does -/

theorem processCsvFile_eq {H : Type} {data_hash : Row → Option (Option H)} {rows : List Row}
    (hrows : ∀ row ∈ rows, (data_hash row).isSome) (check_for_dup : H → Bool) :
    processCsvFile data_hash check_for_dup rows =
      some ((rows.filterMap fun row => (data_hash row).join).filter check_for_dup) := by
  have hmap : rows.mapM data_hash = some (rows.map fun row => (data_hash row).join) := by
    induction rows with
    | nil => rfl
    | cons row rows ih =>
      have hrest := ih fun row' hrow' => hrows row' (List.mem_cons_of_mem _ hrow')
      obtain ⟨hash, hhash⟩ := Option.isSome_iff_exists.1 (hrows row List.mem_cons_self)
      simp only [List.mapM_cons, hrest, hhash, List.map_cons]
      rfl
  unfold processCsvFile
  rw [hmap, Option.map_some, List.filterMap_map]
  rfl

/-- What a file of ratios says: the rows that have one. -/
def ratiosIn (rows : List Row) : List PeHash := rows.filterMap fun row => (YahooPE.dataHash row).join

/-- What a file of industries says: the stocks that are still traded. -/
def industriesIn (rows : List Row) : List IndustryHash := rows.filterMap fun row => (QuandlIndustry.dataHash row).join

/-- The number a text of digits, perhaps with a sign, stands for in the column. -/
def ratioNumber (float : Bool → Str → Option F) (text : Str) : Option F :=
  float ((trim text).head? = some '-') (unsigned (trim text))

/-- A stock after a batch that says these ratios. -/
def ListedStock.withRatio (float : Bool → Str → Option F) (hashes : List PeHash) (row : ListedStock F) : ListedStock F :=
  match hashes.find? fun hash => interpolate hash.ticker_symbol = row.ticker_symbol with
  | none => row
  | some hash => { row with price_to_earnings := ratioNumber float (interpolate hash.price_to_earnings) }

/-- A stock after a batch that says these industries. -/
def ListedStock.withIndustry (hashes : List IndustryHash) (row : ListedStock F) : ListedStock F :=
  match hashes.find? fun hash => hash.ticker_symbol = row.ticker_symbol with
  | none => row
  | some hash =>
    { row with stock_industry := some (interpolate hash.stock_industry), exchange := some (interpolate hash.exchange) }

theorem mem_keys_iff {α : Type} (xs : List α) (key : α → Str) (k : Str) :
    k ∈ xs.map key ↔ (xs.find? fun x => key x = k).isSome := by
  rw [List.find?_isSome, List.mem_map]
  simp

theorem parse_peStatement {hashes : List PeHash} (hne : hashes ≠ []) : parse (peStatement hashes) =
    some ⟨"stocks".toList,
      [("price_to_earnings".toList, ⟨"ticker_symbol".toList, hashes.map fun hash =>
        (interpolate hash.ticker_symbol, Scalar.ofText (interpolate hash.price_to_earnings))⟩)],
      "ticker_symbol".toList, hashes.map fun hash => interpolate hash.ticker_symbol⟩ := by
  have hcase (rest : List Token) := parseCase_map (fun hash : PeHash => interpolate hash.ticker_symbol)
    (fun hash _ => says_numeral (interpolate hash.price_to_earnings)) hne "ticker_symbol" rest
  have hparse := @parse_updateSet Unit PeHash [()] hashes "stocks" "ticker_symbol" (fun _ => "price_to_earnings") _ _
    (fun hash => interpolate hash.ticker_symbol) (List.cons_ne_nil _ _) hne fun _ _ rest => hcase rest
  unfold peStatement
  simpa only [List.map_cons, List.map_nil] using hparse

/-! The columns the statements name. -/

theorem read_symbol (float : Bool → Str → Option F) (row : ListedStock F) :
    (listedColumns float).read row "ticker_symbol".toList = some row.ticker_symbol := by
  simp only [listedColumns, if_true]

theorem write_ratio (float : Bool → Str → Option F) (row : ListedStock F) (text : Str) :
    (listedColumns float).write row "price_to_earnings".toList (some (Scalar.ofText text)) =
      (ratioNumber float text).map fun number => { row with price_to_earnings := some number } := by
  simp only [listedColumns, if_true, Scalar.ofText, ratioNumber]

theorem write_industry (float : Bool → Str → Option F) (row : ListedStock F) (text : Str) :
    (listedColumns float).write row "stock_industry".toList (some (.text text)) =
      some { row with stock_industry := some text } := by
  have hratio : "stock_industry".toList ≠ "price_to_earnings".toList := by decide
  simp only [listedColumns, if_true]
  rw [if_neg hratio]

theorem write_exchange (float : Bool → Str → Option F) (row : ListedStock F) (text : Str) :
    (listedColumns float).write row "exchange".toList (some (.text text)) =
      some { row with exchange := some text } := by
  have hratio : "exchange".toList ≠ "price_to_earnings".toList := by decide
  have hindustry : "exchange".toList ≠ "stock_industry".toList := by decide
  simp only [listedColumns, if_true]
  rw [if_neg hratio, if_neg hindustry]

/-- A statement of ratios that are numbers of the column's range. -/
theorem execute_ratios {float : Bool → Str → Option F} {hashes : List PeHash} (hne : hashes ≠ [])
    (hclean : ∀ hash ∈ hashes, '\'' ∉ interpolate hash.ticker_symbol ∧ IsNumeral (interpolate hash.price_to_earnings))
    (hrange : ∀ hash ∈ hashes, (ratioNumber float (interpolate hash.price_to_earnings)).isSome)
    (stocks : List (ListedStock F)) :
    execute float (peUpdate hashes).text stocks = some (stocks.map (ListedStock.withRatio float hashes)) := by
  have hlex : lex (peUpdate hashes).text = some (peStatement hashes) := by
    rw [← peUpdate_tokens]
    exact (peUpdate hashes).lex_iff.2 ((peUpdate_ok hashes).2 hclean)
  unfold execute
  rw [hlex]
  simp only [Option.bind_eq_bind, Option.bind_some]
  rw [parse_peStatement hne, Option.bind_some, if_pos rfl]
  apply Update.run_eq
  intro row _
  refine ⟨row.ticker_symbol, read_symbol float row, ?_⟩
  have hmem := mem_keys_iff hashes (fun hash => interpolate hash.ticker_symbol) row.ticker_symbol
  unfold ListedStock.withRatio
  cases hfind : hashes.find? fun hash => interpolate hash.ticker_symbol = row.ticker_symbol with
  | none =>
    rw [hfind] at hmem
    rw [if_neg fun h => Bool.noConfusion (hmem.1 h)]
  | some hash =>
    rw [hfind] at hmem
    obtain ⟨number, hnumber⟩ := Option.isSome_iff_exists.1 (hrange hash (List.mem_of_find?_eq_some hfind))
    have hwrite : (listedColumns float).write row "price_to_earnings".toList
        (some (Scalar.ofText (interpolate hash.price_to_earnings))) =
        some { row with price_to_earnings := ratioNumber float (interpolate hash.price_to_earnings) } := by
      rw [write_ratio, hnumber]
      rfl
    rw [if_pos (hmem.2 rfl)]
    unfold Update.row
    rw [List.foldlM_cons, assign_map (read_symbol float row) hfind hwrite]
    rfl

theorem parse_industryStatement {hashes : List IndustryHash} (hne : hashes ≠ []) : parse (industryStatement hashes) =
    some ⟨"stocks".toList,
      [("stock_industry".toList, ⟨"ticker_symbol".toList, hashes.map fun hash =>
        (hash.ticker_symbol, .text (interpolate hash.stock_industry))⟩),
      ("exchange".toList, ⟨"ticker_symbol".toList, hashes.map fun hash =>
        (hash.ticker_symbol, .text (interpolate hash.exchange))⟩)],
      "ticker_symbol".toList, hashes.map fun hash => hash.ticker_symbol⟩ := by
  have hcase (text : IndustryHash → Option Str) (rest : List Token) := parseCase_map
    (fun hash : IndustryHash => hash.ticker_symbol) (fun hash _ => says_literal (interpolate (text hash))) hne
    "ticker_symbol" rest
  have hparse := @parse_updateSet (String × (IndustryHash → Option Str)) IndustryHash
    [("stock_industry", fun hash => hash.stock_industry), ("exchange", fun hash => hash.exchange)] hashes "stocks"
    "ticker_symbol" Prod.fst _ _ (fun hash => hash.ticker_symbol) (List.cons_ne_nil _ _) hne
    fun set _ rest => hcase set.2 rest
  unfold industryStatement
  simpa only [List.map_cons, List.map_nil] using hparse

/-- A statement of industries without quotes. -/
theorem execute_industries {float : Bool → Str → Option F} {hashes : List IndustryHash} (hne : hashes ≠ [])
    (hclean : ∀ hash ∈ hashes, '\'' ∉ hash.ticker_symbol ∧ '\'' ∉ interpolate hash.stock_industry ∧
      '\'' ∉ interpolate hash.exchange) (stocks : List (ListedStock F)) :
    execute float (industryUpdate hashes).text stocks = some (stocks.map (ListedStock.withIndustry hashes)) := by
  have hlex : lex (industryUpdate hashes).text = some (industryStatement hashes) := by
    rw [← industryUpdate_tokens]
    exact (industryUpdate hashes).lex_iff.2 ((industryUpdate_ok hashes).2 hclean)
  unfold execute
  rw [hlex]
  simp only [Option.bind_eq_bind, Option.bind_some]
  rw [parse_industryStatement hne, Option.bind_some, if_pos rfl]
  apply Update.run_eq
  intro row _
  refine ⟨row.ticker_symbol, read_symbol float row, ?_⟩
  have hmem := mem_keys_iff hashes (fun hash => hash.ticker_symbol) row.ticker_symbol
  unfold ListedStock.withIndustry
  cases hfind : hashes.find? fun hash => hash.ticker_symbol = row.ticker_symbol with
  | none =>
    rw [hfind] at hmem
    rw [if_neg fun h => Bool.noConfusion (hmem.1 h)]
  | some hash =>
    rw [hfind] at hmem
    have hindustry := write_industry float row (interpolate hash.stock_industry)
    have hexchange := write_exchange float { row with stock_industry := some (interpolate hash.stock_industry) }
      (interpolate hash.exchange)
    rw [if_pos (hmem.2 rfl)]
    unfold Update.row
    rw [List.foldlM_cons, assign_map (read_symbol float row) hfind hindustry, Option.bind_eq_bind, Option.bind_some,
      List.foldlM_cons, assign_map (read_symbol float row) hfind hexchange]
    rfl

/-- A batch of ratios. If none is left, there is nothing to run. -/
theorem runBatch_ratios (site : Site) {float : Bool → Str → Option F} {rows : List Row}
    (hclean : ∀ hash ∈ ratiosIn rows,
      '\'' ∉ interpolate hash.ticker_symbol ∧ IsNumeral (interpolate hash.price_to_earnings))
    (hrange : ∀ hash ∈ ratiosIn rows, (ratioNumber float (interpolate hash.price_to_earnings)).isSome)
    (stocks : List (ListedStock F)) :
    runBatch site float (.yahooPE rows) stocks = stocks.map (ListedStock.withRatio float (ratiosIn rows)) := by
  have hrows : ∀ row ∈ rows, (YahooPE.dataHash row).isSome := by
    intro row _
    unfold YahooPE.dataHash
    split <;> rfl
  have hstatement : (Feed.yahooPE rows).statement (knows stocks site) =
      if ratiosIn rows = [] then none else some (peUpdate (ratiosIn rows)).text := by
    simp only [Feed.statement, processCsvFile_eq hrows, List.filter_true, Option.bind_eq_bind, Option.bind_some, updateDb,
      peUpdate_text, List.isEmpty_map, List.isEmpty_iff, ratiosIn]
  unfold runBatch
  rw [hstatement]
  by_cases hnil : ratiosIn rows = []
  · rw [if_pos hnil, hnil]
    exact (List.map_id' stocks).symm
  · rw [if_neg hnil, Option.bind_some, execute_ratios hnil hclean hrange, Option.getD_some]

/-- Of a table's stocks, those the table does not know make no difference. -/
theorem withIndustry_known {stocks : List (ListedStock F)} (site : Site) (hashes : List IndustryHash)
    {row : ListedStock F} (hrow : row ∈ stocks) :
    row.withIndustry (hashes.filter (QuandlIndustry.checkForDup (knows stocks site))) = row.withIndustry hashes := by
  have hfind : (hashes.filter (QuandlIndustry.checkForDup (knows stocks site))).find?
      (fun hash => hash.ticker_symbol = row.ticker_symbol) =
      hashes.find? fun hash => hash.ticker_symbol = row.ticker_symbol := by
    rw [List.find?_filter]
    congr 1
    funext hash
    by_cases hsymbol : hash.ticker_symbol = row.ticker_symbol
    · have hknown : QuandlIndustry.checkForDup (knows stocks site) hash = true :=
        List.any_eq_true.2 ⟨row, hrow, by simp [hsymbol]⟩
      simp [hsymbol, hknown]
    · simp [hsymbol]
  unfold ListedStock.withIndustry
  rw [hfind]

/-- A file of industries. -/
theorem runBatch_industries (site : Site) (float : Bool → Str → Option F) {rows : List Row} {stocks : List (ListedStock F)}
    (hrows : ∀ row ∈ rows, (QuandlIndustry.dataHash row).isSome)
    (hclean : ∀ hash ∈ industriesIn rows, (∃ row ∈ stocks, row.ticker_symbol = hash.ticker_symbol) →
      '\'' ∉ hash.ticker_symbol ∧ '\'' ∉ interpolate hash.stock_industry ∧ '\'' ∉ interpolate hash.exchange) :
    runBatch site float (.quandlIndustry rows) stocks = stocks.map (ListedStock.withIndustry (industriesIn rows)) := by
  have hknown : stocks.map (ListedStock.withIndustry (industriesIn rows)) = stocks.map (ListedStock.withIndustry
      ((industriesIn rows).filter (QuandlIndustry.checkForDup (knows stocks site)))) :=
    List.map_congr_left fun row hrow => (withIndustry_known site (industriesIn rows) hrow).symm
  rw [hknown]
  generalize hkept : (industriesIn rows).filter (QuandlIndustry.checkForDup (knows stocks site)) = hashes
  have hstatement : (Feed.quandlIndustry rows).statement (knows stocks site) =
      if hashes = [] then none else some (industryUpdate hashes).text := by
    have hkept' := hkept
    unfold industriesIn at hkept'
    simp only [Feed.statement, processCsvFile_eq hrows, hkept', Option.bind_eq_bind, Option.bind_some, updateDb,
      industryUpdate_text, List.isEmpty_map, List.isEmpty_iff]
  unfold runBatch
  rw [hstatement]
  by_cases hnil : hashes = []
  · rw [if_pos hnil, hnil]
    exact (List.map_id' stocks).symm
  · have hhashes : ∀ hash ∈ hashes, '\'' ∉ hash.ticker_symbol ∧ '\'' ∉ interpolate hash.stock_industry ∧
        '\'' ∉ interpolate hash.exchange := by
      intro hash hhash
      rw [← hkept] at hhash
      obtain ⟨hin, hexists⟩ := List.mem_filter.1 hhash
      obtain ⟨row, hrow, hsymbol⟩ := List.any_eq_true.1 hexists
      exact hclean hash hin ⟨row, hrow, by simpa using hsymbol⟩
    rw [if_neg hnil, Option.bind_some, execute_industries hnil hhashes, Option.getD_some]

/-! ## A night -/

/-- What the sites say over a night, in texts that can go into the statements. -/
structure Sources (float : Bool → Str → Option F) (stocks : List (ListedStock F)) where
  /-- What is said of the ratio of a symbol. -/
  ratio : Str → Str
  ratio_reads : ∀ symbol ∈ activeSymbols stocks, ratio symbol ≠ "N/A".toList →
    '\'' ∉ symbol ∧ IsNumeral (ratio symbol) ∧ (ratioNumber float (ratio symbol)).isSome
  /-- The file of the industries. -/
  file : List Row
  file_parses : ∀ row ∈ file, (QuandlIndustry.dataHash row).isSome
  file_reads : ∀ hash ∈ industriesIn file, (∃ row ∈ stocks, row.ticker_symbol = hash.ticker_symbol) →
    '\'' ∉ hash.ticker_symbol ∧ '\'' ∉ interpolate hash.stock_industry ∧ '\'' ∉ interpolate hash.exchange

section
variable {float : Bool → Str → Option F} {stocks : List (ListedStock F)}

/-- A file that a job may find: of ratios, rows of all the symbols it asks for and of no other. -/
def Sources.Gives (sources : Sources float stocks) : NightJob → List Row → Prop
  | .yahooPE stock_array, rows =>
    (∀ row ∈ rows, ∃ symbol ∈ stock_array, row = [some symbol, some (sources.ratio symbol)]) ∧
      ∀ symbol ∈ stock_array, [some symbol, some (sources.ratio symbol)] ∈ rows
  | .quandlIndustry, rows => rows = sources.file

/-- The symbols a job asks for. -/
def NightJob.asks : NightJob → List Str
  | .yahooPE stock_array => stock_array
  | .quandlIndustry => []

/-- A stock with its ratio, if it has one and was asked for. -/
def Sources.rated (sources : Sources float stocks) (asked : List Str) (row : ListedStock F) : ListedStock F :=
  if asked.contains row.ticker_symbol ∧ sources.ratio row.ticker_symbol ≠ "N/A".toList then
    { row with price_to_earnings := ratioNumber float (sources.ratio row.ticker_symbol) }
  else row

/-- A stock when these jobs are done. -/
def Sources.after (sources : Sources float stocks) (jobs : List NightJob) (row : ListedStock F) : ListedStock F :=
  let row := sources.rated (jobs.flatMap NightJob.asks) row
  if .quandlIndustry ∈ jobs then row.withIndustry (industriesIn sources.file) else row

/-- A stock when the night is over. -/
def Sources.renewed (sources : Sources float stocks) (row : ListedStock F) : ListedStock F :=
  (sources.rated (activeSymbols stocks) row).withIndustry (industriesIn sources.file)

theorem dataHash_answer (symbol ratio : Str) : (YahooPE.dataHash [some symbol, some ratio]).join =
    if ratio = "N/A".toList then none else some ⟨some symbol, some ratio⟩ := by
  have hcell : Row.cell [some symbol, some ratio] 1 = some ratio := rfl
  unfold YahooPE.dataHash
  rw [hcell]
  by_cases hratio : ratio = "N/A".toList
  · rw [if_pos (congrArg some hratio), if_pos hratio]
    rfl
  · rw [if_neg fun h => hratio (Option.some.inj h), if_neg hratio]
    rfl

/-- What an answer says. -/
theorem mem_ratiosIn {sources : Sources float stocks} {stock_array : List Str} {rows : List Row}
    (hgives : sources.Gives (.yahooPE stock_array) rows) (hash : PeHash) : hash ∈ ratiosIn rows ↔
      ∃ symbol ∈ stock_array, sources.ratio symbol ≠ "N/A".toList ∧ hash = ⟨some symbol, some (sources.ratio symbol)⟩ := by
  unfold ratiosIn
  rw [List.mem_filterMap]
  constructor
  · rintro ⟨row, hrow, hhash⟩
    obtain ⟨symbol, hsymbol, rfl⟩ := hgives.1 row hrow
    rw [dataHash_answer] at hhash
    by_cases hratio : sources.ratio symbol = "N/A".toList
    · rw [if_pos hratio] at hhash
      cases hhash
    · rw [if_neg hratio] at hhash
      exact ⟨symbol, hsymbol, hratio, (Option.some.inj hhash).symm⟩
  · rintro ⟨symbol, hsymbol, hratio, rfl⟩
    exact ⟨_, hgives.2 symbol hsymbol, by rw [dataHash_answer, if_neg hratio]⟩

theorem withRatio_answer {sources : Sources float stocks} {stock_array : List Str} {rows : List Row}
    (hgives : sources.Gives (.yahooPE stock_array) rows) (row : ListedStock F) :
    row.withRatio float (ratiosIn rows) = sources.rated stock_array row := by
  unfold ListedStock.withRatio Sources.rated
  simp only [List.contains_iff_mem]
  cases hfind : (ratiosIn rows).find? fun hash => interpolate hash.ticker_symbol = row.ticker_symbol with
  | some hash =>
    obtain ⟨symbol, hsymbol, hratio, rfl⟩ := (mem_ratiosIn hgives hash).1 (List.mem_of_find?_eq_some hfind)
    have hfound := List.find?_some hfind
    have hticker : symbol = row.ticker_symbol := of_decide_eq_true hfound
    subst hticker
    rw [if_pos ⟨hsymbol, hratio⟩]
    rfl
  | none =>
    rw [if_neg]
    rintro ⟨hsymbol, hratio⟩
    have hnone := List.find?_eq_none.1 hfind _ ((mem_ratiosIn hgives _).2 ⟨row.ticker_symbol, hsymbol, hratio, rfl⟩)
    simp [interpolate] at hnone

theorem withIndustry_symbol (hashes : List IndustryHash) (row : ListedStock F) :
    (row.withIndustry hashes).ticker_symbol = row.ticker_symbol := by
  unfold ListedStock.withIndustry
  split <;> rfl

@[simp] theorem rated_symbol (sources : Sources float stocks) (asked : List Str) (row : ListedStock F) :
    (sources.rated asked row).ticker_symbol = row.ticker_symbol := by
  unfold Sources.rated
  split <;> rfl

theorem after_symbol (sources : Sources float stocks) (jobs : List NightJob) (row : ListedStock F) :
    (sources.after jobs row).ticker_symbol = row.ticker_symbol := by
  unfold Sources.after
  dsimp only
  split
  · rw [withIndustry_symbol, rated_symbol]
  · exact rated_symbol sources _ row

/-- The columns of the ratio and of the industry are set independently. -/
theorem rated_withIndustry (sources : Sources float stocks) (asked : List Str) (hashes : List IndustryHash)
    (row : ListedStock F) :
    sources.rated asked (row.withIndustry hashes) = (sources.rated asked row).withIndustry hashes := by
  unfold Sources.rated
  rw [withIndustry_symbol]
  split
  · unfold ListedStock.withIndustry
    cases hfind : hashes.find? fun hash => hash.ticker_symbol = row.ticker_symbol <;> simp only
  · rfl

/-- A ratio set again is the same. -/
theorem rated_append (sources : Sources float stocks) (asked more : List Str) (row : ListedStock F) :
    sources.rated more (sources.rated asked row) = sources.rated (asked ++ more) row := by
  unfold Sources.rated
  simp only [List.contains_iff_mem]
  by_cases hasked : row.ticker_symbol ∈ asked ∧ sources.ratio row.ticker_symbol ≠ "N/A".toList
  · have hboth : row.ticker_symbol ∈ asked ++ more ∧ sources.ratio row.ticker_symbol ≠ "N/A".toList :=
      ⟨List.mem_append_left more hasked.1, hasked.2⟩
    rw [if_pos hasked, if_pos hboth]
    split <;> rfl
  · rw [if_neg hasked]
    by_cases hmore : row.ticker_symbol ∈ more ∧ sources.ratio row.ticker_symbol ≠ "N/A".toList
    · rw [if_pos hmore, if_pos ⟨List.mem_append_right asked hmore.1, hmore.2⟩]
    · rw [if_neg hmore, if_neg]
      rintro ⟨hmem, hratio⟩
      cases List.mem_append.1 hmem with
      | inl hmem => exact hasked ⟨hmem, hratio⟩
      | inr hmem => exact hmore ⟨hmem, hratio⟩

theorem withIndustry_again (hashes : List IndustryHash) (row : ListedStock F) :
    (row.withIndustry hashes).withIndustry hashes = row.withIndustry hashes := by
  have hsymbol := withIndustry_symbol hashes row
  cases hfind : hashes.find? fun hash => hash.ticker_symbol = row.ticker_symbol with
  | none =>
    have hrow : row.withIndustry hashes = row := by
      unfold ListedStock.withIndustry
      rw [hfind]
    rw [hrow, hrow]
  | some hash =>
    unfold ListedStock.withIndustry at hsymbol ⊢
    simp only [hfind]

/-- One more job. -/
theorem after_concat (sources : Sources float stocks) (jobs : List NightJob) (row : ListedStock F) :
    (∀ stock_array, sources.after (jobs ++ [.yahooPE stock_array]) row =
      sources.rated stock_array (sources.after jobs row)) ∧
    sources.after (jobs ++ [.quandlIndustry]) row =
      (sources.after jobs row).withIndustry (industriesIn sources.file) := by
  constructor
  · intro stock_array
    unfold Sources.after
    have hmem : NightJob.quandlIndustry ∈ jobs ++ [.yahooPE stock_array] ↔ .quandlIndustry ∈ jobs := by simp
    simp only [hmem, List.flatMap_append, List.flatMap_cons, List.flatMap_nil, List.append_nil, NightJob.asks,
      ← rated_append]
    split
    · rw [rated_withIndustry]
    · rfl
  · unfold Sources.after
    have hmem : NightJob.quandlIndustry ∈ jobs ++ [NightJob.quandlIndustry] := by simp
    simp only [hmem, if_true, List.flatMap_append, List.flatMap_cons, List.flatMap_nil, List.append_nil, NightJob.asks]
    split
    · rw [withIndustry_again]
    · rfl

/-! ## Any order of the jobs -/

theorem mem_slices {α : Type} {n : Nat} (hn : 0 < n) {fuel : Nat} {xs : List α} (hfuel : xs.length ≤ fuel) (x : α) :
    (∃ slice ∈ slices n fuel xs, x ∈ slice) ↔ x ∈ xs := by
  induction fuel generalizing xs with
  | zero =>
    rw [List.eq_nil_of_length_eq_zero (Nat.le_zero.1 hfuel)]
    simp [slices]
  | succ fuel ih =>
    cases xs with
    | nil => simp [slices]
    | cons y ys =>
      have hrest : ((y :: ys).drop n).length ≤ fuel := by
        rw [List.length_drop, List.length_cons]
        rw [List.length_cons] at hfuel
        omega
      have hsplit := List.take_append_drop n (y :: ys)
      simp only [slices, List.isEmpty_cons, Bool.false_eq_true, if_false, List.mem_cons, exists_eq_or_imp, ih hrest]
      rw [← List.mem_append, hsplit, List.mem_cons]

/-- The jobs of a night ask for the active stocks. -/
theorem mem_asks_nightJobs (stocks : List (ListedStock F)) (symbol : Str) :
    symbol ∈ (nightJobs stocks).flatMap NightJob.asks ↔ symbol ∈ activeSymbols stocks := by
  rw [← mem_slices (by decide : 0 < 199) (Nat.le_refl (activeSymbols stocks).length)]
  simp [nightJobs, NightJob.asks, List.flatMap_map]

/-- The jobs that found their files. -/
def answered (encode : Str → Str) (attempts : List Attempt) : List NightJob :=
  (attempts.filter fun attempt => (attempt.internet (attempt.job.url encode)).isSome).map (·.job)

/-- A job on a table whose symbols are those of the night's first. -/
theorem perform_eq {encode : Str → Str} {sources : Sources float stocks} {attempt : Attempt}
    (hjob : attempt.job ∈ nightJobs stocks)
    (hgives : ∀ rows, attempt.internet (attempt.job.url encode) = some rows → sources.Gives attempt.job rows)
    (site : Site) (jobs : List NightJob) :
    attempt.job.perform site encode float attempt.internet (stocks.map (sources.after jobs)) =
      stocks.map (sources.after (jobs ++ answered encode [attempt])) := by
  unfold NightJob.perform
  cases hrows : attempt.internet (attempt.job.url encode) with
  | none => simp [answered, hrows]
  | some rows =>
    have hanswered : answered encode [attempt] = [attempt.job] := by simp [answered, hrows]
    have hgiven := hgives rows hrows
    rw [hanswered]
    obtain ⟨job, internet⟩ := attempt
    cases job with
    | yahooPE stock_array =>
      have hasked : ∀ symbol ∈ stock_array, symbol ∈ activeSymbols stocks := fun symbol hsymbol =>
        (mem_asks_nightJobs stocks symbol).1 (List.mem_flatMap.2 ⟨_, hjob, hsymbol⟩)
      have hreads : ∀ hash ∈ ratiosIn rows, '\'' ∉ interpolate hash.ticker_symbol ∧
          IsNumeral (interpolate hash.price_to_earnings) ∧
          (ratioNumber float (interpolate hash.price_to_earnings)).isSome := by
        intro hash hhash
        obtain ⟨symbol, hsymbol, hratio, rfl⟩ := (mem_ratiosIn hgiven hash).1 hhash
        exact sources.ratio_reads symbol (hasked symbol hsymbol) hratio
      have hbatch := runBatch_ratios site (fun hash hhash => ⟨(hreads hash hhash).1, (hreads hash hhash).2.1⟩)
        (fun hash hhash => (hreads hash hhash).2.2) (stocks.map (sources.after jobs))
      refine hbatch.trans ?_
      rw [List.map_map]
      apply List.map_congr_left
      intro row _
      rw [Function.comp_apply, withRatio_answer hgiven, (after_concat sources jobs row).1]
    | quandlIndustry =>
      have hfile : rows = sources.file := hgiven
      subst hfile
      have hclean : ∀ hash ∈ industriesIn sources.file,
          (∃ row ∈ stocks.map (sources.after jobs), row.ticker_symbol = hash.ticker_symbol) →
          '\'' ∉ hash.ticker_symbol ∧ '\'' ∉ interpolate hash.stock_industry ∧ '\'' ∉ interpolate hash.exchange := by
        rintro hash hhash ⟨row, hrow, hsymbol⟩
        obtain ⟨first, hfirst, rfl⟩ := List.mem_map.1 hrow
        rw [after_symbol] at hsymbol
        exact sources.file_reads hash hhash ⟨first, hfirst, hsymbol⟩
      refine (runBatch_industries site float sources.file_parses hclean).trans ?_
      rw [List.map_map]
      apply List.map_congr_left
      intro row _
      rw [Function.comp_apply, (after_concat sources jobs row).2]

/-- The table after some attempts. -/
theorem performAll_eq {encode : Str → Str} {sources : Sources float stocks} {attempts : List Attempt}
    (hjobs : ∀ attempt ∈ attempts, attempt.job ∈ nightJobs stocks)
    (hgives : ∀ attempt ∈ attempts, ∀ rows, attempt.internet (attempt.job.url encode) = some rows →
      sources.Gives attempt.job rows) (site : Site) :
    performAll site encode float attempts stocks = stocks.map (sources.after (answered encode attempts)) := by
  induction attempts using List.reverseRecOn with
  | nil => exact (List.map_id' stocks).symm
  | append_singleton attempts attempt ih =>
    have hbefore := ih (fun a ha => hjobs a (List.mem_append_left _ ha)) (fun a ha => hgives a (List.mem_append_left _ ha))
    have hlast : attempt ∈ attempts ++ [attempt] := List.mem_append_right attempts List.mem_cons_self
    have hanswered : answered encode (attempts ++ [attempt]) = answered encode attempts ++ answered encode [attempt] := by
      simp [answered]
    rw [hanswered, ← perform_eq (hjobs attempt hlast) (hgives attempt hlast) site, ← hbefore]
    unfold performAll
    rw [List.foldl_append]
    rfl

/-- A night in which each job is done at least once, in whatever order and however often. -/
theorem stocks_renewed (site : Site) (encode : Str → Str) (float : Bool → Str → Option F) (stocks : List (ListedStock F))
    (sources : Sources float stocks) (attempts : List Attempt)
    (hjobs : ∀ attempt ∈ attempts, attempt.job ∈ nightJobs stocks)
    (hgives : ∀ attempt ∈ attempts, ∀ rows, attempt.internet (attempt.job.url encode) = some rows →
      sources.Gives attempt.job rows)
    (hdone : ∀ job ∈ nightJobs stocks, job ∈ answered encode attempts) :
    performAll site encode float attempts stocks = stocks.map sources.renewed := by
  have hindustry : NightJob.quandlIndustry ∈ answered encode attempts := hdone _ (by simp [nightJobs])
  have hasked (symbol : Str) :
      symbol ∈ (answered encode attempts).flatMap NightJob.asks ↔ symbol ∈ activeSymbols stocks := by
    rw [← mem_asks_nightJobs]
    constructor
    · intro hsymbol
      obtain ⟨job, hjob, hsymbol⟩ := List.mem_flatMap.1 hsymbol
      obtain ⟨attempt, hattempt, rfl⟩ := List.mem_map.1 hjob
      exact List.mem_flatMap.2 ⟨_, hjobs attempt (List.mem_filter.1 hattempt).1, hsymbol⟩
    · intro hsymbol
      obtain ⟨job, hjob, hsymbol⟩ := List.mem_flatMap.1 hsymbol
      exact List.mem_flatMap.2 ⟨job, hdone job hjob, hsymbol⟩
  rw [performAll_eq hjobs hgives]
  apply List.map_congr_left
  intro row _
  unfold Sources.after Sources.renewed Sources.rated
  simp only [List.contains_iff_mem, hasked, hindustry, if_true]

end

/-! A night of two stocks, one of which is no longer active. -/

def twoStocks : List (ListedStock Rat) :=
  [⟨1, "AAPL".toList, true, none, none, none⟩, ⟨2, "PLCE".toList, false, some 12, none, some "NYSE".toList⟩]

/-- The number of the one constant of the night. -/
def fifteen (negative : Bool) (constant : Str) : Option Rat :=
  if negative = false ∧ constant = "15.3".toList then some (153 / 10) else none

def escapeBar (url : Str) : Str := url.flatMap fun c => if c = '|' then "%7C".toList else [c]

def twoIndustries : List Row :=
  [[some "PLCE".toList, none, none, some "Apparel".toList, some "NASDAQ".toList],
    [some "AAPL".toList, none, none, none, some "Stock no longer trades".toList]]

def twoSources : Sources fifteen twoStocks where
  ratio _ := "15.3".toList
  ratio_reads := by
    intro symbol hsymbol _
    rw [List.mem_singleton.1 hsymbol]
    exact ⟨by decide, ⟨.fraction, rfl, rfl⟩, by decide⟩
  file := twoIndustries
  file_parses := by decide
  file_reads := by
    intro hash hhash _
    have hfile : industriesIn twoIndustries = [⟨"PLCE".toList, some "Apparel".toList, some "NASDAQ".toList⟩] := rfl
    rw [hfile, List.mem_singleton] at hhash
    subst hhash
    decide

/-- The first attempt of the ratios fails, and the industries are done twice. -/
def fourAttempts : List Attempt :=
  [⟨.yahooPE ["AAPL".toList], fun _ => none⟩, ⟨.quandlIndustry, fun _ => some twoIndustries⟩,
    ⟨.yahooPE ["AAPL".toList], fun _ => some [[some "AAPL".toList, some "15.3".toList]]⟩,
    ⟨.quandlIndustry, fun _ => some twoIndustries⟩]

theorem stocks_renewed_two : performAll quietSite escapeBar fifteen fourAttempts twoStocks =
    [⟨1, "AAPL".toList, true, some (153 / 10), none, none⟩,
      ⟨2, "PLCE".toList, false, some 12, some "Apparel".toList, some "NASDAQ".toList⟩] := by
  have hjobs : nightJobs twoStocks = [.yahooPE ["AAPL".toList], .quandlIndustry] := rfl
  have hanswered : answered escapeBar fourAttempts = [.quandlIndustry, .yahooPE ["AAPL".toList], .quandlIndustry] := rfl
  refine (stocks_renewed quietSite escapeBar fifteen twoStocks twoSources fourAttempts ?_ ?_ ?_).trans ?_
  · rw [hjobs]
    decide
  · intro attempt hattempt rows hrows
    simp only [fourAttempts, List.mem_cons, List.not_mem_nil, or_false] at hattempt
    obtain rfl | rfl | rfl | rfl := hattempt
    · cases hrows
    · exact (Option.some.inj hrows).symm
    · cases hrows
      exact ⟨fun row hrow => ⟨_, List.mem_cons_self, List.mem_singleton.1 hrow⟩,
        fun symbol hsymbol => by rw [List.mem_singleton.1 hsymbol]; exact List.mem_cons_self⟩
    · exact (Option.some.inj hrows).symm
  · rw [hjobs, hanswered]
    decide
  · rfl

end MyStockIQ.Scraper
