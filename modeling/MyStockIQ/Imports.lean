import MyStockIQ.PriceFeeds
/-!
# Imports with duplicate checking (`lib/scraper.rb`)

An import makes hashes of the rows of a feed, keeps those whose key is not in
the table yet, and inserts them with one statement. Each hash is checked against
the table as it was before the import, never against the other hashes. No table
has a unique index on its key, and the statement runs no validation. So the key
stays unique just when the hashes kept have different keys (`imports_right_iff`).
-/

open Sql

namespace MyStockIQ.Scraper

/-- The tables imported into. A row has the columns its insertion writes. -/
structure Tables (R : Type) where
  intradayprices : List (IntradayHash R)
  stockprices : List (DailyHash R)
  newsarticles : List NewsHash
  stocks : List StockHash

/-- The hashes of the rows before the first that raised. -/
def untilRaised {H : Type} : List (Option H) → List H
  | some hash_item :: results => hash_item :: untilRaised results
  | _ => []

/-- An import into tables `T` of hashes `H` whose keys are `K`. -/
structure Importer (T H K : Type) where
  /-- What `data_hash` makes of each row; `none` if it raises, inner `none` if it is false. -/
  results : List (Option (Option H))
  check_for_dup : T → H → Bool
  /-- The statement run, if one is. -/
  sql : T → Option Str
  /-- How a statement that inserts these hashes reads. -/
  meant : List H → List Token
  /-- Whether the values of a hash are ones its columns can hold. -/
  storable : H → Bool
  insert : List H → T → T
  /-- The key of a hash, and the one its row gets. -/
  key : H → K
  storedKey : H → K
  keys : T → List K

namespace Importer

variable {T H K : Type} (importer : Importer T H K)

/-- A row raised. `process_csv_file` rescues nothing. -/
def Raises : Prop := none ∈ importer.results

/-- The hashes accepted before a row raised, if one did. -/
def accepted (tables : T) : List H := ((untilRaised importer.results).filterMap id).filter (importer.check_for_dup tables)

/-- The tables after the import. A statement that reads as the insertion of the
hashes inserts them, or raises if there is one its columns cannot hold; `misread`
is what the database makes of any other statement. -/
def run (misread : Str → T → T) (tables : T) : T :=
  match importer.sql tables with
  | none => tables
  | some sql =>
    if lex sql = some (importer.meant (importer.accepted tables)) then
      if (importer.accepted tables).all importer.storable then importer.insert (importer.accepted tables) tables else tables
    else misread sql tables

/-- Whatever the database makes of other statements, the import leaves the key
unique and that of every accepted hash there. -/
def Right (tables : T) : Prop :=
  ∀ misread, (importer.keys (importer.run misread tables)).Nodup ∧
    ∀ hash_item ∈ importer.accepted tables, importer.key hash_item ∈ importer.keys (importer.run misread tables)

/-- Nothing is accepted, or no row raised, the accepted hashes have different
keys, and each can be stored as it is and is `clean`. -/
def Apart (clean : H → Prop) (tables : T) : Prop :=
  importer.accepted tables = [] ∨
    ¬importer.Raises ∧ ((importer.accepted tables).map importer.key).Nodup ∧
      ∀ hash_item ∈ importer.accepted tables, clean hash_item ∧ importer.storable hash_item ∧
        importer.storedKey hash_item = importer.key hash_item

/-- What the four imports have in common. -/
structure Lawful (clean : H → Prop) : Prop where
  checked : ∀ tables hash_item, importer.check_for_dup tables hash_item → importer.key hash_item ∉ importer.keys tables
  inserted : ∀ tables rows, importer.keys (importer.insert rows tables) = importer.keys tables ++ rows.map importer.storedKey
  /-- A key not stored as it is, is not stored for another hash. -/
  lost : ∀ hash_item other, importer.storedKey other = importer.key hash_item →
    importer.storedKey hash_item = importer.key hash_item
  nothing : ∀ tables, importer.sql tables = none ↔ importer.Raises ∨ importer.accepted tables = []
  reads : ∀ tables sql, importer.sql tables = some sql →
    (lex sql = some (importer.meant (importer.accepted tables)) ↔ ∀ hash_item ∈ importer.accepted tables, clean hash_item)

variable {importer} {clean : H → Prop} {tables : T}

theorem Lawful.absent (h : importer.Lawful clean) {hash_item : H} (hmem : hash_item ∈ importer.accepted tables) :
    importer.key hash_item ∉ importer.keys tables :=
  h.checked tables hash_item (List.mem_filter.1 hmem).2

/-- An import that leaves the tables as they were is right only if it accepted nothing. -/
theorem Lawful.unchanged (h : importer.Lawful clean) (misread : Str → T → T) (hrun : importer.run misread tables = tables)
    (hright : importer.Right tables) : importer.accepted tables = [] := by
  rw [List.eq_nil_iff_forall_not_mem]
  intro hash_item hmem
  have hkey := (hright misread).2 hash_item hmem
  rw [hrun] at hkey
  exact h.absent hmem hkey

/-- After an insertion of the accepted hashes. -/
theorem Lawful.inserted_iff (h : importer.Lawful clean) (hunique : (importer.keys tables).Nodup) :
    ((importer.keys (importer.insert (importer.accepted tables) tables)).Nodup ∧
      ∀ hash_item ∈ importer.accepted tables,
        importer.key hash_item ∈ importer.keys (importer.insert (importer.accepted tables) tables)) ↔
    ((importer.accepted tables).map importer.key).Nodup ∧
      ∀ hash_item ∈ importer.accepted tables, importer.storedKey hash_item = importer.key hash_item := by
  rw [h.inserted]
  constructor
  · rintro ⟨hnodup, hpresent⟩
    have hkept : ∀ hash_item ∈ importer.accepted tables, importer.storedKey hash_item = importer.key hash_item := by
      intro hash_item hmem
      rcases List.mem_append.1 (hpresent hash_item hmem) with hold | hnew
      · exact absurd hold (h.absent hmem)
      · obtain ⟨other, -, hother⟩ := List.mem_map.1 hnew
        exact h.lost hash_item other hother
    rw [List.map_congr_left hkept] at hnodup
    exact ⟨(List.nodup_append.1 hnodup).2.1, hkept⟩
  · rintro ⟨hnodup, hkept⟩
    rw [List.map_congr_left hkept]
    constructor
    · refine List.nodup_append.2 ⟨hunique, hnodup, ?_⟩
      rintro old hold new hnew rfl
      obtain ⟨hash_item, hmem, rfl⟩ := List.mem_map.1 hnew
      exact h.absent hmem hold
    · intro hash_item hmem
      exact List.mem_append_right _ (List.mem_map_of_mem hmem)

theorem Lawful.right_iff (h : importer.Lawful clean) (hunique : (importer.keys tables).Nodup) :
    importer.Right tables ↔ importer.Apart clean tables := by
  cases hsql : importer.sql tables with
  | none =>
    have hrun (misread : Str → T → T) : importer.run misread tables = tables := by simp [run, hsql]
    have hnone := (h.nothing tables).1 hsql
    constructor
    · intro hright
      exact .inl (h.unchanged _ (hrun fun _ t => t) hright)
    · rintro (hnil | ⟨hcompletes, -⟩) misread
      · rw [hrun, hnil]
        exact ⟨hunique, by simp⟩
      · rw [hrun, hnone.resolve_left hcompletes]
        exact ⟨hunique, by simp⟩
  | some sql =>
    have hsome : ¬importer.Raises ∧ importer.accepted tables ≠ [] := by
      constructor <;> intro hnone
      · simp [(h.nothing tables).2 (.inl hnone)] at hsql
      · simp [(h.nothing tables).2 (.inr hnone)] at hsql
    have hreads := h.reads tables sql hsql
    constructor
    · intro hright
      -- The statement has to be read as it was meant, and to be one the columns can hold.
      have hlex : lex sql = some (importer.meant (importer.accepted tables)) := by
        by_contra hlex
        exact hsome.2 (h.unchanged (fun _ t => t) (by simp [run, hsql, hlex]) hright)
      have hstorable : (importer.accepted tables).all importer.storable := by
        by_contra hstorable
        exact hsome.2 (h.unchanged (fun _ t => t) (by simp [run, hsql, hlex, hstorable]) hright)
      have hinserted := hright fun _ t => t
      simp only [run, hsql, hlex, hstorable, if_true] at hinserted
      obtain ⟨hnodup, hkept⟩ := (h.inserted_iff hunique).1 hinserted
      rw [List.all_eq_true] at hstorable
      exact .inr ⟨hsome.1, hnodup, fun hash_item hmem =>
        ⟨hreads.1 hlex hash_item hmem, hstorable hash_item hmem, hkept hash_item hmem⟩⟩
    · rintro (hnil | ⟨-, hnodup, hall⟩)
      · exact absurd hnil hsome.2
      · have hlex := hreads.2 fun hash_item hmem => (hall hash_item hmem).1
        have hstorable : (importer.accepted tables).all importer.storable :=
          List.all_eq_true.2 fun hash_item hmem => (hall hash_item hmem).2.1
        intro misread
        simp only [run, hsql, hlex, hstorable, if_true]
        exact (h.inserted_iff hunique).2 ⟨hnodup, fun hash_item hmem => (hall hash_item hmem).2.2⟩

end Importer

/-! ## Hashes collected and saved -/

section
variable {H : Type} {results : List (Option (Option H))}

theorem mapM_id_none {A : Type} {results : List (Option A)} : results.mapM id = none ↔ none ∈ results := by
  induction results with
  | nil => simp
  | cons result results ih =>
    cases result with
    | none => simp [List.mapM_cons]
    | some a =>
      rw [List.mapM_cons]
      cases h : results.mapM id with
      | none => simpa [h] using ih
      | some l => simpa [h] using ih

theorem mapM_some {A : Type} (l : List A) : (l.map some).mapM id = some l := by
  induction l with
  | nil => rfl
  | cons a l ih => simp [List.mapM_cons, ih]

theorem mapM_id_eq {A : Type} {results : List (Option A)} {l : List A} (h : results.mapM id = some l) :
    results = l.map some := by
  induction results generalizing l with
  | nil =>
    cases h
    rfl
  | cons result results ih =>
    cases result with
    | none => simp [List.mapM_cons] at h
    | some a =>
      simp only [List.mapM_cons, id_eq, Option.bind_eq_bind, Option.bind_some, Option.bind_eq_some_iff] at h
      obtain ⟨l', hl', hl⟩ := h
      cases hl
      rw [ih hl', List.map_cons]

theorem untilRaised_some {A : Type} (l : List A) : untilRaised (l.map some) = l := by
  induction l with
  | nil => rfl
  | cons a l ih => rw [List.map_cons, untilRaised, ih]

theorem mapM_id_some {A : Type} {results : List (Option A)} {l : List A} (h : results.mapM id = some l) :
    untilRaised results = l := by
  rw [mapM_id_eq h, untilRaised_some]

variable {single_row_insert : Nat → H → Str} {all_data_insert : List Str → Str} {check_for_dup : H → Bool}

/-- The statement that saves what a file gives, if one is run. -/
def savedSql (results : List (Option (Option H))) (check_for_dup : H → Bool) (single_row_insert : Nat → H → Str)
    (all_data_insert : List Str → Str) : Option Str :=
  ((results.mapM id).map fun hash_items => (hash_items.filterMap id).filter check_for_dup).bind
    (saveToDb single_row_insert all_data_insert)

theorem saveToDb_none {hash_array : List H} :
    saveToDb single_row_insert all_data_insert hash_array = none ↔ hash_array = [] := by
  simp [saveToDb]

theorem savedSql_none : savedSql results check_for_dup single_row_insert all_data_insert = none ↔
    none ∈ results ∨ ((untilRaised results).filterMap id).filter check_for_dup = [] := by
  unfold savedSql
  cases h : results.mapM id with
  | none => simp [mapM_id_none.1 h]
  | some l =>
    have hraises : none ∉ results := by
      rw [← mapM_id_none, h]
      simp
    rw [mapM_id_some h]
    simp only [hraises, false_or, Option.map_some, Option.bind_some, saveToDb_none]

theorem savedSql_some {sql : Str} (h : savedSql results check_for_dup single_row_insert all_data_insert = some sql) :
    sql = all_data_insert ((((untilRaised results).filterMap id).filter check_for_dup).zipIdx.map fun h =>
      single_row_insert h.2 h.1) := by
  unfold savedSql at h
  cases hl : results.mapM id with
  | none => simp [hl] at h
  | some l =>
    rw [hl] at h
    rw [mapM_id_some hl]
    exact saveToDb_some h

theorem mapM_eq {A B : Type} (f : A → Option B) (l : List A) : l.mapM f = (l.map f).mapM id := by
  induction l with
  | nil => rfl
  | cons a l ih =>
    rw [List.map_cons, List.mapM_cons, List.mapM_cons, ih]
    rfl

end

/-! ## The four imports -/

/-- The site the feeds are checked against: what it is asked of the tables is answered by these. -/
def Tables.site {R : Type} (tables : Tables R) (site : Site) : Site :=
  { site with
    articleExists := fun google_news_id => tables.newsarticles.any (·.google_news_id = google_news_id)
    stockExists := fun ticker_symbol => tables.stocks.any (·.ticker_symbol = ticker_symbol) }

section
variable {R : Type} (ruby : Ruby R) (site : Site)

def googleIntraday (ticker_symbol : Str) (rows : List Row) : Importer (Tables R) (IntradayHash R) (Str × Time) where
  results := timedHashes GoogleIntraday.startTimeRow (GoogleIntraday.dataHash ruby 5 ticker_symbol) 0 rows
  check_for_dup tables := GoogleIntraday.checkForDup fun ticker_symbol date =>
    tables.intradayprices.any fun price => price.ticker_symbol = ticker_symbol ∧ price.date = date
  sql tables := do
    let daily_hash_array ← processTimedCsvFile GoogleIntraday.startTimeRow
      (GoogleIntraday.dataHash ruby 5 ticker_symbol)
      (GoogleIntraday.checkForDup fun ticker_symbol date =>
        tables.intradayprices.any fun price => price.ticker_symbol = ticker_symbol ∧ price.date = date) rows
    saveToDb (GoogleIntraday.singleRowInsert ruby site.now) GoogleIntraday.allDataInsert daily_hash_array
  meant := GoogleIntraday.statement ruby site.now
  storable := GoogleIntraday.storable
  insert rows tables := { tables with intradayprices := tables.intradayprices ++ rows }
  key hash_item := (hash_item.ticker_symbol, hash_item.date)
  storedKey hash_item := (hash_item.ticker_symbol, hash_item.date)
  keys tables := tables.intradayprices.map fun price => (price.ticker_symbol, price.date)

def googleDaily (ticker_symbol : Str) (rows : List Row) : Importer (Tables R) (DailyHash R) (Str × Time) where
  results := rows.map (GoogleDaily.dataHash ruby ticker_symbol)
  check_for_dup tables := GoogleDaily.checkForDup fun ticker_symbol date =>
    tables.stockprices.any fun price => price.ticker_symbol = ticker_symbol ∧ price.date = date
  sql tables := do
    let price_hash_array ← processCsvFile (GoogleDaily.dataHash ruby ticker_symbol)
      (GoogleDaily.checkForDup fun ticker_symbol date =>
        tables.stockprices.any fun price => price.ticker_symbol = ticker_symbol ∧ price.date = date) rows
    saveToDb (GoogleDaily.singleRowInsert ruby site.now) GoogleDaily.allDataInsert price_hash_array
  meant := GoogleDaily.statement ruby site.now
  storable := GoogleDaily.storable
  insert rows tables := { tables with stockprices := tables.stockprices ++ rows }
  key hash_item := (hash_item.ticker_symbol, hash_item.date)
  storedKey hash_item := (hash_item.ticker_symbol, hash_item.date)
  keys tables := tables.stockprices.map fun price => (price.ticker_symbol, price.date)

/-- The row of an article. An id that is `nil` is put in as an empty text. -/
def NewsHash.stored (self : NewsHash) : NewsHash :=
  { self with
    google_news_id := some (interpolate self.google_news_id)
    date := self.date.map fun date => toI date * 1000000000 }

/-- Whether the columns can hold the article: it has a date, and one the database reads. -/
def NewsHash.storable (self : NewsHash) : Bool := self.date.any readable

def googleNews (entries : List Entry) : Importer (Tables R) NewsHash (Option Str) where
  results := entries.map fun row => some (GoogleNews.said site row)
  check_for_dup tables := GoogleNews.checkForDup (tables.site site)
  sql tables := (Feed.googleNews entries).statement (tables.site site)
  meant := newsStatement site
  storable := NewsHash.storable
  insert rows tables := { tables with newsarticles := tables.newsarticles ++ rows.map NewsHash.stored }
  key hash_item := hash_item.google_news_id
  storedKey hash_item := hash_item.stored.google_news_id
  keys tables := tables.newsarticles.map (·.google_news_id)

def quandlAllstocks (rows : List Row) : Importer (Tables R) StockHash Str where
  results := rows.map (QuandlAllstocks.said site)
  check_for_dup tables := QuandlAllstocks.checkForDup (tables.site site)
  sql tables := (Feed.quandlAllstocks rows).statement (tables.site site)
  meant := stockStatement site
  storable _ := true
  insert rows tables := { tables with stocks := tables.stocks ++ rows }
  key hash_item := hash_item.ticker_symbol
  storedKey hash_item := hash_item.ticker_symbol
  keys tables := tables.stocks.map (·.ticker_symbol)

variable {ruby site}

theorem not_any_map {A K : Type} [DecidableEq K] {rows : List A} {key : A → K} {k : K}
    (h : (!rows.any fun row => key row = k) = true) : k ∉ rows.map key := by
  simpa using h

theorem googleIntraday_lawful (ticker_symbol : Str) (rows : List Row) :
    (googleIntraday ruby site ticker_symbol rows).Lawful fun bar => '\'' ∉ bar.ticker_symbol where
  checked tables hash_item h := by
    apply not_any_map
    simpa [googleIntraday, GoogleIntraday.checkForDup] using h
  inserted tables rows := List.map_append
  lost _ _ _ := rfl
  nothing tables := savedSql_none
  reads tables sql h := by
    rw [savedSql_some h]
    exact GoogleIntraday.reads_iff ruby site.now _

theorem googleDaily_lawful (ticker_symbol : Str) (rows : List Row) :
    (googleDaily ruby site ticker_symbol rows).Lawful fun day => '\'' ∉ day.ticker_symbol := by
  have hsql (tables : Tables R) : (googleDaily ruby site ticker_symbol rows).sql tables =
      savedSql (googleDaily ruby site ticker_symbol rows).results
        ((googleDaily ruby site ticker_symbol rows).check_for_dup tables) (GoogleDaily.singleRowInsert ruby site.now)
        GoogleDaily.allDataInsert := by
    simp only [googleDaily, processCsvFile, savedSql, mapM_eq (GoogleDaily.dataHash ruby ticker_symbol)]
    rfl
  refine ⟨?_, fun _ _ => List.map_append, fun _ _ _ => rfl, ?_, ?_⟩
  · intro tables hash_item h
    apply not_any_map
    simpa [googleDaily, GoogleDaily.checkForDup] using h
  · intro tables
    rw [hsql]
    exact savedSql_none
  · intro tables sql h
    rw [hsql] at h
    rw [savedSql_some h]
    exact GoogleDaily.reads_iff ruby site.now _

theorem accepted_googleNews (entries : List Entry) (tables : Tables R) :
    (googleNews site entries).accepted tables = GoogleNews.articles (tables.site site) entries := by
  have hresults : (googleNews (R := R) site entries).results = (entries.map (GoogleNews.said site)).map some := by
    simp [googleNews]
  unfold Importer.accepted GoogleNews.articles processRssFeed
  rw [hresults, untilRaised_some, List.filterMap_map]
  rfl

theorem googleNews_lawful (entries : List Entry) :
    (googleNews (R := R) site entries).Lawful fun article => '\'' ∉ interpolate article.google_news_id := by
  have hsql (tables : Tables R) : (googleNews site entries).sql tables =
      saveToDb (GoogleNews.singleRowInsert site) GoogleNews.allDataInsert
        (((googleNews site entries).accepted tables).map NewsHash.doubled) := by
    rw [accepted_googleNews, ← GoogleNews.articles_eq]
    rfl
  refine ⟨?_, ?_, ?_, ?_, ?_⟩
  · intro tables hash_item h
    exact not_any_map h
  · intro tables rows
    simp [googleNews]
  · intro hash_item other h
    simp only [googleNews, NewsHash.stored] at h ⊢
    rw [← h]
    rfl
  · intro tables
    have hraises : none ∉ (googleNews (R := R) site entries).results := by simp [googleNews]
    simp [hsql, saveToDb_none, Importer.Raises, hraises]
  · intro tables sql h
    rw [hsql] at h
    rw [saveToDb_some h]
    exact news_reads_iff site _

theorem quandlAllstocks_lawful (rows : List Row) :
    (quandlAllstocks (R := R) site rows).Lawful fun stock => '\'' ∉ stock.ticker_symbol := by
  have hsql (tables : Tables R) : (quandlAllstocks site rows).sql tables =
      savedSql (quandlAllstocks (R := R) site rows).results ((quandlAllstocks site rows).check_for_dup tables)
        (fun n stock => QuandlAllstocks.singleRowInsert site n stock.doubled) QuandlAllstocks.allDataInsert := by
    have hsave : (fun l => saveToDb (QuandlAllstocks.singleRowInsert site) QuandlAllstocks.allDataInsert
        (l.map StockHash.doubled)) =
        saveToDb (fun n stock => QuandlAllstocks.singleRowInsert site n stock.doubled) QuandlAllstocks.allDataInsert := by
      funext l
      simp only [saveToDb, List.zipIdx_map, List.map_map]
      rfl
    simp only [quandlAllstocks, Feed.statement, QuandlAllstocks.stocks_eq, savedSql, ← hsave, Option.bind_eq_bind,
      Option.bind_map, Function.comp_def]
    rw [QuandlAllstocks.stocks, processCsvFile, mapM_eq, Option.bind_map]
    rfl
  refine ⟨?_, fun _ _ => List.map_append, fun _ _ _ => rfl, ?_, ?_⟩
  · intro tables hash_item h
    exact not_any_map h
  · intro tables
    rw [hsql]
    exact savedSql_none
  · intro tables sql h
    rw [hsql] at h
    rw [savedSql_some h]
    have hreads := stock_reads_iff site ((quandlAllstocks (R := R) site rows).accepted tables)
    rw [List.zipIdx_map, List.map_map] at hreads
    exact hreads

end

/-! ## Every import -/

/-- An import, with the rows of its feed. -/
inductive Import where
  | googleIntraday (ticker_symbol : Str) (rows : List Row)
  | googleDaily (ticker_symbol : Str) (rows : List Row)
  | googleNews (entries : List Entry)
  | quandlAllstocks (rows : List Row)

namespace Import

variable {R : Type} (ruby : Ruby R) (site : Site) (tables : Tables R)

/-- The key is unique in the table. -/
def Unique : Import → Prop
  | .googleIntraday ticker_symbol rows => ((Scraper.googleIntraday ruby site ticker_symbol rows).keys tables).Nodup
  | .googleDaily ticker_symbol rows => ((Scraper.googleDaily ruby site ticker_symbol rows).keys tables).Nodup
  | .googleNews entries => ((Scraper.googleNews site entries).keys tables).Nodup
  | .quandlAllstocks rows => ((Scraper.quandlAllstocks site rows).keys tables).Nodup

/-- The import leaves the key unique, and the key of every accepted row is there. -/
def Right : Import → Prop
  | .googleIntraday ticker_symbol rows => (Scraper.googleIntraday ruby site ticker_symbol rows).Right tables
  | .googleDaily ticker_symbol rows => (Scraper.googleDaily ruby site ticker_symbol rows).Right tables
  | .googleNews entries => (Scraper.googleNews site entries).Right tables
  | .quandlAllstocks rows => (Scraper.quandlAllstocks site rows).Right tables

/-- The accepted rows have different keys, and can be saved as they are. -/
def Apart : Import → Prop
  | .googleIntraday ticker_symbol rows =>
    (Scraper.googleIntraday ruby site ticker_symbol rows).Apart (fun bar => '\'' ∉ bar.ticker_symbol) tables
  | .googleDaily ticker_symbol rows =>
    (Scraper.googleDaily ruby site ticker_symbol rows).Apart (fun day => '\'' ∉ day.ticker_symbol) tables
  | .googleNews entries =>
    (Scraper.googleNews site entries).Apart (fun article => '\'' ∉ interpolate article.google_news_id) tables
  | .quandlAllstocks rows =>
    (Scraper.quandlAllstocks site rows).Apart (fun stock => '\'' ∉ stock.ticker_symbol) tables

end Import

/-- An import into tables where the key is unique leaves it unique and every
accepted row's key there just when the accepted rows have different keys and can
be saved as they are. -/
theorem imports_right_iff {R : Type} (ruby : Ruby R) (site : Site) (tables : Tables R) (feed : Import)
    (h : feed.Unique ruby site tables) : feed.Right ruby site tables ↔ feed.Apart ruby site tables := by
  cases feed with
  | googleIntraday ticker_symbol rows => exact (googleIntraday_lawful ticker_symbol rows).right_iff h
  | googleDaily ticker_symbol rows => exact (googleDaily_lawful ticker_symbol rows).right_iff h
  | googleNews entries => exact (googleNews_lawful entries).right_iff h
  | quandlAllstocks rows => exact (quandlAllstocks_lawful rows).right_iff h

/-- Prices without cents, and one date. -/
def wholeRuby : Ruby Int where
  toF := strToI
  isZero price := price = 0
  toS price := intToS price ++ ".0".toList
  toS_quote price := by simp [quote_not_mem_intToS]
  percentChange price base := price * 100 / base - 100
  strptime text := if text = "6-Jul-15".toList then some 16622 else none

def noTables : Tables Int := ⟨[], [], [], []⟩

def stockRow (code name : String) : Row := [some code.toList, some name.toList]

theorem imports_right_two :
    (Import.quandlAllstocks [stockRow "EOD/A" "Agilent", stockRow "EOD/AA" "Alcoa"]).Right wholeRuby quietSite noTables := by
  refine (imports_right_iff wholeRuby quietSite noTables _ ?_).2 (.inr ⟨?_, ?_, ?_⟩)
  · exact List.nodup_nil
  · unfold Importer.Raises
    decide
  · decide
  · decide

/-- A stock that its page of the feed has twice is inserted twice. -/
theorem repeated_key_inserted : ¬∀ (ruby : Ruby Int) (site : Site) (tables : Tables Int) (feed : Import),
    feed.Unique ruby site tables → feed.Right ruby site tables := by
  intro h
  let rows := [stockRow "EOD/A" "Agilent", stockRow "EOD/A" "Agilent"]
  have hright := h wholeRuby quietSite noTables (.quandlAllstocks rows) List.nodup_nil
  have hiff : (quandlAllstocks quietSite rows).Right noTables ↔ _ :=
    (quandlAllstocks_lawful rows).right_iff List.nodup_nil
  rcases hiff.1 hright with hnil | ⟨-, hnodup, -⟩
  · exact absurd hnil (by decide)
  · exact absurd hnodup (by decide)

end MyStockIQ.Scraper
