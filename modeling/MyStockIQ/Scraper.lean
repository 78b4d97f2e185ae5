import MyStockIQ.Customdate
import MyStockIQ.Whitespace
/-!
# The statements the scraper builds (`lib/scraper.rb`)

Each feed has its own class, which makes a hash of each row and a piece of SQL
of each hash; `save_to_db` and `update_db` join the pieces and run the result.
Some of the strings have their quotes doubled on the way and some have not.
-/

namespace MyStockIQ.Scraper

abbrev Str := List Char

/-- What string interpolation makes of a value that may be `nil`. -/
def interpolate (value : Option Str) : Str := value.getD []

/-- `gsub("'", "''")`. -/
def gsubQuote (s : Str) : Str := s.flatMap fun c => if c = '\'' then ['\'', '\''] else [c]

/-! ## Times -/

/-- The last decimal digit. -/
def digit (n : Int) : Char := Nat.digitChar (n % 10).toNat

def twoDigits (n : Int) : Str := [digit (n / 10), digit n]

def fourDigits (n : Int) : Str := [digit (n / 1000), digit (n / 100), digit (n / 10), digit n]

/-- `Time#to_s(:db)`, as `2015-07-06 21:00:00`. -/
def toDb (t : Time) : Str :=
  let date := utcTimeStr t
  let second := utcTimeHour t
  fourDigits date.year ++ '-' :: twoDigits date.month ++ '-' :: twoDigits date.day ++
    ' ' :: twoDigits (second / 3600) ++ ':' :: twoDigits (second / 60 % 60) ++ ':' :: twoDigits (second % 60)

/-- `Time#to_s`. -/
def timeToS (t : Time) : Str := toDb t ++ " UTC".toList

/-! ## What the scraper relies on -/

structure Site where
  /-- `CGI.unescapeHTML`; `none` if it raises. -/
  unescapeHTML : Str → Option Str
  /-- `name.gsub(/ \(#{code}\) Stock Prices, Dividends and Splits/, "")`. The
  code goes into the pattern as it is, so it may stand for any pattern. -/
  dropSuffix : Str → Str → Option Str
  /-- `Newsarticle.where(google_news_id: id).exists?`. -/
  articleExists : Option Str → Bool
  /-- `Stock.where(ticker_symbol: symbol).exists?`. -/
  stockExists : Str → Bool
  /-- The clock when the `n`th row is written. -/
  now : Nat → Time

/-! ## Joining rows -/

/-- A row of a CSV file. -/
abbrev Row := List (Option Str)

def Row.cell (row : Row) (i : Nat) : Option Str := row[i]?.join

/-- `Scraper.process_csv_file`. A hash may be `false`, inner `none`, and a row
may raise, outer `none`; nothing rescues it. `check_for_dup` says which hashes
are kept. -/
def processCsvFile {H : Type} (data_hash : Row → Option (Option H)) (check_for_dup : H → Bool) (rows : List Row) :
    Option (List H) :=
  (rows.mapM data_hash).map fun hash_items => (hash_items.filterMap id).filter check_for_dup

/-- `Scraper.process_rss_feed`: an entry that raises is skipped. -/
def processRssFeed {E H : Type} (data_hash : E → Option H) (check_for_dup : H → Bool) (entries : List E) : List H :=
  (entries.filterMap data_hash).filter check_for_dup

/-- `Array#join`. -/
def join (separator : String) (parts : List Str) : Str := separator.toList.intercalate parts

/-- `Scraper#save_to_db`; `none` if there is nothing to run. -/
def saveToDb {H : Type} (single_row_insert : Nat → H → Str) (all_data_insert : List Str → Str) (hash_array : List H) :
    Option Str :=
  let structured_array := hash_array.zipIdx.map fun h => single_row_insert h.2 h.1
  if structured_array.isEmpty then none else some (all_data_insert structured_array)

/-- `Scraper.update_db`. The builder of the second list of case lines, where a
feed has one, is part of `all_data_update`. -/
def updateDb {H : Type} (create_case_line create_where_line : H → Str) (all_data_update : List Str → List Str → Str)
    (hash_array : List H) : Option Str :=
  let case_array := hash_array.map create_case_line
  let where_array := hash_array.map create_where_line
  if case_array.isEmpty then none else some (all_data_update case_array where_array)

/-! ## `GoogleNews` -/

/-- The part of a text after the first `marker`. -/
def cutAfter (marker : Str) : Str → Option Str
  | [] => if marker.isEmpty then some [] else none
  | c :: rest => if marker.isPrefixOf (c :: rest) then some ((c :: rest).drop marker.length) else cutAfter marker rest

/-- The part of a text before the first `marker`. -/
def cutBefore (marker : Str) : Str → Option Str
  | [] => if marker.isEmpty then some [] else none
  | c :: rest => if marker.isPrefixOf (c :: rest) then some [] else (cutBefore marker rest).map (c :: ·)

/-- `text[/#{Regexp.escape(marker1)}(.*?)#{Regexp.escape(marker2)}/m, 1]`. -/
def between (marker1 marker2 : String) (text : Str) : Option Str :=
  (cutAfter marker1.toList text).bind (cutBefore marker2.toList)

/-- An entry of the news feed. -/
structure Entry where
  entry_id : Option Str
  title : Option Str
  url : Option Str
  summary : Option Str
  published : Option Time

structure NewsHash where
  google_news_id : Option Str
  title : Str
  source : Str
  url : Str
  summary : Str
  date : Option Time
  deriving DecidableEq

namespace GoogleNews

/-- `data_hash`; `none` if it raises. -/
def dataHash (site : Site) (row : Entry) : Option NewsHash := do
  let row_summary ← row.summary
  let summary ← between "width:80%;\">" "</div>" row_summary
  let summary ← site.unescapeHTML summary
  let summary := gsubQuote summary
  let source ← between "color:#888888;\">" "</" row_summary
  let source ← site.unescapeHTML source
  let source := gsubQuote source
  let row_url ← row.url
  let url := gsubQuote row_url
  let row_title ← row.title
  let title ← site.unescapeHTML row_title
  let title := gsubQuote title
  some
    { google_news_id := row.entry_id
      title := title
      source := source
      url := url
      summary := summary
      date := row.published }

def checkForDup (site : Site) (hash_item : NewsHash) : Bool := !site.articleExists hash_item.google_news_id

def singleRowInsert (site : Site) (n : Nat) (news_hash : NewsHash) : Str :=
  let time := toDb (site.now n)
  "('".toList ++ interpolate news_hash.google_news_id ++ "','".toList ++ news_hash.title ++ "','".toList ++
    news_hash.url ++ "','".toList ++ news_hash.summary ++ "','".toList ++
    interpolate (news_hash.date.map timeToS) ++ "','".toList ++ time ++ "','".toList ++ time ++ "','".toList ++
    news_hash.source ++ "')".toList

def allDataInsert (news_array : List Str) : Str :=
  "INSERT INTO newsarticles \n".toList ++
    "      (google_news_id, title, url, summary, date, created_at, updated_at, source)\n      VALUES ".toList ++
    join ", " news_array

end GoogleNews

/-! ## `QuandlAllstocks` -/

structure StockHash where
  stock : Str
  ticker_symbol : Str
  active : Bool
  deriving DecidableEq

namespace QuandlAllstocks

/-- `gsub(/EOD\//, "")`. -/
def dropEod : Str → Str
  | 'E' :: 'O' :: 'D' :: '/' :: rest => dropEod rest
  | c :: rest => c :: dropEod rest
  | [] => []

def dataHash (site : Site) (row : Row) : Option (Option StockHash) := do
  let code := dropEod (← row.cell 0)
  let real_name ← site.dropSuffix code (← row.cell 1)
  let real_name := gsubQuote real_name
  some (some { stock := real_name, ticker_symbol := code, active := true })

def checkForDup (site : Site) (hash_item : StockHash) : Bool := !site.stockExists hash_item.ticker_symbol

def singleRowInsert (site : Site) (n : Nat) (stock_hash : StockHash) : Str :=
  let time := toDb (site.now n)
  "('".toList ++ stock_hash.stock ++ "','".toList ++ stock_hash.ticker_symbol ++ "',".toList ++
    (toString stock_hash.active).toList ++ ",'".toList ++ time ++ "','".toList ++ time ++ "')".toList

def allDataInsert (stock_array : List Str) : Str :=
  "INSERT INTO stocks \n      (stock,ticker_symbol,active,updated_at,created_at)\n      VALUES ".toList ++
    join ", " stock_array

end QuandlAllstocks

/-! ## `YahooPE` -/

structure PeHash where
  ticker_symbol : Option Str
  price_to_earnings : Option Str
  deriving DecidableEq

namespace YahooPE

def dataHash (row : Row) : Option (Option PeHash) :=
  if row.cell 1 = some "N/A".toList then some none
  else some (some { ticker_symbol := row.cell 0, price_to_earnings := row.cell 1 })

def allDataUpdate (pe_case_array pe_where_array : List Str) : Str :=
  "update stocks \n            SET price_to_earnings = CASE ticker_symbol\n              ".toList ++
    join "\n" pe_case_array ++ "\n            END\n          WHERE ticker_symbol IN (".toList ++
    join ", " pe_where_array ++ ")".toList

def createCaseLine (data_hash : PeHash) : Str :=
  "WHEN '".toList ++ interpolate data_hash.ticker_symbol ++ "' THEN ".toList ++
    interpolate data_hash.price_to_earnings

def createWhereLine (data_hash : PeHash) : Str :=
  "'".toList ++ interpolate data_hash.ticker_symbol ++ "'".toList

end YahooPE

/-! ## `QuandlIndustry` -/

structure IndustryHash where
  ticker_symbol : Str
  stock_industry : Option Str
  exchange : Option Str
  deriving DecidableEq

namespace QuandlIndustry

/-- `check_for_dup`, the other way round: the stock has to exist. -/
def checkForDup (site : Site) (hash_item : IndustryHash) : Bool := site.stockExists hash_item.ticker_symbol

def dataHash (row : Row) : Option (Option IndustryHash) :=
  if row.cell 4 = some "Stock no longer trades".toList then some none
  else do
    let symbol ← row.cell 0
    let csv_ticker := symbol.map fun c => if c = '.' || c = '/' || c = '-' then '_' else c
    some (some { ticker_symbol := csv_ticker, stock_industry := row.cell 3, exchange := row.cell 4 })

def allDataUpdate (industry_case_array industry_where_array exchange_case_array : List Str) : Str :=
  "update stocks \n            SET stock_industry = CASE ticker_symbol\n              ".toList ++
    join "\n" industry_case_array ++
    "\n            END,\n             exchange = CASE ticker_symbol\n              ".toList ++
    join "\n" exchange_case_array ++ "\n            END\n\n          WHERE ticker_symbol IN (".toList ++
    join ", " industry_where_array ++ ")".toList

def createCaseLine (data_hash : IndustryHash) : Str :=
  "WHEN '".toList ++ data_hash.ticker_symbol ++ "' THEN '".toList ++ interpolate data_hash.stock_industry ++
    "'".toList

def createCaseLine2 (data_hash : IndustryHash) : Str :=
  "WHEN '".toList ++ data_hash.ticker_symbol ++ "' THEN '".toList ++ interpolate data_hash.exchange ++ "'".toList

def createWhereLine (data_hash : IndustryHash) : Str := "'".toList ++ data_hash.ticker_symbol ++ "'".toList

end QuandlIndustry

/-! ## The feeds -/

/-- A batch of rows, as the feed sent them. -/
inductive Feed where
  | googleNews (entries : List Entry)
  | quandlAllstocks (rows : List Row)
  | yahooPE (rows : List Row)
  | quandlIndustry (rows : List Row)

/-- The statement run for a batch, if one is. -/
def Feed.statement (site : Site) : Feed → Option Str
  | .googleNews entries =>
    let news_hash_array := processRssFeed (GoogleNews.dataHash site) (GoogleNews.checkForDup site) entries
    saveToDb (GoogleNews.singleRowInsert site) GoogleNews.allDataInsert news_hash_array
  | .quandlAllstocks rows => do
    let stock_hash_array ← processCsvFile (QuandlAllstocks.dataHash site) (QuandlAllstocks.checkForDup site) rows
    saveToDb (QuandlAllstocks.singleRowInsert site) QuandlAllstocks.allDataInsert stock_hash_array
  | .yahooPE rows => do
    let pe_hash_array ← processCsvFile YahooPE.dataHash (fun _ => true) rows
    updateDb YahooPE.createCaseLine YahooPE.createWhereLine YahooPE.allDataUpdate pe_hash_array
  | .quandlIndustry rows => do
    let industry_hash_array ← processCsvFile QuandlIndustry.dataHash (QuandlIndustry.checkForDup site) rows
    updateDb QuandlIndustry.createCaseLine QuandlIndustry.createWhereLine
      (fun industry_case_array industry_where_array =>
        QuandlIndustry.allDataUpdate industry_case_array industry_where_array
          (industry_hash_array.map QuandlIndustry.createCaseLine2))
      industry_hash_array

end MyStockIQ.Scraper
