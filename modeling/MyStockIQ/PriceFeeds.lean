import MyStockIQ.Statements
/-!
# The price feeds (`lib/scraper.rb`)

`GoogleIntraday` reads bars of a few minutes. A row gives its time as a number of
bars after the last row that gave a time stamp, which begins with an `a`.
`GoogleDaily` reads one row for each day and puts it at the market's close. Both
have a statement that inserts their hashes, in which only the ticker symbol can
have a quote.
-/

open Sql

namespace MyStockIQ.Scraper

/-! ## Reading numbers -/

def digitsToI : Int → Str → Int
  | n, '_' :: c :: rest => if c.isDigit then digitsToI (10 * n + (c.toNat - '0'.toNat)) rest else n
  | n, c :: rest => if c.isDigit then digitsToI (10 * n + (c.toNat - '0'.toNat)) rest else n
  | n, [] => n

/-- A number begins with a digit, not with an underscore. -/
def unsignedToI : Str → Int
  | '_' :: _ => 0
  | text => digitsToI 0 text

/-- `String#to_i`: the number at the start of a text, or 0. -/
def strToI (text : Str) : Int :=
  match text.dropWhile isSpace with
  | '-' :: rest => -unsignedToI rest
  | '+' :: rest => unsignedToI rest
  | rest => unsignedToI rest

/-- `Integer#to_s` -/
def intToS (n : Int) : Str := (toString n).toList

/-- Ruby's floats and dates, as the feeds use them. -/
structure Ruby (R : Type) where
  /-- `to_f.round(2)` -/
  toF : Str → R
  /-- `== 0` -/
  isZero : R → Bool
  /-- `Float#to_s` -/
  toS : R → Str
  toS_quote : ∀ price, '\'' ∉ toS price
  /-- `((price / base) * 100).round(2) - 100` -/
  percentChange : R → R → R
  /-- `DateTime.strptime(text, "%d-%b-%y")`, in days since the epoch; `none` if it raises. -/
  strptime : Str → Option Int

/-! ## What the columns can hold -/

/-- The years of the timestamps the database reads. -/
def readable (date : Time) : Bool := 1 ≤ (utcTimeStr date).year ∧ (utcTimeStr date).year ≤ 294276

/-- An integer column of eight bytes. -/
def fitsBigint (n : Int) : Bool := -9223372036854775808 ≤ n ∧ n ≤ 9223372036854775807

/-! ## `GoogleIntraday` -/

structure IntradayHash (R : Type) where
  ticker_symbol : Str
  date : Time
  open_price : R
  close_price : R
  graph_time : Int
  deriving DecidableEq

namespace GoogleIntraday

variable {R : Type}

/-- `row[0].gsub('a','').to_i` -/
def stamp (cell : Str) : Int := strToI (cell.filter (· ≠ 'a'))

/-- `start_time_row`: the time stamp of a row, inner `none` if it has none; outer `none` if it raises. -/
def startTimeRow (row : Row) : Option (Option Int) :=
  (row.cell 0).map fun cell => if cell.head? = some 'a' then some (stamp cell) else none

def dataHash (ruby : Ruby R) (increment : Int) (ticker_symbol : Str) (row : Row) (time_start : Int) :
    Option (Option (IntradayHash R)) := do
  let cell ← row.cell 0
  let time_start := if stamp cell ≤ 1000000 then time_start + strToI cell * increment * 60 else time_start
  let graph_time := time_start * 1000
  let daily_hash : IntradayHash R :=
    { ticker_symbol := ticker_symbol
      date := utcTime graph_time
      open_price := ruby.toF (interpolate (row.cell 4))
      close_price := ruby.toF (interpolate (row.cell 1))
      graph_time := graph_time }
  if ruby.isZero daily_hash.open_price then some none else some (some daily_hash)

/-- `priceExists` is `Intradayprice.where(ticker_symbol: .., date: ..).exists?`. -/
def checkForDup (priceExists : Str → Time → Bool) (hash_item : IntradayHash R) : Bool :=
  !priceExists hash_item.ticker_symbol hash_item.date

/-- Whether the columns can hold the hash: its date is one the database reads. -/
def storable (hash_item : IntradayHash R) : Bool := readable hash_item.date

def singleRowInsert (ruby : Ruby R) (now : Nat → Time) (n : Nat) (price_hash : IntradayHash R) : Str :=
  let time := toDb (now n)
  "('".toList ++ price_hash.ticker_symbol ++ "','".toList ++ timeToS price_hash.date ++ "','".toList ++
    ruby.toS price_hash.open_price ++ "','".toList ++ ruby.toS price_hash.close_price ++ "','".toList ++ time ++
    "','".toList ++ time ++ "', '".toList ++ intToS price_hash.graph_time ++ "')".toList

def allDataInsert (price_array : List Str) : Str :=
  "INSERT INTO intradayprices \n".toList ++
    "      (ticker_symbol, date, open_price, close_price, created_at, updated_at, graph_time)\n      VALUES ".toList ++
    join ", " price_array

end GoogleIntraday

/-! ## `GoogleDaily` -/

structure DailyHash (R : Type) where
  ticker_symbol : Str
  date : Time
  open_price : R
  close_price : R
  volume : Int
  split : Int
  graph_time : Int
  deriving DecidableEq

namespace GoogleDaily

variable {R : Type}

/-- The graph time of 16:00 in New York on a day, by the offset of its first second. -/
def graphT (day : Int) : Int :=
  let t : Time := day * 86400 * 1000000000
  graphTime t + 16 * 3600 * 1000 - utcOffset t * 1000

def dataHash (ruby : Ruby R) (ticker_symbol : Str) (row : Row) : Option (Option (DailyHash R)) :=
  if row.cell 1 = some "Open".toList then some none
  else do
    let day ← ruby.strptime (interpolate (row.cell 0))
    let graph_t := graphT day
    some (some
      { ticker_symbol := ticker_symbol
        date := utcTime graph_t
        open_price := ruby.toF (interpolate (row.cell 1))
        close_price := ruby.toF (interpolate (row.cell 4))
        volume := strToI (interpolate (row.cell 5))
        split := 1
        graph_time := graph_t })

/-- `priceExists` is `Stockprice.where(ticker_symbol: .., date: ..).exists?`. -/
def checkForDup (priceExists : Str → Time → Bool) (hash_item : DailyHash R) : Bool :=
  !priceExists hash_item.ticker_symbol hash_item.date

/-- Whether the columns can hold the hash. -/
def storable (hash_item : DailyHash R) : Bool := readable hash_item.date && fitsBigint hash_item.volume

def singleRowInsert (ruby : Ruby R) (now : Nat → Time) (n : Nat) (price_hash : DailyHash R) : Str :=
  let time := toDb (now n)
  "('".toList ++ price_hash.ticker_symbol ++ "','".toList ++ timeToS price_hash.date ++ "','".toList ++
    ruby.toS price_hash.open_price ++ "','".toList ++ ruby.toS price_hash.close_price ++ "','".toList ++
    intToS price_hash.volume ++ "','".toList ++ intToS price_hash.split ++ "','".toList ++ time ++
    "','".toList ++ time ++ "', '".toList ++ intToS price_hash.graph_time ++ "')".toList

def allDataInsert (price_array : List Str) : Str :=
  "INSERT INTO stockprices \n".toList ++
    "      (ticker_symbol, date, open_price, close_price, volume, split, created_at, updated_at, graph_time)\n".toList ++
    "      VALUES ".toList ++ join ", " price_array

end GoogleDaily

/-! ## `Scraper.process_csv_file` with `check_time` -/

/-- What the rows give, with the start time they are read from; none are read after one that raises. -/
def timedHashes {H : Type} (start_time_row : Row → Option (Option Int)) (data_hash : Row → Int → Option (Option H)) :
    Int → List Row → List (Option (Option H))
  | _, [] => []
  | time_start, row :: rows =>
    match start_time_row row with
    | none => [none]
    | some read =>
      let time_start := read.getD time_start
      data_hash row time_start :: timedHashes start_time_row data_hash time_start rows

def processTimedCsvFile {H : Type} (start_time_row : Row → Option (Option Int))
    (data_hash : Row → Int → Option (Option H)) (check_for_dup : H → Bool) (rows : List Row) : Option (List H) :=
  ((timedHashes start_time_row data_hash 0 rows).mapM id).map fun hash_items =>
    (hash_items.filterMap id).filter check_for_dup

/-! ## What the insertions say -/

-- The fixed texts are up to a hundred characters long.
set_option maxRecDepth 2000

theorem quote_not_mem_intToS (n : Int) : '\'' ∉ intToS n := by
  have hdigits (k : Nat) : '\'' ∉ k.repr.toList := by
    rw [Nat.toList_repr]
    intro hmem
    have hdigit := Nat.isDigit_of_mem_toDigits (by decide) (by decide) hmem
    revert hdigit
    decide
  cases n with
  | ofNat k => exact hdigits k
  | negSucc k =>
    have hrepr : intToS (Int.negSucc k) = '-' :: (k + 1).repr.toList := by
      simp [intToS, toString, Int.repr]
    rw [hrepr]
    simpa using hdigits (k + 1)

theorem timeToS_quote (t : Time) : '\'' ∉ timeToS t := quote_not_mem_timeToS (some t)

theorem scan_open : scan .between ['('] = ([.symbol '('], .between) := rfl

/-- A row of a price feed, which has a blank before its last column. -/
def priceRow (texts : List Str) (graph_time : Int) : Piece :=
  .after ['('] [.symbol '('] scan_open
    (.between (.join ',' [] [.symbol ','] Piece.scan_comma separator_comma (texts.map .verbatim)) ',' [' ']
      [.symbol ','] scan_comma_space separator_comma
      (.before (.verbatim (intToS graph_time)) ')' [] [.symbol ')'] Piece.scan_paren separator_paren))

theorem priceRow_ok (texts : List Str) (graph_time : Int) :
    (priceRow texts graph_time).ok ↔ ∀ text ∈ texts, '\'' ∉ text := by
  simp [priceRow, quote_not_mem_intToS]

/-- The string before the last column. -/
theorem last_string : "', '".toList = ['\'', ',', ' ', '\''] := rfl

variable {R : Type} (ruby : Ruby R) (now : Nat → Time)

namespace GoogleIntraday

def texts (n : Nat) (h : IntradayHash R) : List Str :=
  [h.ticker_symbol, timeToS h.date, ruby.toS h.open_price, ruby.toS h.close_price, toDb (now n), toDb (now n)]

def piece (n : Nat) (h : IntradayHash R) : Piece := priceRow (texts ruby now n h) h.graph_time

def values (n : Nat) (h : IntradayHash R) : List Token :=
  (texts ruby now n h).map literal ++ [literal (intToS h.graph_time)]

theorem piece_text (n : Nat) (h : IntradayHash R) : (piece ruby now n h).text = singleRowInsert ruby now n h := by
  obtain ⟨h0, h1, h2, -, -⟩ := row_strings
  unfold piece singleRowInsert texts priceRow
  rw [h0, h1, h2, last_string]
  generalize toDb (now n) = time
  simp [enclose]

theorem piece_ok (n : Nat) (h : IntradayHash R) : (piece ruby now n h).ok ↔ '\'' ∉ h.ticker_symbol := by
  simp [piece, priceRow_ok, texts, timeToS_quote, ruby.toS_quote, quote_not_mem_toDb]

def columns : List String :=
  ["ticker_symbol", "date", "open_price", "close_price", "created_at", "updated_at", "graph_time"]

theorem head : scan .between ("INSERT INTO intradayprices \n".toList ++
    "      (ticker_symbol, date, open_price, close_price, created_at, updated_at, graph_time)\n      VALUES ".toList) =
    (insertHead "intradayprices" columns, .between) := by
  rw [String.toList_ofList, String.toList_ofList]
  rfl

/-- What `save_to_db` says of the bars. -/
def statement (bars : List (IntradayHash R)) : List Token :=
  insertInto "intradayprices" columns (bars.zipIdx.map fun b => values ruby now b.2 b.1)

theorem reads_iff (bars : List (IntradayHash R)) :
    lex (allDataInsert (bars.zipIdx.map fun b => singleRowInsert ruby now b.2 b.1)) = some (statement ruby now bars) ↔
      ∀ b ∈ bars, '\'' ∉ b.ticker_symbol :=
  inserted_iff head (fun b => piece_text ruby now b.2 b.1) (fun _ => rfl) (fun b => piece_ok ruby now b.2 b.1) bars

end GoogleIntraday

namespace GoogleDaily

def texts (n : Nat) (h : DailyHash R) : List Str :=
  [h.ticker_symbol, timeToS h.date, ruby.toS h.open_price, ruby.toS h.close_price, intToS h.volume, intToS h.split,
    toDb (now n), toDb (now n)]

def piece (n : Nat) (h : DailyHash R) : Piece := priceRow (texts ruby now n h) h.graph_time

def values (n : Nat) (h : DailyHash R) : List Token :=
  (texts ruby now n h).map literal ++ [literal (intToS h.graph_time)]

theorem piece_text (n : Nat) (h : DailyHash R) : (piece ruby now n h).text = singleRowInsert ruby now n h := by
  obtain ⟨h0, h1, h2, -, -⟩ := row_strings
  unfold piece singleRowInsert texts priceRow
  rw [h0, h1, h2, last_string]
  generalize toDb (now n) = time
  simp [enclose]

theorem piece_ok (n : Nat) (h : DailyHash R) : (piece ruby now n h).ok ↔ '\'' ∉ h.ticker_symbol := by
  simp [piece, priceRow_ok, texts, timeToS_quote, ruby.toS_quote, quote_not_mem_toDb, quote_not_mem_intToS]

def columns : List String :=
  ["ticker_symbol", "date", "open_price", "close_price", "volume", "split", "created_at", "updated_at", "graph_time"]

theorem head : scan .between ("INSERT INTO stockprices \n".toList ++
    "      (ticker_symbol, date, open_price, close_price, volume, split, created_at, updated_at, graph_time)\n".toList ++
    "      VALUES ".toList) = (insertHead "stockprices" columns, .between) := by
  rw [String.toList_ofList, String.toList_ofList, String.toList_ofList]
  rfl

/-- What `save_to_db` says of the days. -/
def statement (days : List (DailyHash R)) : List Token :=
  insertInto "stockprices" columns (days.zipIdx.map fun d => values ruby now d.2 d.1)

theorem reads_iff (days : List (DailyHash R)) :
    lex (allDataInsert (days.zipIdx.map fun d => singleRowInsert ruby now d.2 d.1)) = some (statement ruby now days) ↔
      ∀ d ∈ days, '\'' ∉ d.ticker_symbol :=
  inserted_iff head (fun d => piece_text ruby now d.2 d.1) (fun _ => rfl) (fun d => piece_ok ruby now d.2 d.1) days

end GoogleDaily

end MyStockIQ.Scraper
