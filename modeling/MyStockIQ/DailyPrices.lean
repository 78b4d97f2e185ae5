import MyStockIQ.Imports
/-!
# The daily prices (`lib/scraper.rb`)

A row of `stockprices` is made in two ways. `google_daily` inserts the close of a
day, stamped at 16:00 in New York. `google_intraday` makes a provisional row of
the last bar it has read, or moves the newest row on to that bar if the row is
not more than twelve hours older. After each insertion of closes
`remove_extra_day` looks at the two newest rows, and removes the second if it is
less than twelve hours older than the first.
-/

open Sql

namespace MyStockIQ.Scraper

structure Stockprice (R : Type) where
  id : Nat
  ticker_symbol : Str
  date : Time
  open_price : R
  close_price : R
  volume : Option Int
  split : Int
  daily_percent_change : Option R
  graph_time : Int
  deriving DecidableEq

/-- A row of `stocks`, with the columns `update_stock` reads, writes or validates. -/
structure StockRow (R : Type) where
  id : Nat
  stock : Str
  ticker_symbol : Str
  date : Option Time
  daily_stock_price : Option R

structure Market (R : Type) where
  intradayprices : List (IntradayHash R)
  stockprices : List (Stockprice R)
  stocks : List (StockRow R)
  stockprice_seq : Nat

/-- `reorder("date DESC")`. Rows of the same date come in any order. -/
structure DateDesc (R : Type) where
  reorder : List (Stockprice R) → List (Stockprice R)
  perm : ∀ prices, (reorder prices).Perm prices
  sorted : ∀ prices, (reorder prices).Pairwise fun newer older => older.date ≤ newer.date

variable {R : Type}

def DailyHash.row (self : DailyHash R) (id : Nat) : Stockprice R where
  id := id
  ticker_symbol := self.ticker_symbol
  date := self.date
  open_price := self.open_price
  close_price := self.close_price
  volume := some self.volume
  split := self.split
  daily_percent_change := none
  graph_time := self.graph_time

namespace Market

/-- `Stockprice.where(ticker_symbol: ..)` -/
def daily (market : Market R) (ticker_symbol : Str) : List (Stockprice R) :=
  market.stockprices.filter (·.ticker_symbol = ticker_symbol)

def dailyExists (market : Market R) (ticker_symbol : Str) (date : Time) : Bool :=
  market.stockprices.any fun price => price.ticker_symbol = ticker_symbol ∧ price.date = date

def barExists (market : Market R) (ticker_symbol : Str) (date : Time) : Bool :=
  market.intradayprices.any fun price => price.ticker_symbol = ticker_symbol ∧ price.date = date

def insertDaily (market : Market R) (price_hash_array : List (DailyHash R)) : Market R :=
  { market with
    stockprices := market.stockprices ++ price_hash_array.zipIdx.map fun h => h.1.row (market.stockprice_seq + h.2)
    stockprice_seq := market.stockprice_seq + price_hash_array.length }

def insertIntraday (market : Market R) (daily_hash_array : List (IntradayHash R)) : Market R :=
  { market with intradayprices := market.intradayprices ++ daily_hash_array }

/-- The whole of `stockprices` after one row is created. -/
def createDaily (market : Market R) (row : Stockprice R) : Market R :=
  { market with
    stockprices := market.stockprices ++ [{ row with id := market.stockprice_seq }]
    stockprice_seq := market.stockprice_seq + 1 }

def updateDailyRow (market : Market R) (id : Nat) (set : Stockprice R → Stockprice R) : Market R :=
  { market with stockprices := market.stockprices.map fun row => if row.id = id then set row else row }

def destroyDaily (market : Market R) (id : Nat) : Market R :=
  { market with stockprices := market.stockprices.filter (·.id ≠ id) }

end Market

/-! ## `update_stock` -/

/-- The latest price not before the date of the stock. -/
def latestClose (price_list : List (Time × R)) (date : Option Time) : Option (Time × R) :=
  price_list.foldl (fun latest price =>
    let latest_date := (latest.map (·.1)).or date
    if latest_date.all (· ≤ price.1) then some price else latest) none

/-- `presence` of the name and the ticker symbol, and `uniqueness` of the latter. -/
def StockRow.valid (self : StockRow R) (stocks : List (StockRow R)) : Bool :=
  !self.stock.all posixSpace && !self.ticker_symbol.all posixSpace &&
    !stocks.any fun other => other.id ≠ self.id ∧
      other.ticker_symbol.map Char.toLower = self.ticker_symbol.map Char.toLower

/-- `none` if it raises: there is no such stock. -/
def updateStock (ticker_symbol : Str) (price_list : List (Time × R)) (market : Market R) : Option (Market R) :=
  match market.stocks.find? (·.ticker_symbol = ticker_symbol) with
  | none => none
  | some stock_to_update =>
    match latestClose price_list stock_to_update.date with
    | none => some market
    | some latest_hash =>
      if stock_to_update.valid market.stocks then
        some
          { market with
            stocks := market.stocks.map fun row =>
              if row.id = stock_to_update.id then
                { row with date := some latest_hash.1, daily_stock_price := some latest_hash.2 }
              else row }
      else some market

section
variable (ruby : Ruby R) (now : Nat → Time) (order : DateDesc R) (misread : Str → Market R → Option (Market R))

/-! ## `update_daily` and `remove_extra_day` -/

/-- Twelve hours of graph time. -/
def twelveHours : Int := 12 * 3600 * 1000

/-- `none` if it raises: the ticker symbol has fewer than two rows. -/
def updateDaily (ticker_symbol : Str) (last_intraday_price : IntradayHash R) (market : Market R) : Option (Market R) :=
  match order.reorder (market.daily ticker_symbol) with
  | daily_price :: yesterday :: _ =>
    if daily_price.graph_time + twelveHours < last_intraday_price.graph_time then
      let daily_change := ruby.percentChange last_intraday_price.close_price daily_price.close_price
      some (market.createDaily
        { id := 0
          ticker_symbol := ticker_symbol
          date := last_intraday_price.date
          open_price := last_intraday_price.open_price
          close_price := last_intraday_price.close_price
          volume := none
          split := 1
          daily_percent_change := some daily_change
          graph_time := last_intraday_price.graph_time })
    else if daily_price.graph_time < last_intraday_price.graph_time then
      let daily_change := ruby.percentChange last_intraday_price.close_price yesterday.close_price
      some (market.updateDailyRow daily_price.id fun row =>
        { row with
          date := last_intraday_price.date
          close_price := last_intraday_price.close_price
          graph_time := last_intraday_price.graph_time
          daily_percent_change := some daily_change })
    else some market
  | _ => none

/-- `none` if it raises: the ticker symbol has fewer than two rows. -/
def removeExtraDay (ticker_symbol : Str) (market : Market R) : Option (Market R) :=
  match order.reorder (market.daily ticker_symbol) with
  | newest :: second :: _ =>
    some (if newest.graph_time < second.graph_time + twelveHours then market.destroyDaily second.id else market)
  | _ => none

/-! ## `ScraperPublic` -/

/-- What the database does with the text of an insertion. One that reads as these
rows inserts them, or raises if a column cannot hold its value; `misread` is what
it makes of any other text. -/
def saved (sql : Str) (meant : List Token) (storable : Bool) (inserted market : Market R) : Option (Market R) :=
  if lex sql = some meant then if storable then some inserted else none else misread sql market

/-- `google_daily`, which rescues every exception. -/
def ScraperPublic.googleDaily (ticker_symbol : Str) (rows : List Row) (market : Market R) : Market R :=
  match processCsvFile (GoogleDaily.dataHash ruby ticker_symbol) (GoogleDaily.checkForDup market.dailyExists) rows with
  | none => market
  | some price_hash_array =>
    match saveToDb (GoogleDaily.singleRowInsert ruby now) GoogleDaily.allDataInsert price_hash_array with
    | none => market
    | some sql =>
      match saved misread sql (GoogleDaily.statement ruby now price_hash_array)
          (price_hash_array.all GoogleDaily.storable) (market.insertDaily price_hash_array) market with
      | none => market
      | some market =>
        match updateStock ticker_symbol ((market.daily ticker_symbol).map fun row => (row.date, row.close_price))
            market with
        | none => market
        | some market => (removeExtraDay order ticker_symbol market).getD market

/-- `google_intraday`. An exception ends the job. -/
def ScraperPublic.googleIntraday (ticker_symbol : Str) (rows : List Row) (market : Market R) : Market R :=
  match processTimedCsvFile GoogleIntraday.startTimeRow (GoogleIntraday.dataHash ruby 5 ticker_symbol)
      (GoogleIntraday.checkForDup market.barExists) rows with
  | none => market
  | some daily_hash_array =>
    match saveToDb (GoogleIntraday.singleRowInsert ruby now) GoogleIntraday.allDataInsert daily_hash_array,
        daily_hash_array.getLast? with
    | some sql, some last =>
      match saved misread sql (GoogleIntraday.statement ruby now daily_hash_array)
          (daily_hash_array.all GoogleIntraday.storable) (market.insertIntraday daily_hash_array) market with
      | none => market
      | some market =>
        match updateStock ticker_symbol
            ((market.intradayprices.filter (·.ticker_symbol = ticker_symbol)).map fun row => (row.date, row.close_price))
            market with
        | none => market
        | some market => (updateDaily ruby order ticker_symbol last market).getD market
    | _, _ => market

end

end MyStockIQ.Scraper
