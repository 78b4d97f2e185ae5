import MyStockIQ.Calendar.Gregorian
/-!
# The market clock (`lib/customdate.rb`)

A Ruby `Time` is an instant. A graph time is an integer of milliseconds since
the epoch, the x coordinate of the charts. The application runs in UTC, and the
market keeps New York time, five hours behind, or four under daylight saving
time. The code reads the market's hours off a clock that is always five hours
ahead of New York: under daylight saving time it adds an hour to UTC. On that
clock the market opens at 14:30 and closes at 21:00, or 18:00 on a half day.
-/

open Gregorian

namespace MyStockIQ

/-- An instant: nanoseconds since the epoch, the resolution of Ruby's clock. -/
abbrev Time := Int

/-- `Time#to_i`, the whole seconds since the epoch. -/
def toI (t : Time) : Int := t / 1000000000

/-- `Time#graph_time`. -/
def graphTime (t : Time) : Int := toI t * 1000

/-- `Integer#utc_time`. -/
def utcTime (graph_time : Int) : Time := graph_time / 1000 * 1000000000

/-- The days since the epoch, in UTC. -/
def dayOf (t : Time) : Int := toI t / 86400

/-- `Time#wday`, 0 being Sunday. -/
def wday (t : Time) : Int := weekday (dayOf t)

/-- `strftime("%Y-%m-%d")`. -/
def utcTimeStr (t : Time) : Date := Date.ofDays (dayOf t)

/-- `strftime("%H:%M:%S")`, as the seconds since midnight: the strings have
fixed width, so they compare as these do. -/
def utcTimeHour (t : Time) : Int := toI t % 86400

def clock (hour minute second : Int) : Int := hour * 3600 + minute * 60 + second

/-- `beginning_of_day`, in UTC. -/
def beginningOfDay (t : Time) : Time := dayOf t * 86400 * 1000000000

/-- `strftime("%Y-%m-%d %H:%M:00").graph_time`. -/
def wholeMinute (t : Time) : Int := toI t / 60 * 60 * 1000

/-! ## New York time -/

/-- Daylight saving time in New York at a second since the epoch: from the
second Sunday of March, 07:00 UTC, to the first Sunday of November, 06:00 UTC. -/
def daylightSaving (unix : Int) : Bool :=
  let year := (Date.ofDays (unix / 86400)).year
  (firstSunday year 3 + 7) * 86400 + clock 7 0 0 ≤ unix && unix < firstSunday year 11 * 86400 + clock 6 0 0

/-- `utc_offset` of the America/New_York zone, in seconds. -/
def utcOffset (t : Time) : Int := if daylightSaving (toI t) then -14400 else -18000

/-- `Time#offset_num`: an hour in milliseconds under daylight saving time,
otherwise 0. -/
def offsetNum (t : Time) : Int := (utcOffset t + 18000) * 1000

/-! ## The trading calendar -/

def holidayArray : List Date :=
  [ ⟨2010, 1, 1⟩, ⟨2010, 1, 18⟩, ⟨2010, 2, 15⟩, ⟨2010, 4, 2⟩, ⟨2010, 5, 31⟩, ⟨2010, 7, 5⟩, ⟨2010, 9, 6⟩,
    ⟨2010, 11, 25⟩, ⟨2010, 12, 24⟩,
    ⟨2011, 1, 17⟩, ⟨2011, 2, 21⟩, ⟨2011, 4, 22⟩, ⟨2011, 5, 30⟩, ⟨2011, 7, 4⟩, ⟨2011, 9, 5⟩, ⟨2011, 11, 24⟩,
    ⟨2011, 12, 26⟩,
    ⟨2012, 1, 2⟩, ⟨2012, 1, 16⟩, ⟨2012, 2, 20⟩, ⟨2012, 4, 6⟩, ⟨2012, 5, 28⟩, ⟨2012, 7, 4⟩, ⟨2012, 9, 3⟩,
    ⟨2012, 11, 22⟩, ⟨2012, 12, 25⟩,
    ⟨2013, 1, 1⟩, ⟨2013, 1, 21⟩, ⟨2013, 2, 18⟩, ⟨2013, 3, 29⟩, ⟨2013, 5, 27⟩, ⟨2013, 7, 4⟩, ⟨2013, 9, 2⟩,
    ⟨2013, 11, 28⟩, ⟨2013, 12, 25⟩,
    ⟨2014, 1, 1⟩, ⟨2014, 1, 20⟩, ⟨2014, 2, 17⟩, ⟨2014, 4, 18⟩, ⟨2014, 5, 26⟩, ⟨2014, 7, 4⟩, ⟨2014, 9, 1⟩,
    ⟨2014, 11, 27⟩, ⟨2014, 12, 25⟩,
    ⟨2015, 1, 1⟩, ⟨2015, 1, 19⟩, ⟨2015, 2, 16⟩, ⟨2015, 4, 3⟩, ⟨2015, 5, 25⟩, ⟨2015, 9, 7⟩, ⟨2015, 11, 26⟩,
    ⟨2015, 12, 25⟩,
    ⟨2016, 1, 1⟩, ⟨2016, 1, 18⟩, ⟨2016, 2, 15⟩, ⟨2016, 3, 25⟩, ⟨2016, 5, 30⟩, ⟨2016, 7, 4⟩, ⟨2016, 9, 5⟩,
    ⟨2016, 11, 24⟩, ⟨2016, 12, 26⟩,
    ⟨2017, 1, 2⟩, ⟨2017, 1, 16⟩, ⟨2017, 2, 20⟩, ⟨2017, 4, 14⟩, ⟨2017, 5, 29⟩, ⟨2017, 7, 4⟩, ⟨2017, 9, 4⟩,
    ⟨2017, 11, 23⟩, ⟨2017, 12, 25⟩,
    ⟨2018, 1, 1⟩, ⟨2018, 1, 15⟩, ⟨2018, 2, 19⟩, ⟨2018, 3, 30⟩, ⟨2018, 5, 28⟩, ⟨2018, 7, 4⟩, ⟨2018, 9, 3⟩,
    ⟨2018, 11, 22⟩, ⟨2018, 12, 25⟩,
    ⟨2019, 1, 1⟩, ⟨2019, 1, 21⟩, ⟨2019, 2, 18⟩, ⟨2019, 4, 19⟩, ⟨2019, 5, 27⟩, ⟨2019, 7, 4⟩, ⟨2019, 9, 2⟩,
    ⟨2019, 11, 28⟩, ⟨2019, 12, 25⟩,
    ⟨2020, 1, 1⟩, ⟨2020, 1, 20⟩, ⟨2020, 2, 17⟩, ⟨2020, 4, 10⟩, ⟨2020, 5, 25⟩, ⟨2020, 7, 3⟩, ⟨2020, 9, 7⟩,
    ⟨2020, 11, 26⟩, ⟨2020, 12, 25⟩ ]

/-- The days the market closes early. -/
def halfDayArray : List Date :=
  [ ⟨2010, 11, 26⟩,
    ⟨2011, 11, 25⟩,
    ⟨2012, 7, 3⟩, ⟨2012, 11, 23⟩, ⟨2012, 12, 24⟩,
    ⟨2013, 7, 3⟩, ⟨2013, 11, 29⟩, ⟨2013, 12, 24⟩,
    ⟨2014, 4, 3⟩, ⟨2014, 11, 28⟩, ⟨2014, 12, 24⟩,
    ⟨2015, 7, 3⟩, ⟨2015, 11, 27⟩, ⟨2015, 12, 24⟩,
    ⟨2016, 11, 25⟩, ⟨2016, 12, 23⟩,
    ⟨2017, 11, 24⟩, ⟨2018, 11, 23⟩,
    ⟨2018, 12, 24⟩,
    ⟨2019, 7, 3⟩, ⟨2019, 11, 29⟩, ⟨2019, 12, 24⟩,
    ⟨2020, 7, 3⟩, ⟨2020, 11, 25⟩, ⟨2020, 12, 24⟩ ]

/-- `Integer#valid_stock_time?`. -/
def validStockTime (graph_time : Int) : Bool :=
  let offset := offsetNum (utcTime graph_time)
  let adjusted_graph_time := graph_time + offset
  let utc_time := utcTime adjusted_graph_time
  let holiday_format := utcTimeStr utc_time
  let hour_format := utcTimeHour utc_time
  if wday utc_time = 6 || wday utc_time = 0 then false
  else if hour_format < clock 14 30 0 || clock 21 0 0 < hour_format then false
  else if holidayArray.contains holiday_format then false
  else if halfDayArray.contains holiday_format && (hour_format < clock 14 30 0 || clock 18 0 0 < hour_format) then
    false
  else true

/-- The `while` loop of `closest_start_time`, from iteration `i` with `n` left:
the first day whose morning is a valid stock time. -/
def searchDays (forward_graph_time : Int) : Nat → Int → Option Time
  | 0, _ => none
  | n + 1, i =>
    let day_start := beginningOfDay (utcTime (forward_graph_time + i * 24 * 3600 * 1000))
    let morning_graph_time := graphTime day_start + 48600000 + offsetNum day_start
    if validStockTime morning_graph_time then some (utcTime morning_graph_time)
    else searchDays forward_graph_time n (i + 1)

/-- The minute `closest_start_time` starts from: one ahead of the graph time,
rounded down. -/
def roundedGraphTime (graph_time : Int) : Int := wholeMinute (utcTime (graph_time + 60 * 1000))

/-- Three hours ahead, or four under daylight saving time. -/
def forwardGraphTime (rounded_graph_time : Int) : Int :=
  rounded_graph_time + 3 * 3600 * 1000 + offsetNum (utcTime rounded_graph_time)

/-- `Integer#closest_start_time`; `none` is Ruby's `nil`. -/
def closestStartTime (graph_time : Int) : Option Time :=
  let rounded_graph_time := roundedGraphTime graph_time
  if validStockTime rounded_graph_time then some (utcTime rounded_graph_time)
  else searchDays (forwardGraphTime rounded_graph_time) 11 0

end MyStockIQ
