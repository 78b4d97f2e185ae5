import MyStockIQ.BrowserClock
/-!
# The pickers of the prediction form (`pickadate/calendarmaker.js`)

`CalendarMaker` starts the calendar at a date that it reads off a clock for New York, and
`TimeMaker` gives the time picker its limits once a date is selected. The clock is an instant
shifted by hours, which the pickers then read in the browser's own zone. What a picker has
selected or highlighted has no part in its limits, so it is left out, and so is the text that
`timeFormSetter` writes.
-/

open Gregorian

namespace MyStockIQ.Pickers

/-! ## The zone of the browser -/

/-- How a browser tells the time: the minutes its clock is ahead of UTC at an instant, and
the instant that `new Date(year, month, date)` makes. Instants are in milliseconds and dates
are days since the epoch. -/
structure LocalClock where
  offset : Int → Int
  midnight : Int → Int

namespace LocalClock

/-- What the clock shows, as milliseconds of UTC. -/
def localTime (z : LocalClock) (t : Int) : Int := t + z.offset t * 60000

/-- The date of an instant. -/
def day (z : LocalClock) (t : Int) : Int := z.localTime t / 86400000

/-- The zone has this date. A zone that moves over the date line leaves one out. -/
def Has (z : LocalClock) (d : Int) : Prop := z.day (z.midnight d) = d

instance (z : LocalClock) (d : Int) : Decidable (z.Has d) := inferInstanceAs (Decidable (_ = _))

def getTimezoneOffset (z : LocalClock) (t : Int) : Int := -z.offset t

def getHours (z : LocalClock) (t : Int) : Int := z.localTime t / 3600000 % 24

def getMinutes (z : LocalClock) (t : Int) : Int := z.localTime t / 60000 % 60

/-- The offset in milliseconds. -/
def millis (z : LocalClock) (t : Int) : Int := z.offset t * 60000

end LocalClock

/-- A zone: its offset is less than a day, and a date begins at midnight, or within the hour
where the clock is put forward at midnight. -/
structure Zone extends LocalClock where
  bounded : ∀ t, -1440 < offset t ∧ offset t < 1440
  ordered : ∀ d d', d ≤ d' → midnight d ≤ midnight d'
  whole : ∀ d, midnight d % 60000 = 0
  begins : ∀ t, toLocalClock.day t * 86400000 ≤ toLocalClock.localTime (midnight (toLocalClock.day t)) ∧
    toLocalClock.localTime (midnight (toLocalClock.day t)) ≤ toLocalClock.day t * 86400000 + 3600000

/-! ## `CalVars` -/

inductive DayType where
  | invalid
  | normal
  | half
  deriving DecidableEq

structure CalVars where
  /-- `none` is `NaN`. -/
  est : Option ℚ
  hourLimit : Int
  hourFormat : Option Int
  dayType : DayType

/-- `hourComparison`, with the `dayType` there is so far. -/
def hourComparison (dayType : Option DayType) : Int := if dayType = some .half then clock 13 0 0 else clock 16 0 0

/-- `dayStatus`. It asks whether there is a `validStockTime`, and does not call it. -/
def dayStatus : DayType := .normal

/-- `new CalVars(date)` -/
def calVars (date : Int) : CalVars :=
  -- The string of a date has no milliseconds.
  let graphTime := date / 1000 * 1000
  let est := (Browser.offsetTime graphTime).map fun offset => (graphTime : ℚ) - (5 * 3600 * 1000 - offset)
  -- The limit is set before there is a type of the day.
  { est, hourLimit := hourComparison none, hourFormat := Browser.hourString est, dayType := dayStatus }

/-! ## The calendar -/

/-- An item of the calendar. -/
structure DateItem where
  date : Int
  pick : Int

/-- `create` of an array. -/
def createArray (z : Zone) (d : Int) : DateItem := ⟨z.day (z.midnight d), z.midnight d⟩

/-- `create` of a date, which is set to the midnight before. -/
def createDate (z : Zone) (t : Int) : DateItem := createArray z (z.day t)

/-- `disable`: the weekdays. -/
def disabledWeekdays : List Int := [1, 7]

/-- `disable`: the holidays, as years, months from 0 to 11 and dates. -/
def disabledDates : List (Int × Int × Int) :=
  [ (2010, 0, 1), (2010, 0, 18), (2010, 1, 15), (2010, 3, 2), (2010, 4, 31), (2010, 6, 5), (2010, 8, 6), (2010, 10, 25),
    (2010, 11, 24),
    (2011, 0, 17), (2011, 0, 21), (2011, 3, 22), (2011, 4, 30), (2011, 6, 4), (2011, 8, 5), (2011, 10, 24),
    (2011, 11, 26),
    (2012, 0, 2), (2012, 0, 16), (2012, 1, 20), (2012, 3, 6), (2012, 4, 28), (2012, 6, 4), (2012, 8, 3), (2012, 10, 22),
    (2012, 11, 25),
    (2013, 0, 1), (2013, 0, 21), (2013, 1, 18), (2013, 2, 29), (2013, 4, 27), (2013, 6, 4), (2013, 8, 2), (2013, 10, 28),
    (2013, 11, 25),
    (2014, 0, 1), (2014, 0, 20), (2014, 1, 17), (2014, 3, 18), (2014, 4, 26), (2014, 6, 4), (2014, 8, 1), (2014, 10, 27),
    (2014, 11, 25),
    (2015, 0, 1), (2015, 0, 19), (2015, 1, 16), (2015, 3, 3), (2015, 4, 25), (2015, 8, 7), (2015, 10, 26), (2015, 11, 25),
    (2016, 0, 1), (2016, 0, 18), (2016, 1, 15), (2016, 2, 25), (2016, 4, 30), (2016, 6, 4), (2016, 8, 5), (2016, 10, 24),
    (2016, 11, 26),
    (2017, 0, 2), (2017, 0, 16), (2017, 1, 20), (2017, 3, 14), (2017, 4, 29), (2017, 6, 4), (2017, 8, 4), (2017, 10, 23),
    (2017, 11, 25),
    (2018, 0, 1), (2018, 0, 15), (2018, 1, 19), (2018, 2, 30), (2018, 4, 28), (2018, 6, 4), (2018, 8, 3), (2018, 10, 22),
    (2018, 11, 25),
    (2019, 0, 1), (2019, 0, 21), (2019, 1, 18), (2019, 3, 19), (2019, 4, 27), (2019, 6, 4), (2019, 8, 2), (2019, 10, 28),
    (2019, 11, 25),
    (2020, 0, 1), (2020, 0, 20), (2020, 1, 17), (2020, 3, 10), (2020, 4, 25), (2020, 6, 3), (2020, 8, 7), (2020, 10, 26),
    (2020, 11, 25) ]

/-- The day of an array of the calendar. -/
def dayOfArray (array : Int × Int × Int) : Int := Date.toDays ⟨array.1, array.2.1 + 1, array.2.2⟩

/-- `isDisabledMatch`: weekdays count from 1, which is Sunday. -/
def isDisabledMatch (z : Zone) (item : DateItem) : Bool :=
  disabledWeekdays.any (fun n => weekday item.date = (n - 1) % 7) ||
    disabledDates.any (fun array => item.pick = (createArray z (dayOfArray array)).pick)

/-- `disabled`, without a `max`. -/
def disabled (z : Zone) (min item : DateItem) : Bool := isDisabledMatch z item || item.pick < min.pick

/-- `setMinTime`. There is no `dayState`, only a `dayType`. -/
def setMinTime (timeVars : CalVars) : Option Int :=
  let dayState : Option DayType := none
  if dayState = some .invalid then Browser.parseDate (Browser.gmtString timeVars.est)
  else if Browser.earlier timeVars.hourFormat timeVars.hourLimit then Browser.parseDate (Browser.gmtString timeVars.est)
  else Browser.parseDate (Browser.gmtString (timeVars.est.map (· + 24 * 3600 * 1000)))

/-- The `min` of the calendar that `CalendarMaker` makes. -/
def minDate (z : Zone) (now : Int) : Option DateItem := (setMinTime (calVars now)).map (createDate z)

/-- The calendar lets the user select this date, which is one of the zone and within what a
`Date` can hold. -/
def Selectable (z : Zone) (now d : Int) : Prop :=
  z.Has d ∧ Browser.InDateRange (z.midnight d) ∧
    ∃ min, minDate z now = some min ∧ disabled z min (createArray z d) = false

/-! ## The time picker -/

/-- The limits of the time picker, in minutes of the day. `none` is `NaN`. -/
structure TimePicker where
  min : Option Int
  max : Int

def interval : Int := 30

namespace TimePicker

/-- `normalize` -/
def normalize (p : TimePicker) (value : Int) : Int := value - (value - p.min.getD 0).tmod interval

/-- `set('max', value)`, in minutes. -/
def setMax (p : TimePicker) (value : Int) : TimePicker :=
  let value := if p.min.any (value < ·) then value + 1440 else value
  { p with max := (p.normalize value).tmod 1440 }

/-- `set('min', [hours, minutes])`, which goes on to set the `max` there is. -/
def setMin (p : TimePicker) (value : Option (Int × Int)) : TimePicker :=
  let p : TimePicker := { p with min := value.map fun time => (time.1 * 60 + time.2).tmod 1440 }
  p.setMax (p.normalize p.max)

/-- The times of the list: the loop of `group` from the `min` to the `max`. -/
def times (p : TimePicker) : List Int :=
  match p.min with
  | none => []
  | some min => (List.range ((p.max - min) / interval + 1).toNat).map fun (i : Nat) => min + i * interval

end TimePicker

/-! ## `TimeMaker` -/

/-- `dayStart` -/
def dayStart (z : Zone) (selectTime : Int) : Option Int :=
  (Browser.parseDate (Browser.gmtString (some selectTime))).map fun input =>
    selectTime - z.getTimezoneOffset input * 60 * 1000

/-- The next half hour on the local clock, which is to show the time of New York. -/
def nextHalfHour (z : Zone) (est : Option ℚ) : Option (Int × Int) := do
  let estD ← Browser.parseDate (Browser.gmtString est)
  let estOffset := z.getTimezoneOffset estD
  let estDInLocal ← Browser.parseDate (Browser.gmtString (est.map (· + estOffset * 60 * 1000)))
  let minutes := z.getMinutes estDInLocal
  let hours := z.getHours estDInLocal
  some (if 30 ≤ minutes then hours + 1 else hours, if 30 ≤ minutes then 0 else 30)

/-- `updateTimePicker`, at `now` for the date selected. -/
def updateTimePicker (z : Zone) (now selectTime : Int) (timeVars : CalVars) (p : TimePicker) : TimePicker :=
  let currentGT := now / 86400000 * 86400000
  let p := p.setMin (some (9, 30))
  let p :=
    if some currentGT = dayStart z selectTime then
      if Browser.earlier timeVars.hourFormat (clock 9 30 0) then p.setMin (some (9, 30))
      else p.setMin (nextHalfHour z timeVars.est)
    else p
  if (dayStart z selectTime).any fun start => Browser.validStockTime z.millis (start + 19 * 3600 * 1000) then
    p.setMax (16 * 60)
  else p.setMax (13 * 60)

end MyStockIQ.Pickers
