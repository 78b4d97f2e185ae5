import MyStockIQ.MarketHours
import Mathlib.Data.Rat.Floor
/-!
# The browser's market clock (`z-customdate.js`, `moment-timezone.js`)

The pages repeat `valid_stock_time?` in JavaScript. Its offset comes from a
zone packed into one string, and its weekday from the browser's own time zone.
-/

open Gregorian

namespace MyStockIQ.Browser

/-! ## Packed zones -/

/-- `charCodeToInt`: the digits of base 60 are `0`-`9`, `a`-`z` and `A`-`X`. -/
def charCodeToInt (charCode : Int) : Int :=
  if 96 < charCode then charCode - 87 else if 64 < charCode then charCode - 29 else charCode - 48

/-- The value of a digit. -/
def digit (c : Char) : ℚ := charCodeToInt c.toNat

/-- The digits after the point, `multiplier` being the place before them. -/
def addFraction (out multiplier : ℚ) : List Char → ℚ
  | [] => out
  | c :: rest => addFraction (out + digit c * (multiplier / 60)) (multiplier / 60) rest

/-- `unpackBase60`. -/
def unpackBase60 (string : List Char) : ℚ :=
  let parts := string.splitOn '.'
  let whole := parts.getD 0 []
  let fractional := parts.getD 1 []
  let negative := string.head? = some '-'
  let digits := if negative then whole.drop 1 else whole
  let out := addFraction (digits.foldl (fun out c => 60 * out + digit c) 0) 1 fractional
  if negative then -out else out

/-- The end of a segment. `nan` is what is made of a missing one. -/
inductive Until where
  | at (ms : Int)
  | infinity
  | nan
  deriving DecidableEq

/-- `target < until`. -/
def Until.exceeds (target : Int) : Until → Bool
  | .at ms => target < ms
  | .infinity => true
  | .nan => false

/-- `Math.round`. -/
def round (x : ℚ) : Int := ⌊x + 1 / 2⌋

/-- The loop of `intToUntil`: the minutes of each segment are added to the end
of the one before it. -/
def sumUntils : Nat → Int → List ℚ → List Until
  | 0, _, _ => []
  | n + 1, _, [] => .nan :: sumUntils n 0 []
  | n + 1, previous, minutes :: rest =>
    let ms := round (previous + minutes * 60000)
    .at ms :: sumUntils n ms rest

/-- `intToUntil`. The last segment never ends. -/
def intToUntil (array : List ℚ) (length : Nat) : List Until := sumUntils (length - 1) 0 array ++ [.infinity]

/-- `source[i]`, `none` being `undefined`. -/
def item {α : Type} (source : List α) (i : ℚ) : Option α :=
  if i.den = 1 ∧ 0 ≤ i.num then source[i.num.toNat]? else none

/-- `mapIndices`. -/
def mapIndices {α : Type} (source : List α) (indices : List ℚ) : List (Option α) := indices.map (item source)

/-- A `Zone`. Offsets are minutes behind UTC. -/
structure Zone where
  name : List Char
  abbrs : List (Option (List Char))
  offsets : List (Option ℚ)
  untils : List Until
  deriving DecidableEq

/-- `unpack`; it raises if the string has fewer than five parts. -/
def unpack (string : List Char) : Option Zone :=
  match string.splitOn '|' with
  | name :: abbrs :: offsets :: indices :: untils :: _ =>
    let indices := indices.map fun c => unpackBase60 [c]
    some
      { name := name
        abbrs := mapIndices (abbrs.splitOn ' ') indices
        offsets := mapIndices ((offsets.splitOn ' ').map unpackBase60) indices
        untils := intToUntil ((untils.splitOn ' ').map unpackBase60) indices.length }
  | _ => none

/-- `Zone._index`: the first segment that ends after `target`. -/
def Zone.index (z : Zone) (target : Int) : Option Nat := z.untils.findIdx? (Until.exceeds target)

/-- `Zone.offset`. -/
def Zone.offset (z : Zone) (target : Int) : Option ℚ := (z.index target).bind fun i => z.offsets[i]?.join

/-- The string given to `moment.tz.add`. -/
def packedNewYork : List Char := "America/New_York|EST EDT|50 40|0101|1Lz50 1zb0 Op0".toList

theorem unpack_newYork : unpack packedNewYork = some
    { name := "America/New_York".toList
      abbrs := [some "EST".toList, some "EDT".toList, some "EST".toList, some "EDT".toList]
      offsets := [some 300, some 240, some 300, some 240]
      untils := [.at 1394298000000, .at 1414857600000, .at 1425747600000, .infinity] } := by
  decide +kernel

/-- `moment.tz.zone('America/New_York')`. -/
def newYork : Option Zone := unpack packedNewYork

/-! ## `validStockTime` -/

/-- `Number#offsetTime`, in milliseconds; `none` is `NaN`. -/
def offsetTime (t : Int) : Option ℚ :=
  (newYork.bind (Zone.offset · t)).map fun offset => 5 * 3600 * 1000 - offset * 60 * 1000

/-- `new Date(number)`: the milliseconds since the epoch, cut to an integer.
A number more than 100 million days away makes an invalid date, `none`, and
doubles hold every integer as far as that. -/
def newDate (number : Option ℚ) : Option Int :=
  number.bind fun v =>
    if -8640000000000000 ≤ v ∧ v ≤ 8640000000000000 then some (v.num.tdiv v.den) else none

/-- `Number#gmtString`, as the seconds it shows; `none` is `Invalid Date`. -/
def gmtString (number : Option ℚ) : Option Int := (newDate number).map (· / 1000)

/-- `new Date(str)` and `Date.parse(str)` of a string `gmtString` wrote. A year
below 100 is read as one of 1950 to 2049, and a negative one not at all. -/
def parseDate (str : Option Int) : Option Int :=
  str.bind fun s =>
    let date := Date.ofDays (s / 86400)
    if date.year < 0 then none
    else if date.year < 100 then
      let year := date.year + if date.year < 50 then 2000 else 1900
      some (Date.toDays { date with year := year } * 86400000 + s % 86400 * 1000)
    else some (s * 1000)

/-- `String#dayString`, in UTC. -/
def dayString (str : Option Int) : Option Date := (parseDate str).map fun ms => Date.ofDays (ms / 86400000)

/-- `Number#hourString`, in UTC, as the seconds since midnight. -/
def hourString (number : Option ℚ) : Option Int := (newDate number).map fun ms => ms / 1000 % 86400

/-- `weekDay`: 1 is Monday and 7 is Sunday, in the browser's zone. `zone` is
its offset in milliseconds at each instant. An invalid date has the day `NaN`,
and `NaN || 7` is 7. -/
def weekDay (zone : Int → Int) (str : Option Int) : Int :=
  match parseDate str with
  | none => 7
  | some ms =>
    let day := weekday ((ms + zone ms) / 86400000)
    if day = 0 then 7 else day

/-- `hourFormat < hour`. `Invalid date` comes after all the hours. -/
def earlier (hourFormat : Option Int) (hour : Int) : Bool :=
  match hourFormat with
  | none => false
  | some h => h < hour

/-- `hourFormat > hour`. -/
def later (hourFormat : Option Int) (hour : Int) : Bool :=
  match hourFormat with
  | none => true
  | some h => hour < h

/-- `Array#includes`. -/
def includes (days : List Date) (day : Option Date) : Bool :=
  match day with
  | none => false
  | some d => days.contains d

/-- `Number#validStockTime`. Its arrays hold the same days as those of
`valid_stock_time?`. -/
def validStockTime (zone : Int → Int) (t : Int) : Bool :=
  let offsetTime := (offsetTime t).map fun offset => (t : ℚ) + offset
  let gmtStr := gmtString offsetTime
  let holidayFormat := dayString gmtStr
  let hourFormat := hourString offsetTime
  if weekDay zone gmtStr = 6 || weekDay zone gmtStr = 7 then false
  else if earlier hourFormat (clock 14 30 0) || later hourFormat (clock 21 0 0) then false
  else if includes holidayArray holidayFormat then false
  else if includes halfDayArray holidayFormat &&
    (earlier hourFormat (clock 14 30 0) || later hourFormat (clock 18 0 0)) then false
  else true

/-! ## What the packed zone says -/

/-- What the packed zone takes for daylight saving time: 2014-03-08 17:00 UTC
to 2014-11-01 16:00, and from 2015-03-07 17:00 on for ever. -/
def packedSummer (t : Int) : Prop := 1394298000000 ≤ t ∧ t < 1414857600000 ∨ 1425747600000 ≤ t

instance (t : Int) : Decidable (packedSummer t) := inferInstanceAs (Decidable (_ ∨ _))

/-- The milliseconds the browser adds to UTC. -/
def packedShift (t : Int) : Int := if packedSummer t then 3600000 else 0

theorem newYork_offset (t : Int) :
    newYork.bind (Zone.offset · t) = some (if packedSummer t then 240 else 300) := by
  unfold newYork
  rw [unpack_newYork]
  simp only [Option.bind_some, Zone.offset, Zone.index, List.findIdx?_cons, Until.exceeds]
  -- The segments in turn: EST, EDT, EST and EDT.
  by_cases h1 : t < 1394298000000
  · have hs : ¬ packedSummer t := by unfold packedSummer; omega
    simp [h1, hs]
  by_cases h2 : t < 1414857600000
  · have hs : packedSummer t := by unfold packedSummer; omega
    simp [h1, h2, hs]
  by_cases h3 : t < 1425747600000
  · have hs : ¬ packedSummer t := by unfold packedSummer; omega
    simp [h1, h2, h3, hs]
  · have hs : packedSummer t := by unfold packedSummer; omega
    simp [h1, h2, h3, hs]

theorem offsetTime_eq (t : Int) : offsetTime t = some (packedShift t : ℚ) := by
  unfold offsetTime packedShift
  rw [newYork_offset]
  split <;> norm_num

/-- An instant `new Date` can hold. -/
def InDateRange (ms : Int) : Prop := -8640000000000000 ≤ ms ∧ ms ≤ 8640000000000000

instance (ms : Int) : Decidable (InDateRange ms) := inferInstanceAs (Decidable (_ ∧ _))

theorem newDate_int (ms : Int) : newDate (some (ms : ℚ)) = if InDateRange ms then some ms else none := by
  have h : ((-8640000000000000 : ℚ) ≤ ms ∧ (ms : ℚ) ≤ 8640000000000000) ↔ InDateRange ms := by
    unfold InDateRange
    norm_cast
  simp [newDate, h]

/-- From the year 100 on a string keeps the second it was written at. -/
theorem parseDate_eq {s : Int} (h : -59011459200 ≤ s) : parseDate (some s) = some (s * 1000) := by
  have hyear := hundred_le_year (n := s / 86400) (by omega)
  unfold parseDate
  simp only [Option.bind_some]
  rw [if_neg (by omega), if_neg (by omega)]

example : parseDate (some (-59011459201)) = some 946684799000 := by decide

/-- An instant of which `gmtString` makes a string that keeps its second: from the
year 100 on, as far as a `Date` goes. -/
def Readable (ms : Int) : Prop := -59011459200000 ≤ ms ∧ ms ≤ 8640000000000000

instance (ms : Int) : Decidable (Readable ms) := inferInstanceAs (Decidable (_ ∧ _))

theorem parse_gmtString {ms : Int} (h : Readable ms) :
    parseDate (gmtString (some (ms : ℚ))) = some (ms / 1000 * 1000) := by
  unfold Readable at h
  have hsecond : -59011459200 ≤ ms / 1000 := by omega
  unfold gmtString
  rw [newDate_int, if_pos (by unfold InDateRange; omega)]
  exact parseDate_eq hsecond

theorem dayString_gmtString {ms : Int} (h : Readable ms) :
    dayString (gmtString (some (ms : ℚ))) = some (Date.ofDays (ms / 1000 / 86400)) := by
  unfold dayString
  rw [parse_gmtString h, Option.map_some]
  rw [show ms / 1000 * 1000 / 86400000 = ms / 1000 / 86400 by omega]

/-! ## The two clocks -/

/-- The hours of trading on a day that is no holiday, weekends included. -/
def InHours (s : Int) : Prop :=
  Date.ofDays (s / 86400) ∉ holidayArray ∧ clock 14 30 0 ≤ s % 86400 ∧ s % 86400 ≤ closingClock (s / 86400)

instance (s : Int) : Decidable (InHours s) := inferInstanceAs (Decidable (_ ∧ _))

def Weekend (n : Int) : Prop := weekday n = 6 ∨ weekday n = 0

/-- The second on the server's clock, five hours ahead of New York. -/
def serverClock (t : Int) : Int := t / 1000 + shiftAt (t / 1000)

/-- The second on the browser's clock. -/
def browserClock (t : Int) : Int := (t + packedShift t) / 1000

/-- The day of an instant in the browser's own zone. -/
def localDay (zone : Int → Int) (s : Int) : Int := (s * 1000 + zone (s * 1000)) / 86400000

/-- The browser's clock shows a second in the hours of trading. -/
def BrowserInHours (t : Int) : Prop := InDateRange (t + packedShift t) ∧ InHours (browserClock t)

theorem server_valid (t : Int) :
    MyStockIQ.validStockTime t = true ↔ InHours (serverClock t) ∧ ¬ Weekend (serverClock t / 86400) := by
  rw [valid_adjusted]
  simp only [exists_eq_left]
  unfold TradingDay InHours Weekend serverClock
  tauto

theorem weekDay_weekend (zone : Int → Int) {s : Int} (h : -59011459200 ≤ s) :
    (weekDay zone (some s) = 6 ∨ weekDay zone (some s) = 7) ↔ Weekend (localDay zone s) := by
  unfold weekDay Weekend localDay
  rw [parseDate_eq h]
  dsimp only
  have hday : weekday ((s * 1000 + zone (s * 1000)) / 86400000) < 7 := by unfold weekday; omega
  split <;> omega

/-- `validStockTime` by the browser's clock: an invalid date has no hour of
trading. -/
theorem browser_valid (zone : Int → Int) {t : Int} (h : -59011459200000 ≤ t) :
    validStockTime zone t = true ↔ BrowserInHours t ∧ ¬ Weekend (localDay zone (browserClock t)) := by
  have hclock : -59011459200 ≤ browserClock t := by unfold browserClock packedShift; split <;> omega
  have hw := weekDay_weekend zone hclock
  have hn : (offsetTime t).map (fun offset => (t : ℚ) + offset) = some ((t + packedShift t : Int) : ℚ) := by
    rw [offsetTime_eq]
    push_cast
    rfl
  unfold validStockTime
  simp only [hn, gmtString, hourString, newDate_int]
  by_cases hr : InDateRange (t + packedShift t)
  · have hparse : parseDate (some (browserClock t)) = some (browserClock t * 1000) := parseDate_eq hclock
    have hday : browserClock t * 1000 / 86400000 = browserClock t / 86400 := by omega
    have hsecond : (t + packedShift t) / 1000 = browserClock t := rfl
    unfold BrowserInHours InHours closingClock
    rw [← hw]
    simp only [if_pos hr, Option.map_some, dayString, hsecond, hparse, hday, earlier, later, includes]
    by_cases hh : Date.ofDays (browserClock t / 86400) ∈ halfDayArray
    · simp only [hh, List.contains_eq_mem, decide_true, Bool.true_and, if_true]
      unfold clock
      grind
    · simp only [hh, List.contains_eq_mem, decide_false, Bool.false_and, if_false, Bool.false_eq_true]
      unfold clock
      grind
  · unfold BrowserInHours
    simp [hr, weekDay, parseDate]

/-- From 14.5 hours behind UTC to just under 3 ahead, the date in the zone is
that of UTC all through the hours of trading. -/
def NearGreenwich (zone : Int → Int) : Prop := ∀ ms, -52200000 ≤ zone ms ∧ zone ms < 10800000

/-- A browser's zone not too far from Greenwich has the day of UTC all through
the hours of trading. -/
theorem InHours.localDay_eq {zone : Int → Int} {s : Int} (h : InHours s) (hz : NearGreenwich zone) :
    localDay zone s = s / 86400 := by
  obtain ⟨-, h0, h1⟩ := h
  have hc := closingClock_bounds (s / 86400)
  have hz := hz (s * 1000)
  unfold localDay
  unfold clock at *
  omega

/-! ## The years the packed zone covers -/

/-- The years from November 2013 to November 2015. -/
theorem year_near {n : Int} (h0 : 16012 ≤ n) (h1 : n < 16741) :
    (Date.ofDays n).year = if n < 16071 then 2013 else if n < 16436 then 2014 else 2015 := by
  have he : (n + 719468) / 146097 = 5 := by omega
  have hd : (n + 719468) % 146097 = n - 11017 := by omega
  -- The years counted from March, since 2000.
  have hy : yearOfEra (n - 11017) = if n < 16130 then 13 else if n < 16495 then 14 else 15 := by
    unfold yearOfEra
    dsimp only
    split
    · omega
    · split <;> omega
  simp only [Date.ofDays, he, hd, hy, daysBeforeYear, monthOfMarch, yearOfMarch]
  by_cases hm : n < 16130
  · simp only [hm, if_true]
    omega
  · by_cases hm' : n < 16495
    · simp only [hm, hm', if_true, if_false]
      omega
    · simp only [hm, hm', if_false]
      omega

theorem daylightSaving_near {s : Int} (h0 : 1383458400 ≤ s) (h1 : s < 1446357600) :
    daylightSaving s = true ↔ 1394348400 ≤ s ∧ s < 1414908000 ∨ 1425798000 ≤ s := by
  have hy := year_near (n := s / 86400) (by omega) (by omega)
  unfold daylightSaving
  rw [hy]
  have h13 : firstSunday 2013 3 = 15767 ∧ firstSunday 2013 11 = 16012 := by decide
  have h14 : firstSunday 2014 3 = 16131 ∧ firstSunday 2014 11 = 16376 := by decide
  have h15 : firstSunday 2015 3 = 16495 ∧ firstSunday 2015 11 = 16740 := by decide
  split
  · simp only [h13, clock, Bool.and_eq_true, decide_eq_true_eq]; omega
  · split
    · simp only [h14, clock, Bool.and_eq_true, decide_eq_true_eq]; omega
    · simp only [h15, clock, Bool.and_eq_true, decide_eq_true_eq]; omega

end MyStockIQ.Browser
