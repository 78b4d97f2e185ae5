import MyStockIQ.Effects
import MyStockIQ.MarketHours
/-!
# The times a prediction is created with

The start time of a new prediction is what `closest_start_time` makes of now,
and its end time what it makes of the form's strings, read as UTC. So a
prediction made in the afternoon of a half day starts that morning, and the end
time that is stored is seldom the one that was chosen.
-/

open SharedStore Prog Gregorian

namespace MyStockIQ

/-! ## The pickers (`app/assets/javascripts/pickadate`) -/

def monthsFull : List String :=
  ["January", "February", "March", "April", "May", "June", "July", "August", "September", "October", "November",
    "December"]

/-- A day in the format `d mmmm, yyyy` of the date picker. -/
def pickerDay (n : Int) : String :=
  let date := Date.ofDays n
  toString date.day ++ " " ++ monthsFull.getD (date.month.toNat - 1) "" ++ ", " ++ toString date.year

def lead (number : Int) : String := (if number < 10 then "0" else "") ++ toString number

/-- A minute of the day in the format `h:i A` of the time picker. -/
def pickerTime (minute : Int) : String :=
  let hour := minute / 60 % 12
  toString (if hour = 0 then 12 else hour) ++ ":" ++ lead (minute % 60) ++ " " ++ if minute < 720 then "AM" else "PM"

/-- The `max` of `updateTimePicker`: 13:00 if 19:00 UTC is past the close, otherwise 16:00. -/
def lastSlot (n : Int) : Int := if validStockTime (at_ n (clock 19 0 0)) then 16 * 60 else 13 * 60

/-- The minutes of the day the time picker offers: every half hour from 9:30. -/
def Slot (n minute : Int) : Prop := 9 * 60 + 30 ≤ minute ∧ minute ≤ lastSlot n ∧ minute % 30 = 0

instance (n minute : Int) : Decidable (Slot n minute) := inferInstanceAs (Decidable (_ ∧ _ ∧ _))

/-- `DateTime.parse` reads the pickers' strings for this minute, which have no zone, as UTC. -/
def ParsesUtc (parse : String → Option Int) (n minute : Int) : Prop :=
  parse (pickerDay n ++ " " ++ pickerTime minute) = some (n * 86400 + minute * 60)

instance (parse : String → Option Int) (n minute : Int) : Decidable (ParsesUtc parse n minute) :=
  inferInstanceAs (Decidable (_ = _))

/-- What a clock in New York shows, in nanoseconds since the epoch. -/
def newYorkClock (t : Time) : Int := t + utcOffset t * 1000000000

/-! ## What is saved -/

/-- `create` saves `row`. -/
def Saves (parse : String → Option Int) (db : Db) (now : Time) (session : Option Nat) (params : PredictionParams)
    (row : Prediction) : Prop :=
  ((PredictionsController.create parse now session params).run Db.exec db).2.predictions = db.predictions ++ [row]

/-- Of the predictions, the statement may only add one with `P`. -/
def Stmt.AddsOnly (P : Prediction → Prop) : Stmt → Prop
  | .insertPrediction row => ∀ id, P { row with id := id }
  | .updatePrediction _ _ | .destroyPrediction _ => False
  | _ => True

theorem Stmt.Quiet.addsOnly {P : Prediction → Prop} {stmt : Stmt} (h : stmt.Quiet) : stmt.AddsOnly P := by
  cases stmt <;> trivial

/-- A request of such statements only adds predictions with `P`. -/
theorem added_predictions {α : Type} {P : Prediction → Prop} {p : Request α} (hp : p.Only (Stmt.AddsOnly P)) (db : Db) :
    ∃ new, (p.run Db.exec db).2.predictions = db.predictions ++ new ∧ ∀ row ∈ new, P row := by
  refine hp.run_inv (I := fun db' : Db => ∃ new, db'.predictions = db.predictions ++ new ∧ ∀ row ∈ new, P row) ?_
    ⟨[], by simp, by simp⟩
  rintro db' stmt hs ⟨new, hnew, hall⟩
  cases stmt with
  | insertPrediction row =>
    refine ⟨new ++ [{ row with id := db'.prediction_seq }], by simp [Db.exec, hnew], fun p hp => ?_⟩
    rcases mem_inserted hp with hp | rfl
    · exact hall p hp
    · exact hs _
  | updatePrediction id changes => exact hs.elim
  | destroyPrediction id => exact hs.elim
  | _ => exact ⟨new, hnew, hall⟩

theorem Saves.created {parse : String → Option Int} {db : Db} {now : Time} {session : Option Nat}
    {params : PredictionParams} {row : Prediction} (h : Saves parse db now session params row) :
    Created parse now params row := by
  have honly : (PredictionsController.create parse now session params).Only (Stmt.AddsOnly (Created parse now params)) :=
    only_createPrediction parse now session params (fun _ hs => Stmt.Quiet.addsOnly hs.1) (fun _ => trivial)
      fun _ h _ _ => ⟨h.active, h.graph_start_time, h.graph_end_time, h.start_time, h.end_time, h.later⟩
  obtain ⟨new, hnew, hcreated⟩ := added_predictions honly db
  have hrow : new = [row] := List.append_cancel_left (hnew.symm.trans h)
  exact hcreated row (by simp [hrow])

/-- The tables after the Tag of `formOf` was saved. -/
def tagged : Db := ((addTags (some "up") "ABC" .prediction none).run Db.exec oneStock).2

/-- The form for these end strings. -/
def formOf (end_day end_time : String) : PredictionParams := ⟨1, some "110", some "up", some end_day, some end_time⟩

/-- After the insert, the rest of `create` leaves the predictions. -/
theorem predictions_savePrediction {α : Type} {row : Prediction} {tag_id : Nat} {db : Db} {stock : Stock}
    (h : db.stock row.stock_id = some stock) {f : Prediction → Request α} (hf : ∀ p, Quietly (f p)) :
    (((savePrediction row tag_id).bind f).run Db.exec db).2.predictions =
      db.predictions ++ [{ row with id := db.prediction_seq }] := by
  simp only [savePrediction, select, bind_eq, query_bind, step_bind, run_step, exec_select, h, orNil, ret_bind]
  refine congrArg Prod.fst (Quietly.core ?_ (db.exec (.insertPrediction row)))
  exact Only.bind (.bind (quiet_write trivial) fun _ => .bind (mild_updateStockPredictionCount _).quiet fun _ => trivial) hf

/-- The same form with another price. -/
def pricedForm (price end_day end_time : String) : PredictionParams :=
  ⟨1, some price, some "up", some end_day, some end_time⟩

/-- A form whose end time is later than the start time is saved, whatever is put in for the price. -/
theorem saves_pricedForm {toPrice : String → Rat} {parse : String → Option Int} {now start_time end_time : Time}
    {unix : Int} {price day time : String} (hne : price ≠ "")
    (hs : closestStartTime (graphTime now) = some start_time) (hday : day ≠ "") (htime : time ≠ "")
    (hp : parse (day ++ " " ++ time) = some unix) (he : closestStartTime (unix * 1000) = some end_time)
    (hlt : start_time < end_time) :
    ∃ row, ((PredictionsController.createWith toPrice parse now (some 1) (pricedForm price day time)).run Db.exec
        oneStock).2.predictions = oneStock.predictions ++ [row] ∧ row.start_time = start_time ∧
      row.prediction_end_time = end_time ∧ row.prediction_end_price = toPrice price := by
  have htags : ∃ tag, (addTags (some "up") "ABC" .prediction none).run Db.exec oneStock = (.ok tag, tagged) := by
    have hok : ((addTags (some "up") "ABC" .prediction none).run Db.exec oneStock).1.isOk = true := rfl
    unfold tagged
    rcases hrun : (addTags (some "up") "ABC" .prediction none).run Db.exec oneStock with ⟨_ | tag, db⟩
    · rw [hrun] at hok; cases hok
    · exact ⟨tag, rfl⟩
  obtain ⟨tag, htags⟩ := htags
  have hend : endTime parse (pricedForm price day time) = .ret (some end_time) := by
    simp [endTime, pricedForm, hday, htime, endString, hp, he, orNil]
  have hprice : endPrice toPrice (pricedForm price day time) = .ret (some (toPrice price)) := by
    simp [endPrice, pricedForm, orNil, hne]
  have hstock : tagged.stock 1 = oneStock.stock 1 := rfl
  have hnone : tagged.activePrediction 1 1 = none := rfl
  have hempty : tagged.predictions = [] := rfl
  have hrefusals : refusals false "ABC" (pricedForm price day time) start_time end_time = [] := by
    simp [refusals, messageIf, pricedForm, hday, htime, hlt]
  refine ⟨⟨tagged.prediction_seq, 1, 1, "up", .finite 0, true, false, some 100, start_time, toPrice price,
    end_time, graphTime start_time, graphTime end_time⟩, ?_, rfl, rfl, rfl⟩
  unfold PredictionsController.createWith
  have huser : oneStock.user 1 = some ⟨1, "analyst"⟩ := rfl
  have hstock' : oneStock.stock 1 =
      some ⟨1, "A stock", "ABC", some (1436189400 * 1000000000), some 100, some true, 0⟩ := rfl
  simp only [currentUser, select, bind_eq, query_bind, run_step, exec_select, huser, hs, orNil, ret_bind, hend, hprice]
  simp only [pricedForm, hstock'] at hrefusals ⊢
  rw [run_bind_ok Db.exec htags]
  simp only [run_step, exec_select, hnone, Option.isSome_none, hrefusals]
  -- The check found nothing and there is no message: the row is saved.
  refine (predictions_savePrediction (hstock.trans hstock') fun prediction => ?_).trans ?_
  · exact .bind (mild_announcePrediction _ _ _ _).quiet fun _ => trivial
  · rw [hempty]
    rfl

theorem saves_formOf {parse : String → Option Int} {now start_time end_time : Time} {unix : Int} {day time : String}
    (hs : closestStartTime (graphTime now) = some start_time) (hday : day ≠ "") (htime : time ≠ "")
    (hp : parse (day ++ " " ++ time) = some unix) (he : closestStartTime (unix * 1000) = some end_time)
    (hlt : start_time < end_time) :
    ∃ row, Saves parse oneStock now (some 1) (formOf day time) row ∧ row.start_time = start_time ∧
      row.prediction_end_time = end_time := by
  obtain ⟨row, hsaves, hstart, hend, -⟩ := saves_pricedForm (show "110" ≠ "" by decide) hs hday htime hp he hlt
  exact ⟨row, hsaves, hstart, hend⟩

theorem pickerDay_ne (n : Int) : pickerDay n ≠ "" := by
  simp [pickerDay, String.append_eq_empty_iff]

theorem pickerTime_ne (minute : Int) : pickerTime minute ≠ "" := by
  simp [pickerTime, String.append_eq_empty_iff]

/-! ## The start time -/

/-- What is found for a graph time in the session of a trading day is a minute ahead. -/
theorem closest_at {n c : Int} (hc : c % 60 = 0) (h0 : 0 ≤ c) (h1 : c + 60 < 86400) (hn : TradingDay n)
    (hopen : opening n ≤ c + 60) (hclose : c + 60 ≤ closing n) :
    closestStartTime (at_ n c) = some (utcTime (at_ n (c + 60))) := by
  have hr : roundedGraphTime (at_ n c) = at_ n (c + 60) := by
    rw [roundedGraphTime_eq]
    unfold at_
    omega
  rw [closest_open, hr]
  rw [hr, valid_at (by omega) h1]
  exact ⟨hn, hopen, hclose⟩

theorem utcTime_le_iff (g : Int) (t : Time) : utcTime g ≤ t ↔ g / 1000 ≤ toI t := by
  change g / 1000 * 1000000000 ≤ (t : Int) ↔ g / 1000 ≤ (t : Int) / 1000000000
  omega

theorem utcTime_lt_iff (g h : Int) : utcTime g < utcTime h ↔ g / 1000 < h / 1000 := by
  change g / 1000 * 1000000000 < h / 1000 * (1000000000 : Int) ↔ _
  omega

/-- In the afternoon of a half day the start time found is that morning, which is in the past. -/
theorem halfDay_past {now start_time : Time} (hhalf : HalfDayAfternoon (roundedGraphTime (graphTime now)))
    (hs : closestStartTime (graphTime now) = some start_time) : start_time < utcTime (wholeMinute now) := by
  have hr := roundedGraphTime_eq (graphTime now)
  rw [closest_halfDay hhalf] at hs
  obtain rfl := Option.some.inj hs
  obtain ⟨-, -, hafter, -⟩ := hhalf
  rw [utcTime_lt_iff]
  unfold graphTime at *
  unfold wholeMinute at_ clock at *
  omega

/-- Whatever is saved is not about the past exactly when the minute ahead of now
is not in the afternoon of a half day. -/
theorem Saves.in_future_iff {parse : String → Option Int} {db : Db} {now : Time} {session : Option Nat}
    {params : PredictionParams} {row : Prediction} (h : Saves parse db now session params row) :
    (utcTime (wholeMinute now) ≤ row.start_time ∧ row.start_time < row.prediction_end_time) ↔
    ¬HalfDayAfternoon (roundedGraphTime (graphTime now)) := by
  have hcreated := h.created
  constructor
  · rintro ⟨hle, -⟩ hhalf
    exact absurd hle (Int.not_le.2 (halfDay_past hhalf hcreated.start_time))
  · intro hhalf
    have hr := roundedGraphTime_eq (graphTime now)
    have hahead := closest_ahead hcreated.start_time hhalf
    refine ⟨?_, hcreated.later⟩
    rw [utcTime_le_iff]
    unfold graphTime at *
    unfold wholeMinute
    omega

/-- In the afternoon of a half day a prediction for three o'clock is saved. -/
theorem saves_halfDay {parse : String → Option Int} {now : Time}
    (hhalf : HalfDayAfternoon (roundedGraphTime (graphTime now))) (hparse : ParsesUtc parse (dayOf now) (15 * 60)) :
    ∃ db session params row, Saves parse db now session params row := by
  have hr := roundedGraphTime_eq (graphTime now)
  have hstart := closest_halfDay hhalf
  obtain ⟨hsummer, hday, hafter, hbefore⟩ := hhalf
  unfold graphTime at *
  generalize roundedGraphTime (toI now * 1000) = m at *
  have hn : m / 1000 / 86400 = dayOf now := by unfold dayOf; unfold clock at hafter hbefore; omega
  rw [hn] at hstart hsummer hday
  -- Three in the afternoon, read as UTC, is in the session of the same day.
  have hend : closestStartTime ((dayOf now * 86400 + 15 * 60 * 60) * 1000) =
      some (utcTime (at_ (dayOf now) (15 * 60 * 60 + 60))) := by
    refine closest_at (by decide) (by decide) (by decide) hsummer.1 ?_ ?_
    · unfold opening
      rw [summer_shift hsummer.2]
      decide
    · unfold closing closingClock
      rw [summer_shift hsummer.2, if_pos hday]
      decide
  have hlt : utcTime (at_ (dayOf now) (clock 14 30 0)) < utcTime (at_ (dayOf now) (15 * 60 * 60 + 60)) := by
    rw [utcTime_lt_iff]
    unfold at_ clock
    omega
  obtain ⟨row, hsaves, -⟩ := saves_formOf hstart (pickerDay_ne _) (pickerTime_ne _) hparse hend hlt
  exact ⟨_, _, _, row, hsaves⟩

/-- A prediction is never made about the past exactly when the minute ahead is
not in the afternoon of a half day. -/
theorem create_in_future_iff (parse : String → Option Int) (now : Time)
    (hparse : ParsesUtc parse (dayOf now) (15 * 60)) :
    (∀ db session params row, Saves parse db now session params row →
      utcTime (wholeMinute now) ≤ row.start_time ∧ row.start_time < row.prediction_end_time) ↔
    ¬HalfDayAfternoon (roundedGraphTime (graphTime now)) := by
  constructor
  · intro hfuture hhalf
    obtain ⟨db, session, params, row, hsaves⟩ := saves_halfDay hhalf hparse
    exact hsaves.in_future_iff.1 (hfuture db session params row hsaves) hhalf
  · intro hhalf db session params row hsaves
    exact hsaves.in_future_iff.2 hhalf

/-- What `DateTime.parse` makes of two of the pickers' strings. -/
def utcStrings (s : String) : Option Int :=
  [("6 July, 2015 3:00 PM", 1436194800), ("7 July, 2015 10:30 AM", 1436265000)].lookup s

/-- A prediction made on Monday, 6 July 2015, at 14:00 UTC, for 10:30 the next day. -/
def mondayPrediction : Prediction :=
  ⟨1, 1, 1, "up", .finite 0, true, false, some 100, 1436191260 * 1000000000, 110, 1436279400 * 1000000000,
    1436191260000, 1436279400000⟩

theorem saves_mondayPrediction : Saves utcStrings oneStock (1436191200 * 1000000000) (some 1)
    (formOf "7 July, 2015" "10:30 AM") mondayPrediction := by
  unfold Saves
  decide +kernel

theorem create_in_future_monday : utcTime (wholeMinute (1436191200 * 1000000000)) ≤ mondayPrediction.start_time ∧
    mondayPrediction.start_time < mondayPrediction.prediction_end_time :=
  (create_in_future_iff utcStrings (1436191200 * 1000000000) (by rfl)).2 (by decide) _ _ _ _
    saves_mondayPrediction

/-- On Friday, 3 July 2015, the market closes at 17:00 UTC. A prediction made at
18:00 starts at 14:30. -/
theorem create_in_the_past :
    ¬∀ parse db now session params row, Saves parse db now session params row →
      utcTime (wholeMinute now) ≤ row.start_time ∧ row.start_time < row.prediction_end_time := by
  intro h
  have hsaves : Saves tuesdayAfternoon oneStock (1435946400 * 1000000000) (some 1) (formOf "7 July, 2015" "2:00 PM")
      ⟨1, 1, 1, "up", .finite 0, true, false, some 100, 1435933800 * 1000000000, 110, 1436277660 * 1000000000,
        1435933800000, 1436277660000⟩ := by
    unfold Saves
    decide +kernel
  exact absurd (h _ _ _ _ _ _ hsaves).1 (by decide)

/-! ## The end time -/

theorem shift_eq (n : Int) : shift n = 0 ∨ shift n = 3600 := by
  unfold shift shiftAt
  split <;> simp

theorem winter_shift {n : Int} (h : daylightSaving (n * 86400) = false) : shift n = 0 := by
  unfold shift shiftAt
  simp [h]

/-- The last slot is at four, or at one on a half day. -/
theorem lastSlot_eq {n : Int} (hn : TradingDay n) :
    lastSlot n = if Date.ofDays n ∈ halfDayArray then 13 * 60 else 16 * 60 := by
  have hs := shift_eq n
  have hvalid := valid_at (n := n) (c := clock 19 0 0) (by decide) (by decide)
  unfold opening closing closingClock clock at hvalid
  unfold lastSlot clock
  by_cases hh : Date.ofDays n ∈ halfDayArray
  · rw [if_pos hh, if_neg]
    rw [if_pos hh] at hvalid
    intro hv
    have := (hvalid.1 hv).2.2
    omega
  · rw [if_neg hh, if_pos]
    rw [if_neg hh] at hvalid
    exact hvalid.2 ⟨hn, by omega, by omega⟩

/-- Every slot is before the close, even when New York time is taken for UTC. -/
theorem slot_bounds {n minute : Int} (hn : TradingDay n) (h : Slot n minute) :
    9 * 60 + 30 ≤ minute ∧ minute ≤ 16 * 60 ∧ minute % 30 = 0 ∧ minute * 60 + 60 ≤ closing n := by
  have hs := shift_eq n
  obtain ⟨h0, h1, h2⟩ := h
  rw [lastSlot_eq hn] at h1
  unfold closing closingClock clock
  split at h1 <;> omega

theorem newYorkClock_at {n c : Int} (hn : TradingDay n) (h0 : 0 ≤ c) (h1 : c < 86400) :
    newYorkClock (utcTime (at_ n c)) = (n * 86400 + c - 18000 + shift n) * 1000000000 := by
  have hoff : utcOffset (utcTime (at_ n c)) = shift n - 18000 := by
    rw [← hn.shiftAt_eq (s := n * 86400 + c) (by omega)]
    have hi : toI (utcTime (at_ n c)) = n * 86400 + c := by rw [toI_utcTime]; unfold at_; omega
    unfold utcOffset shiftAt
    rw [hi]
    split <;> rfl
  unfold newYorkClock
  rw [hoff]
  change at_ n c / 1000 * 1000000000 + (shift n - 18000) * 1000000000 = _
  unfold at_
  omega

/-- A slot read as UTC before the opening is searched for from its own day. -/
theorem closest_before {n minute : Int} (hn : TradingDay n) (h : Slot n minute)
    (hclosed : minute * 60 + 60 < opening n) :
    ∃ f, f / 86400000 = n ∧ closestStartTime (at_ n (minute * 60)) = searchDays f 11 0 := by
  obtain ⟨h0, h1, -, -⟩ := slot_bounds hn h
  have hr : roundedGraphTime (at_ n (minute * 60)) = at_ n (minute * 60 + 60) := by
    rw [roundedGraphTime_eq]
    unfold at_
    omega
  refine ⟨forwardGraphTime (roundedGraphTime (at_ n (minute * 60))), ?_, closest_closed ?_⟩
  · have hb := shiftAt_bounds (roundedGraphTime (at_ n (minute * 60)) / 1000)
    change firstDay (at_ n (minute * 60)) = n
    rw [firstDay_eq]
    rw [hr] at hb ⊢
    unfold at_ at *
    omega
  · rw [hr, Ne, valid_at (by omega) (by omega)]
    rintro ⟨-, hopen, -⟩
    omega

/-- A prediction for a slot is saved with the time found for it, if that is after the opening. -/
theorem saves_slot {parse : String → Option Int} {n minute : Int} {end_time : Time} (hn : TradingDay n)
    (hparse : ParsesUtc parse n minute) (he : closestStartTime (at_ n (minute * 60)) = some end_time)
    (hlt : utcTime (at_ n (opening n)) < end_time) :
    ∃ db now session params row, params.end_day = some (pickerDay n) ∧ params.end_time = some (pickerTime minute) ∧
      Saves parse db now session params row ∧ row.prediction_end_time = end_time := by
  have hs := shift_eq n
  have hc := closingClock_bounds n
  -- Made a minute before the opening.
  have hstart : closestStartTime (graphTime (utcTime (at_ n (opening n - 60)))) =
      some (utcTime (at_ n (opening n))) := by
    rw [graphTime_at]
    have h := closest_at (n := n) (c := opening n - 60)
    rw [Int.sub_add_cancel] at h
    unfold opening closing clock at *
    exact h (by omega) (by omega) (by omega) hn (by omega) (by omega)
  obtain ⟨row, hsaves, -, hrow⟩ := saves_formOf hstart (pickerDay_ne n) (pickerTime_ne minute) hparse he hlt
  exact ⟨_, _, _, _, row, rfl, rfl, hsaves, hrow⟩

/-- Every prediction saved for the slot ends when a New York clock shows it. -/
def EndsAsChosen (parse : String → Option Int) (n minute : Int) : Prop :=
  ∀ db now session params row, params.end_day = some (pickerDay n) → params.end_time = some (pickerTime minute) →
    Saves parse db now session params row →
      newYorkClock row.prediction_end_time = (n * 86400 + minute * 60) * 1000000000

/-- A slot that is open when read as UTC is stored as that minute, hours before the one chosen. -/
theorem not_endsAsChosen {parse : String → Option Int} {n minute : Int} (hn : TradingDay n) (hslot : Slot n minute)
    (hparse : ParsesUtc parse n minute) (hopen : opening n ≤ minute * 60 + 60) : ¬EndsAsChosen parse n minute := by
  intro hchosen
  obtain ⟨h0, h1, h30, hclose⟩ := slot_bounds hn hslot
  have hs := shift_eq n
  have hend : closestStartTime (at_ n (minute * 60)) = some (utcTime (at_ n (minute * 60 + 60))) :=
    closest_at (by omega) (by omega) (by omega) hn hopen hclose
  have hlt : utcTime (at_ n (opening n)) < utcTime (at_ n (minute * 60 + 60)) := by
    rw [utcTime_lt_iff]
    unfold at_ opening clock at *
    omega
  obtain ⟨db, now, session, params, row, hday, htime, hsaves, hrow⟩ := saves_slot hn hparse hend hlt
  have h := hchosen db now session params row hday htime hsaves
  rw [hrow, newYorkClock_at hn (by omega) (by omega)] at h
  omega

/-- A time the search found is 10:30 in New York. -/
theorem endsAsChosen_found {parse : String → Option Int} {n minute j : Int} (hn : TradingDay n) (hslot : Slot n minute)
    (hparse : ParsesUtc parse n minute) (hj : 0 ≤ j) (hsummer : SummerTradingDay (n + j))
    (hr : closestStartTime (at_ n (minute * 60)) = some (utcTime (at_ (n + j) (clock 14 30 0))))
    (hchosen : EndsAsChosen parse n minute) : j = 0 ∧ minute = 10 * 60 + 30 := by
  obtain ⟨h0, h1, -, -⟩ := slot_bounds hn hslot
  have hs := shift_eq n
  have hlt : utcTime (at_ n (opening n)) < utcTime (at_ (n + j) (clock 14 30 0)) := by
    rw [utcTime_lt_iff]
    rcases Int.lt_or_eq_of_le hj with hj | rfl
    · unfold at_ opening clock
      omega
    · rw [Int.add_zero] at hsummer ⊢
      have hshift := summer_shift hsummer.2
      unfold at_ opening clock
      omega
  obtain ⟨db, now, session, params, row, hday, htime, hsaves, hrow⟩ := saves_slot hn hparse hr hlt
  have h := hchosen db now session params row hday htime hsaves
  rw [hrow, newYorkClock_at hsummer.1 (by decide) (by decide), summer_shift hsummer.2] at h
  unfold clock at h
  omega

/-- The end time saved for a slot is found from the slot, read as UTC. -/
theorem Saves.slot {parse : String → Option Int} {db : Db} {now : Time} {session : Option Nat}
    {params : PredictionParams} {row : Prediction} {n minute : Int} (h : Saves parse db now session params row)
    (hparse : ParsesUtc parse n minute) (hday : params.end_day = some (pickerDay n))
    (htime : params.end_time = some (pickerTime minute)) :
    closestStartTime (at_ n (minute * 60)) = some row.prediction_end_time := by
  obtain ⟨end_day, end_time, unix, hday', htime', hunix, hend⟩ := h.created.end_time
  obtain rfl : unix = n * 86400 + minute * 60 := by
    rw [Option.some.inj (hday'.symm.trans hday), Option.some.inj (htime'.symm.trans htime)] at hunix
    exact Option.some.inj (hunix.symm.trans hparse)
  exact hend

/-- The New York time chosen for a trading day is the one stored exactly when it
is 10:30 under daylight saving time, or when it leads to no end time at all: up
to 14:00 in winter, eleven days or more before daylight saving time. -/
theorem chosen_end_iff (parse : String → Option Int) {n minute : Int} (hn : TradingDay n) (hslot : Slot n minute)
    (hparse : ParsesUtc parse n minute) :
    (∀ db now session params row, params.end_day = some (pickerDay n) → params.end_time = some (pickerTime minute) →
      Saves parse db now session params row →
        newYorkClock row.prediction_end_time = (n * 86400 + minute * 60) * 1000000000) ↔
    (daylightSaving (n * 86400) = true ∧ minute = 10 * 60 + 30) ∨
      (daylightSaving (n * 86400) = false ∧ minute ≤ 14 * 60 ∧ ∀ j, 0 ≤ j → j < 11 → ¬SummerTradingDay (n + j)) := by
  constructor
  · intro hchosen
    have hclosed : minute * 60 + 60 < opening n := by
      by_contra hopen
      exact not_endsAsChosen hn hslot hparse (by omega) hchosen
    obtain ⟨f, hfirst, hsearch⟩ := closest_before hn hslot hclosed
    cases hr : closestStartTime (at_ n (minute * 60)) with
    | none =>
      have hnone := searchDays_none (hsearch.symm.trans hr)
      rw [hfirst] at hnone
      have hwinter : daylightSaving (n * 86400) = false := by
        rw [← Bool.not_eq_true]
        intro hd
        exact hnone 0 (by omega) (by omega) (by rw [Int.add_zero]; exact ⟨hn, hd⟩)
      refine .inr ⟨hwinter, ?_, fun j hj hj' => hnone j hj (by omega)⟩
      obtain ⟨-, -, h30, -⟩ := slot_bounds hn hslot
      have hshift := winter_shift hwinter
      unfold opening clock at hclosed
      omega
    | some r =>
      obtain ⟨j, hj0, -, hsummer, rfl⟩ := searchDays_some (hsearch.symm.trans hr)
      rw [hfirst] at hsummer hr
      obtain ⟨rfl, hminute⟩ := endsAsChosen_found hn hslot hparse hj0 hsummer hr hchosen
      rw [Int.add_zero] at hsummer
      exact .inl ⟨hsummer.2, hminute⟩
  · rintro hcase db now session params row hday htime hsaves
    have hend := hsaves.slot hparse hday htime
    rcases hcase with ⟨hsummer, hminute⟩ | ⟨hwinter, hminute, hnone⟩
    · have hshift := summer_shift hsummer
      obtain ⟨f, hfirst, hsearch⟩ := closest_before hn hslot (by unfold opening clock; omega)
      rw [hsearch, searchDays_succ, hfirst, Int.add_zero, if_pos ⟨hn, hsummer⟩] at hend
      rw [← Option.some.inj hend, newYorkClock_at hn (by decide) (by decide), hshift]
      unfold clock
      omega
    · -- Nothing is found, so nothing was saved.
      have hshift := winter_shift hwinter
      obtain ⟨f, hfirst, hsearch⟩ := closest_before hn hslot (by unfold opening clock; omega)
      obtain ⟨j, hj0, hj1, hsummer, -⟩ := searchDays_some (hsearch.symm.trans hend)
      rw [hfirst] at hsummer
      exact absurd hsummer (hnone j hj0 (by omega))

/-- 10:30 on Tuesday, 7 July 2015. -/
theorem chosen_end_half_past_ten :
    newYorkClock mondayPrediction.prediction_end_time = (16623 * 86400 + 630 * 60) * 1000000000 :=
  (chosen_end_iff utcStrings (by decide) (by decide) (by rfl)).2 (.inl ⟨by decide, rfl⟩) _ _ _ _ _
    (by rfl) (by rfl) saves_mondayPrediction

/-- 14:00 on Tuesday, 7 July 2015, is stored as 14:01 UTC. -/
theorem chosen_end_read_as_utc :
    ¬∀ (parse : String → Option Int) (n minute : Int), TradingDay n → Slot n minute → ParsesUtc parse n minute →
      ∀ db now session params row, params.end_day = some (pickerDay n) → params.end_time = some (pickerTime minute) →
        Saves parse db now session params row →
          newYorkClock row.prediction_end_time = (n * 86400 + minute * 60) * 1000000000 := by
  intro h
  have hsaves : Saves tuesdayAfternoon oneStock (1436191200 * 1000000000) (some 1) (formOf "7 July, 2015" "2:00 PM")
      ⟨1, 1, 1, "up", .finite 0, true, false, some 100, 1436191260 * 1000000000, 110, 1436277660 * 1000000000,
        1436191260000, 1436277660000⟩ := by
    unfold Saves
    decide +kernel
  have hend := h tuesdayAfternoon 16623 (14 * 60) (by decide) (by decide) (by rfl) _ _ _ _ _
    (by rfl) (by rfl) hsaves
  revert hend
  decide

end MyStockIQ
