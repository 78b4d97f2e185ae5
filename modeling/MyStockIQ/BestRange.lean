import MyStockIQ.Launch
/-!
# The frame that is shown

`bestRange` looks for the first frame that reaches beyond the end of the prediction. If
there is none it returns nothing, `timeFrame` becomes `undefined`, and `setRange` reads
the edges of a frame that is not there (`best_range_iff`).
-/

open SharedStore Prog

namespace MyStockIQ.Chart

/-- The first frame that reaches beyond the time, and the widest if none does. -/
def rangeFor (hash : List (Button × Frame)) (time : Int) : Button :=
  ((hash.find? fun value => time < value.2.xMax).map (·.1)).getD .fiveYears

/-- The chart is set to the frame for the time. -/
def Shown (graphType : Graph) (endType : EndType) (components : Components) (hash : List (Button × Frame)) (time : Int) :
    Prop :=
  ∃ extremes shown, (showFrames graphType endType).run exec components = (.ok extremes, shown) ∧
    shown.currentFrame = some ⟨hash, some (rangeFor hash time)⟩ ∧ (rangeFor hash time, extremes) ∈ hash

variable {components built : Components} {graphType : Graph} {endType : EndType} {hash : List (Button × Frame)}
  {endTime : Point Int}

theorem run_bestRange {currentFrame : CurrentFrame} (hend : components.data.endTime endType = some endTime)
    (hframe : components.currentFrame = some currentFrame) : (bestRange endType).run exec components =
      (.ok ((currentFrame.framesHash.find? fun value => endTime.x < value.2.xMax).map (·.1)), components) := by
  have hread : (read fun components => components.frame "framesHash").run exec components = (.ok currentFrame, components) := by
    rw [run_read, Components.frame, hframe]
  unfold bestRange
  rw [bind_eq, query_bind, run_step, hend]
  dsimp only
  exact run_bind_ok exec hread _

theorem run_setRange {currentFrame : CurrentFrame} (hframe : components.currentFrame = some currentFrame) :
    setRange.run exec components = (currentFrame.frameHash.elim (.error ⟨"yMin"⟩) .ok, components) := by
  have hread : (read fun components => components.frame "timeFrame").run exec components = (.ok currentFrame, components) := by
    rw [run_read, Components.frame, hframe]
  unfold setRange
  rw [bind_eq, run_bind_ok exec hread]
  cases currentFrame.frameHash with
  | none => rfl
  | some frameHash => rfl

theorem endTime_takenAll (elements : List ButtonOptions) (components : Components) (endType : EndType) :
    (takenAll elements components).data.endTime endType = components.data.endTime endType := by
  induction elements generalizing components with
  | nil => rfl
  | cons element elements ih =>
    refine (ih (taken components element)).trans ?_
    cases endType <;> rfl

/-- What `showFrames` does with the frames it has. -/
theorem run_showFrames (hbuilt : (framesHash graphType).run exec components = (.ok hash, built))
    (hend : components.data.endTime endType = some endTime) :
    (showFrames graphType endType).run exec components =
      setRange.run exec { built with
        currentFrame := some ⟨hash, (hash.find? fun value => endTime.x < value.2.xMax).map (·.1)⟩ } := by
  have hend_built : (exec built (.currentFrame hash)).data.endTime endType = some endTime := by
    rw [← hend, ← endTime_takenAll buttons components endType, (framesHash_ok hbuilt).1]
    rfl
  have hframe : (exec built (.currentFrame hash)).currentFrame = some ⟨hash, none⟩ := rfl
  have hbest := run_bestRange hend_built hframe
  unfold showFrames
  rw [bind_eq, run_bind_ok exec hbuilt, bind_eq, exec_bind, run_step, bind_eq, run_bind_ok exec hbest]
  rfl

/-- A frame in reach is found again under its name. -/
theorem shown_of_reaching (hbuilt : (framesHash graphType).run exec components = (.ok hash, built))
    (hend : components.data.endTime endType = some endTime) (h : ∃ value ∈ hash, endTime.x < value.2.xMax) :
    Shown graphType endType components hash endTime.x := by
  obtain ⟨value, hvalue⟩ : ∃ value, hash.find? (fun value => endTime.x < value.2.xMax) = some value := by
    rw [← Option.isSome_iff_exists, List.find?_isSome]
    simpa using h
  have hrange : rangeFor hash endTime.x = value.1 := by
    unfold rangeFor
    rw [hvalue]
    rfl
  -- `setRange` looks the frame up again, by its name.
  obtain ⟨entry, hentry⟩ : ∃ entry, hash.find? (·.1 = value.1) = some entry := by
    rw [← Option.isSome_iff_exists, List.find?_isSome]
    exact ⟨value, List.mem_of_find?_eq_some hvalue, by simp⟩
  have hname : entry.1 = value.1 := by simpa using List.find?_some hentry
  let shown : Components := { built with currentFrame := some ⟨hash, some value.1⟩ }
  have hrun : setRange.run exec shown = ((⟨hash, some value.1⟩ : CurrentFrame).frameHash.elim (.error ⟨"yMin"⟩) .ok, shown) :=
    run_setRange rfl
  have hframe : (⟨hash, some value.1⟩ : CurrentFrame).frameHash = some entry.2 := by
    unfold CurrentFrame.frameHash
    rw [Option.bind_some, hentry]
    rfl
  rw [hframe] at hrun
  refine ⟨entry.2, shown, ?_, ?_, ?_⟩
  · rw [run_showFrames hbuilt hend, hvalue]
    exact hrun
  · rw [hrange]
  · rw [hrange, ← hname]
    exact List.mem_of_find?_eq_some hentry

/-- Where no frame reaches far enough, `setRange` raises. -/
theorem not_shown (hbuilt : (framesHash graphType).run exec components = (.ok hash, built))
    (hend : components.data.endTime endType = some endTime) (h : ∀ value ∈ hash, ¬endTime.x < value.2.xMax) :
    ¬Shown graphType endType components hash endTime.x := by
  rintro ⟨extremes, shown, hrun, -⟩
  have hnone : hash.find? (fun value => endTime.x < value.2.xMax) = none := by
    rw [List.find?_eq_none]
    simpa using h
  rw [run_showFrames hbuilt hend, hnone, run_setRange rfl] at hrun
  cases hrun

/-- There is a frame to show just when one of them reaches beyond the end time. -/
theorem best_range_iff (hbuilt : (framesHash graphType).run exec components = (.ok hash, built))
    (hend : components.data.endTime endType = some endTime) :
    Shown graphType endType components hash endTime.x ↔ ∃ value ∈ hash, endTime.x < value.2.xMax := by
  constructor
  · intro hshown
    by_contra hnone
    exact not_shown hbuilt hend (fun value hvalue hlt => hnone ⟨value, hvalue, hlt⟩) hshown
  · exact shown_of_reaching hbuilt hend

/-! ## A prediction beyond all frames -/

theorem edges_le {elements : List ButtonOptions} {bound : Int} (hedges : Edges elements components hash)
    (hbound : ∀ timeType, ∀ p ∈ components.data.arrays (futuresOf timeType), p.x ≤ bound) :
    ∀ value ∈ hash, value.2.xMax ≤ bound := by
  induction elements generalizing components hash with
  | nil =>
    obtain rfl := hedges
    simp
  | cons element elements ih =>
    obtain ⟨first, rest, p, rfl, hp, hx, hrest⟩ := hedges
    -- What a button takes out leaves no other times than those that were there.
    have hrest_bound := ih hrest fun timeType q hq => by
      rw [taken_arrays] at hq
      by_cases hsame : futuresOf timeType = futuresOf element.timeType
      · rw [hsame, Function.update_self] at hq
        exact hbound element.timeType q (List.mem_of_mem_eraseIdx hq)
      · rw [Function.update_of_ne hsame] at hq
        exact hbound timeType q hq
    intro value hvalue
    rcases List.mem_cons.1 hvalue with rfl | hvalue
    · rw [hx]
      exact hbound element.timeType p (List.mem_of_getElem? hp)
    · exact hrest_bound value hvalue

/-- Future dates at the times from 10 to 709. -/
def farDates : List (Point Int) := (List.range 700).map fun n : Nat => ⟨none, (n : Int) + 10, none, none⟩

theorem farDates_length : farDates.length = 700 := by
  unfold farDates
  rw [List.length_map, List.length_range]

theorem farDates_le {p : Point Int} (h : p ∈ farDates) : p.x ≤ 709 := by
  obtain ⟨n, hn, rfl⟩ := List.mem_map.1 h
  have hlt := List.mem_range.1 hn
  dsimp only
  omega

/-- A prediction for time 1000. -/
def farPrediction : Data where
  arrays
    | .daily_prices | .intraday_prices => [⟨some 1, 1, some 5, none⟩, ⟨some 2, 2, some 5, none⟩]
    | .future_days | .future_times => farDates
  predictions := []
  my_prediction := [⟨some 1, 1000, some 6, some "triangle"⟩]
  prediction := []
  predictionend := []

theorem farPrediction_prices (timeType : TimeType) :
    farPrediction.arrays (pricesOf timeType) = [⟨some 1, 1, some 5, none⟩, ⟨some 2, 2, some 5, none⟩] := by
  cases timeType <;> rfl

theorem farPrediction_futures (timeType : TimeType) : farPrediction.arrays (futuresOf timeType) = farDates := by
  cases timeType <;> simp only [farPrediction, futuresOf]

theorem farPrediction_enough : farPrediction.Enough where
  prices timeType := by simp [farPrediction_prices]
  increasing timeType := by simp [farPrediction_prices, Increasing]
  futures timeType := by
    rw [farPrediction_futures, farDates_length]
    cases timeType <;> decide

/-- The frames of the page with the far prediction end before it. -/
theorem farPrediction_frames : ∃ components hash built, (framesHash .stockGraph).run exec components = (.ok hash, built) ∧
    components.data.endTime .myPrediction = some ⟨some 1, 1000, some 6, some "triangle"⟩ ∧
      ∀ value ∈ hash, value.2.xMax ≤ 709 := by
  obtain ⟨components, -, hmade⟩ := launchLines_complete farPrediction .stockGraph
  obtain ⟨hash, hbuilt⟩ := framesHash_stockGraph hmade farPrediction_enough
  refine ⟨components, hash, _, hbuilt, by rw [hmade.data]; rfl, edges_le (framesHash_ok hbuilt).2 fun timeType p hp => ?_⟩
  rw [hmade.data, farPrediction_futures] at hp
  exact farDates_le hp

theorem best_range_iff_far : ∃ components hash built, (framesHash .stockGraph).run exec components = (.ok hash, built) ∧
    (Shown .stockGraph .myPrediction components hash 1000 ↔ ∃ value ∈ hash, 1000 < value.2.xMax) := by
  obtain ⟨components, hash, built, hbuilt, hend, -⟩ := farPrediction_frames
  exact ⟨components, hash, built, hbuilt, best_range_iff hbuilt hend⟩

/-- The prediction for time 1000 has no frame. -/
theorem no_frame_to_show : ¬∀ (graphType : Graph) (endType : EndType) (components built : Components)
    (hash : List (Button × Frame)) (endTime : Point Int), (framesHash graphType).run exec components = (.ok hash, built) →
      components.data.endTime endType = some endTime → Shown graphType endType components hash endTime.x := by
  intro hall
  obtain ⟨components, hash, built, hbuilt, hend, hbound⟩ := farPrediction_frames
  refine not_shown hbuilt hend (fun value hvalue hlt => ?_) (hall _ _ _ _ _ _ hbuilt hend)
  have hle := hbound value hvalue
  dsimp only at hlt
  omega

end MyStockIQ.Chart
