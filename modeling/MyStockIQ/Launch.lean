import MyStockIQ.LeftEdge
/-!
# Launching a chart

`launch` makes the lines and then asks for the frames. Making the lines always works;
the frames are there if the arrays of the data reach far enough.
-/

open SharedStore Prog

namespace MyStockIQ.Chart

/-- The lines of the data, and these besides. -/
structure Made (data : Data) (names : List (TimeType × LineName)) (components : Components) : Prop where
  data : components.data = data
  lined : components.Lined
  there : ∀ line ∈ names, (components.lines line.1 line.2).isSome

variable {data : Data} {names : List (TimeType × LineName)} {components : Components}

theorem made_defaultProcessor (data : Data) :
    ∃ components, defaultProcessor.run exec (page data) = (.ok (), components) ∧ Made data [] components := by
  refine ⟨_, rfl, rfl, ⟨fun _ => rfl, fun _ => rfl, ?_⟩, by simp⟩
  intro timeType name line series hprices hforward hline
  cases name with
  | prices => exact absurd rfl hprices
  | forward_dates => exact absurd rfl hforward
  | _ => cases hline

theorem lines_line (components : Components) (timeType timeType' : TimeType) (name name' : LineName) (line : Line) :
    (exec components (.line timeType name line)).lines timeType' name' =
      if timeType' = timeType ∧ name' = name then some line else components.lines timeType' name' := by
  unfold exec
  dsimp only
  by_cases htime : timeType' = timeType
  · subst htime
    rw [Function.update_self, Function.update_apply]
    simp
  · rw [Function.update_of_ne htime]
    simp [htime]

/-- `createPredictionLine` makes a line with points of its own. -/
theorem run_createPredictionLine (timeType : TimeType) (name : LineName) (components : Components) :
    ∃ (points : Option (List (Point (Option ℚ)))) (index : Nat), (createPredictionLine timeType name).run exec components =
      (.ok (), exec components (.line timeType name ⟨points.map .own, index⟩)) := by
  unfold createPredictionLine
  rw [bind_eq, query_bind, run_step]
  dsimp only
  split
  · split
    · exact ⟨some _, _, rfl⟩
    · exact ⟨none, _, rfl⟩
  · split
    · exact ⟨some _, _, rfl⟩
    · exact ⟨none, _, rfl⟩

theorem made_line (h : Made data names components) (timeType : TimeType) (name : LineName) (hprices : name ≠ .prices)
    (hforward : name ≠ .forward_dates) : ∃ components',
      (createPredictionLine timeType name).run exec components = (.ok (), components') ∧
        Made data ((timeType, name) :: names) components' := by
  obtain ⟨points, index, hrun⟩ := run_createPredictionLine timeType name components
  refine ⟨_, hrun, h.data, ⟨?_, ?_, ?_⟩, ?_⟩
  · intro timeType'
    rw [lines_line, if_neg (by simp [hprices.symm])]
    exact h.lined.prices timeType'
  · intro timeType'
    rw [lines_line, if_neg (by simp [hforward.symm])]
    exact h.lined.forward_dates timeType'
  · intro timeType' name' line series hprices' hforward' hline
    rw [lines_line] at hline
    -- The new line has points of its own, and the other lines are as before.
    split at hline
    · obtain rfl := Option.some.inj hline
      cases points <;> simp
    · exact h.lined.other timeType' name' line series hprices' hforward' hline
  · intro line hline
    rw [lines_line]
    split
    · rfl
    · next hother =>
      rcases List.mem_cons.1 hline with rfl | hmem
      · exact absurd ⟨rfl, rfl⟩ hother
      · exact h.there line hmem

theorem run_removeOverlapping (h : Made data names components) (hintraday : (.intraday, .myPrediction) ∈ names)
    (hdaily : (.daily, .myPrediction) ∈ names) : removeOverlapping.run exec components = (.ok (), components) := by
  have hthere := h.there _ hintraday
  have hthere' := h.there _ hdaily
  unfold removeOverlapping
  rw [run_read]
  simp only [Option.isNone_iff_eq_none, ← Option.not_isSome_iff_eq_none, Bool.or_eq_true, hthere, hthere', not_true,
    or_self, if_false]

/-- The prediction lines a graph has. -/
def madeLines : Graph → List (TimeType × LineName)
  | .stockGraph => [(.intraday, .myPrediction), (.daily, .myPrediction), (.intraday, .predictions), (.daily, .predictions)]
  | .predictionGraph =>
    [(.intraday, .predictionend), (.daily, .predictionend), (.intraday, .prediction), (.daily, .prediction)]

/-- The lines are always made. -/
theorem launchLines_complete (data : Data) (graphType : Graph) :
    ∃ components, (launchLines graphType).run exec (page data) = (.ok (), components) ∧
      Made data (madeLines graphType) components := by
  obtain ⟨start, hstart, hmade⟩ := made_defaultProcessor data
  cases graphType with
  | stockGraph =>
    obtain ⟨c₁, h₁, hmade⟩ := made_line hmade .daily .predictions (by decide) (by decide)
    obtain ⟨c₂, h₂, hmade⟩ := made_line hmade .intraday .predictions (by decide) (by decide)
    obtain ⟨c₃, h₃, hmade⟩ := made_line hmade .daily .myPrediction (by decide) (by decide)
    obtain ⟨c₄, h₄, hmade⟩ := made_line hmade .intraday .myPrediction (by decide) (by decide)
    have hremove := run_removeOverlapping hmade (by decide) (by decide)
    refine ⟨c₄, ?_, hmade⟩
    unfold launchLines myPredictionLines
    simp only [bind_eq]
    rw [run_bind_ok exec hstart, run_bind_ok exec h₁, run_bind_ok exec h₂, run_bind_ok exec h₃, run_bind_ok exec h₄,
      run_bind_ok exec hremove, hremove]
  | predictionGraph =>
    obtain ⟨c₁, h₁, hmade⟩ := made_line hmade .daily .prediction (by decide) (by decide)
    obtain ⟨c₂, h₂, hmade⟩ := made_line hmade .intraday .prediction (by decide) (by decide)
    obtain ⟨c₃, h₃, hmade⟩ := made_line hmade .daily .predictionend (by decide) (by decide)
    obtain ⟨c₄, h₄, hmade⟩ := made_line hmade .intraday .predictionend (by decide) (by decide)
    refine ⟨c₄, ?_, hmade⟩
    unfold launchLines
    simp only [bind_eq]
    rw [run_bind_ok exec hstart, run_bind_ok exec h₁, run_bind_ok exec h₂, run_bind_ok exec h₃, h₄]

/-! ## Data that reaches far enough -/

/-- The furthest interval a button of the time type looks forward. -/
def furthest : TimeType → Nat
  | .daily => 600
  | .intraday => 195

/-- There are prices on both charts, their times go up, and there are more future dates than the buttons need
and take away. -/
structure Data.Enough (data : Data) : Prop where
  prices : ∀ timeType, 2 ≤ (data.arrays (pricesOf timeType)).length
  increasing : ∀ timeType, Increasing (data.arrays (pricesOf timeType))
  futures : ∀ timeType, furthest timeType + buttons.length ≤ (data.arrays (futuresOf timeType)).length

theorem lineArray_prices (h : Made data names components) (timeType : TimeType) :
    components.lineArray timeType .prices =
      .ok (some ((data.arrays (pricesOf timeType)).map fun p => { p with x := some (p.x : ℚ) })) := by
  unfold Components.lineArray
  rw [h.lined.prices]
  dsimp only
  rw [Option.map_some, Components.points, h.data]

theorem lineArray_there (h : Made data names components) (timeType : TimeType) (name : LineName)
    (hname : (timeType, name) ∈ names) : ∃ points, components.lineArray timeType name = .ok points := by
  obtain ⟨line, hline⟩ := Option.isSome_iff_exists.1 (h.there _ hname)
  unfold Components.lineArray
  rw [hline]
  exact ⟨_, rfl⟩

/-- The charts of the stock page start at the last price. -/
theorem timeOptions_stockGraph (h : Made data (madeLines .stockGraph) components) (timeType : TimeType) {last : Point Int}
    (hlast : (data.arrays (pricesOf timeType)).getLast? = some last) :
    ∃ options, components.timeOptions timeType .stockGraph = .ok options ∧ options.startPoint = some (last.x : ℚ) := by
  have hprices := lineArray_prices h timeType
  obtain ⟨predictions, hpredictions⟩ := lineArray_there h timeType .predictions (by cases timeType <;> decide)
  obtain ⟨myPrediction, hmyPrediction⟩ := lineArray_there h timeType .myPrediction (by cases timeType <;> decide)
  have hstart : pointX "last" List.getLast?
      (some ((data.arrays (pricesOf timeType)).map fun p => { p with x := some (p.x : ℚ) })) = .ok (some (last.x : ℚ)) := by
    unfold pointX
    dsimp only
    rw [List.getLast?_map, hlast]
    rfl
  unfold Components.timeOptions
  simp only [hprices, hpredictions, hmyPrediction, Bind.bind, Except.bind, hstart]
  exact ⟨_, rfl, rfl⟩

/-- Launched with enough data, the stock page has frames. -/
theorem framesHash_stockGraph (hmade : Made data (madeLines .stockGraph) components) (h : data.Enough) :
    ∃ hash, (framesHash .stockGraph).run exec components = (.ok hash, takenAll buttons components) := by
  have hlast (timeType : TimeType) : ∃ last, (data.arrays (pricesOf timeType)).getLast? = some last := by
    have hne : data.arrays (pricesOf timeType) ≠ [] := List.ne_nil_of_length_pos (by have := h.prices timeType; omega)
    exact ⟨_, List.getLast?_eq_some_getLast hne⟩
  have htime (timeType : TimeType) : ∃ options, components.timeOptions timeType .stockGraph = .ok options ∧
      ∃ last, (data.arrays (pricesOf timeType)).getLast? = some last ∧ options.startPoint = some (last.x : ℚ) := by
    obtain ⟨last, hlast⟩ := hlast timeType
    obtain ⟨options, hoptions, hstart⟩ := timeOptions_stockGraph hmade timeType hlast
    exact ⟨options, hoptions, last, hlast, hstart⟩
  obtain ⟨daily, hdaily, hdaily_start⟩ := htime .daily
  obtain ⟨intraday, hintraday, hintraday_start⟩ := htime .intraday
  obtain ⟨options, hoptions, hstart⟩ : ∃ options, components.options .stockGraph = .ok options ∧
      ∀ timeType, ∃ last, (data.arrays (pricesOf timeType)).getLast? = some last ∧
        (options timeType).startPoint = some (last.x : ℚ) := by
    unfold Components.options
    rw [hdaily, hintraday]
    refine ⟨_, rfl, fun timeType => ?_⟩
    cases timeType with
    | daily => exact hdaily_start
    | intraday => exact hintraday_start
  refine framesHash_completes hmade.lined hoptions ⟨fun element hmem => ?_, fun element hmem => ?_⟩
  · have hall : ∀ element ∈ buttons, 1 ≤ element.backInterval := by decide
    obtain ⟨last, hlast, hstart⟩ := hstart element.timeType
    rw [hmade.data, hstart]
    exact backward_last (h.increasing _) (h.prices _) hlast (hall element hmem)
  · have hall : ∀ element ∈ buttons, element.forwardInterval ≤ furthest element.timeType := by decide
    rw [hmade.data]
    exact (Nat.add_le_add_right (hall element hmem) _).trans (h.futures element.timeType)

end MyStockIQ.Chart
