import MyStockIQ.Frames
/-!
# Runs of `framesHash`

The loop over the buttons goes on with the arrays as the buttons before left them: each
takes its right edge out of one of the two arrays of future dates (`Edges`). Otherwise
`framesHash` only reads.
-/

open SharedStore Prog JavaScript

namespace MyStockIQ.Chart

/-! ## One button -/

/-- The components after the array of a button has lost its right edge. -/
abbrev taken (components : Components) (element : ButtonOptions) : Components :=
  exec components (.splice (futuresOf element.timeType) element.forwardInterval)

theorem taken_arrays (components : Components) (element : ButtonOptions) :
    (taken components element).data.arrays = Function.update components.data.arrays (futuresOf element.timeType)
      ((components.data.arrays (futuresOf element.timeType)).eraseIdx element.forwardInterval) := by
  rw [← splice_left]
  rfl

theorem run_firstX (limit : List (Point Int)) (components : Components) :
    (firstX limit).run exec components = ((limit.head?.elim (.error ⟨"x"⟩) fun p => .ok p.x), components) := by
  cases limit with
  | nil => rfl
  | cons p rest => rfl

theorem run_xLimit_backward (components : Components) (timeType : TimeType) (n : Nat) (startPoint : Option ℚ) :
    (xLimit timeType n .backward startPoint).run exec components =
      ((backward (components.data.arrays (pricesOf timeType)) n startPoint).head?.elim (.error ⟨"x"⟩) (fun p => .ok p.x),
        components) :=
  run_firstX _ components

theorem run_xLimit_forward (components : Components) (element : ButtonOptions) (startPoint : Option ℚ) :
    (xLimit element.timeType element.forwardInterval .forward startPoint).run exec components =
      ((components.data.arrays (futuresOf element.timeType))[element.forwardInterval]?.elim (.error ⟨"x"⟩) (fun p => .ok p.x),
        taken components element) := by
  have hhead (o : Option (Point Int)) : o.toList.head? = o := by cases o <;> rfl
  refine (run_firstX _ (taken components element)).trans ?_
  dsimp only
  rw [splice_removed, hhead]

theorem run_read {α : Type} (f : Components → Except TypeError α) (components : Components) :
    (read f).run exec components = (f components, components) := by
  unfold read
  rw [bind_eq, query_bind, run_step]
  cases f components with
  | ok a => rfl
  | error e => rfl

/-- A limit of the prices is found whenever the lines are. -/
theorem run_yLimit (components : Components) (graphType : Graph) (timeType : TimeType) (xMin xMax : Int)
    (limitType : Extreme) : ∃ result,
    (yLimit graphType timeType xMin xMax limitType).run exec components = (result, components) ∧
      ∀ options, components.options graphType = .ok options → ∃ limit, result = .ok limit := by
  unfold yLimit
  rw [bind_eq, run_bind, run_read]
  cases hoptions : components.options graphType with
  | error e => exact ⟨_, rfl, fun _ h => by cases h⟩
  | ok options => exact ⟨_, rfl, fun _ _ => ⟨_, rfl⟩⟩

/-- The frame of a button has the point it took out for its right edge. -/
theorem run_frame_ok {components components' : Components} {graphType : Graph} {startPoint : TimeType → Option ℚ}
    {element : ButtonOptions} {hash : Frame}
    (h : (frame graphType startPoint element).run exec components = (.ok hash, components')) :
    components' = taken components element ∧
      ∃ p, (components.data.arrays (futuresOf element.timeType))[element.forwardInterval]? = some p ∧ hash.xMax = p.x := by
  unfold frame at h
  obtain ⟨xMin, middle, hxMin, h⟩ := run_bind_inv exec h
  rw [run_xLimit_backward] at hxMin
  obtain ⟨-, rfl⟩ := Prod.mk.inj hxMin
  obtain ⟨xMax, after, hxMax, h⟩ := run_bind_inv exec h
  rw [run_xLimit_forward] at hxMax
  obtain ⟨hright, rfl⟩ := Prod.mk.inj hxMax
  -- The limits of the prices only read.
  obtain ⟨yMin, store, hyMin, h⟩ := run_bind_inv exec h
  obtain ⟨_, hrun, -⟩ := run_yLimit (taken components element) graphType element.timeType xMin xMax .min
  obtain rfl := (Prod.mk.inj (hrun.symm.trans hyMin)).2
  obtain ⟨yMax, store, hyMax, h⟩ := run_bind_inv exec h
  obtain ⟨_, hrun, -⟩ := run_yLimit (taken components element) graphType element.timeType xMin xMax .max
  obtain rfl := (Prod.mk.inj (hrun.symm.trans hyMax)).2
  cases h
  refine ⟨rfl, ?_⟩
  cases hp : (components.data.arrays (futuresOf element.timeType))[element.forwardInterval]? with
  | none =>
    rw [hp] at hright
    cases hright
  | some p =>
    rw [hp] at hright
    exact ⟨p, rfl, (Except.ok.inj hright).symm⟩

/-- A button whose edges are there has a frame. -/
theorem run_frame {components : Components} {graphType : Graph} {startPoint : TimeType → Option ℚ}
    {element : ButtonOptions} {left right : Point Int} {options : TimeType → TimeOptions}
    (hleft : (backward (components.data.arrays (pricesOf element.timeType)) element.backInterval
      (startPoint element.timeType)).head? = some left)
    (hright : (components.data.arrays (futuresOf element.timeType))[element.forwardInterval]? = some right)
    (hoptions : (taken components element).options graphType = .ok options) :
    ∃ hash, (frame graphType startPoint element).run exec components = (.ok hash, taken components element) := by
  have hxMin := run_xLimit_backward components element.timeType element.backInterval (startPoint element.timeType)
  rw [hleft] at hxMin
  have hxMax := run_xLimit_forward components element (startPoint element.timeType)
  rw [hright] at hxMax
  obtain ⟨_, hyMin, hlimit⟩ := run_yLimit (taken components element) graphType element.timeType left.x right.x .min
  obtain ⟨yMin, rfl⟩ := hlimit options hoptions
  obtain ⟨_, hyMax, hlimit⟩ := run_yLimit (taken components element) graphType element.timeType left.x right.x .max
  obtain ⟨yMax, rfl⟩ := hlimit options hoptions
  refine ⟨⟨left.x, right.x, yMin, yMax⟩, ?_⟩
  unfold frame
  rw [bind_eq, run_bind_ok exec hxMin, bind_eq, run_bind_ok exec hxMax, bind_eq, run_bind_ok exec hyMin, bind_eq,
    run_bind_ok exec hyMax]
  rfl

/-! ## All buttons -/

/-- The components after some buttons. -/
def takenAll (elements : List ButtonOptions) (components : Components) : Components := elements.foldl taken components

/-- The right edges of the frames come from the arrays as the buttons before left them. -/
def Edges : List ButtonOptions → Components → List (Button × Frame) → Prop
  | [], _, hash => hash = []
  | element :: elements, components, hash => ∃ first rest p, hash = (element.name, first) :: rest ∧
      (components.data.arrays (futuresOf element.timeType))[element.forwardInterval]? = some p ∧ first.xMax = p.x ∧
        Edges elements (taken components element) rest

theorem frames_ok {graphType : Graph} {startPoint : TimeType → Option ℚ} {elements : List ButtonOptions}
    {components components' : Components} {hash : List (Button × Frame)}
    (h : (frames graphType startPoint elements).run exec components = (.ok hash, components')) :
    components' = takenAll elements components ∧ Edges elements components hash := by
  induction elements generalizing components components' hash with
  | nil =>
    cases h
    exact ⟨rfl, rfl⟩
  | cons element elements ih =>
    obtain ⟨first, middle, hfirst, h⟩ := run_bind_inv exec h
    obtain ⟨rfl, p, hp, hx⟩ := run_frame_ok hfirst
    obtain ⟨rest, after, hrest, h⟩ := run_bind_inv exec h
    obtain ⟨rfl, hedges⟩ := ih hrest
    cases h
    exact ⟨rfl, first, rest, p, rfl, hp, hx, hedges⟩

theorem edges_names {elements : List ButtonOptions} {components : Components} {hash : List (Button × Frame)}
    (h : Edges elements components hash) : hash.map (·.1) = elements.map (·.name) := by
  induction elements generalizing components hash with
  | nil =>
    obtain rfl := h
    rfl
  | cons element elements ih =>
    obtain ⟨first, rest, p, rfl, -, -, hrest⟩ := h
    rw [List.map_cons, List.map_cons, ih hrest]

/-- A call that completes has taken the right edges out of the arrays. -/
theorem framesHash_ok {graphType : Graph} {components components' : Components} {hash : List (Button × Frame)}
    (h : (framesHash graphType).run exec components = (.ok hash, components')) :
    components' = takenAll buttons components ∧ Edges buttons components hash := by
  obtain ⟨options, middle, hoptions, h⟩ := run_bind_inv exec h
  rw [run_read] at hoptions
  obtain rfl := (Prod.mk.inj hoptions).2
  exact frames_ok h

/-! ## Lines that are the arrays of the data -/

/-- The lines as `defaultProcessor` and `createPredictionLine` make them. -/
structure Components.Lined (components : Components) : Prop where
  prices : ∀ timeType, components.lines timeType .prices = some ⟨some (.shared (pricesOf timeType)), 0⟩
  forward_dates : ∀ timeType, components.lines timeType .forward_dates = some ⟨some (.shared (futuresOf timeType)), 1⟩
  other : ∀ timeType name line series, name ≠ .prices → name ≠ .forward_dates →
    components.lines timeType name = some line → line.lineArray ≠ some (.shared series)

theorem futuresOf_ne (timeType timeType' : TimeType) : pricesOf timeType ≠ futuresOf timeType' := by
  cases timeType <;> cases timeType' <;> decide

/-- What is taken out of the future dates is not missed in the other lines. -/
theorem lineArray_taken {components : Components} (h : components.Lined) (element : ButtonOptions) (timeType : TimeType)
    {name : LineName} (hname : name ≠ .forward_dates) :
    (taken components element).lineArray timeType name = components.lineArray timeType name := by
  have hlines : (taken components element).lines = components.lines := rfl
  unfold Components.lineArray
  rw [hlines]
  cases hline : components.lines timeType name with
  | none => rfl
  | some line =>
    obtain ⟨lineArray, index⟩ := line
    cases lineArray with
    | none => rfl
    | some array =>
      cases array with
      | own points => rfl
      | shared series =>
        -- Of the other lines only the prices share an array, and it is not the one spliced.
        by_cases hprices : name = .prices
        · subst hprices
          have hsame := hline.symm.trans (h.prices timeType)
          obtain ⟨rfl, -⟩ : series = pricesOf timeType ∧ index = 0 := by simpa using hsame
          simp only [Components.points, Option.map_some, taken_arrays,
            Function.update_of_ne (futuresOf_ne timeType element.timeType)]
        · exact absurd rfl (h.other timeType name _ series hprices hname hline)

theorem options_taken {components : Components} (h : components.Lined) (element : ButtonOptions) (graphType : Graph) :
    (taken components element).options graphType = components.options graphType := by
  have hline (timeType : TimeType) (name : LineName) (hname : name ≠ .forward_dates) :
      (taken components element).lineArray timeType name = components.lineArray timeType name :=
    lineArray_taken h element timeType hname
  have htime (timeType : TimeType) :
      (taken components element).timeOptions timeType graphType = components.timeOptions timeType graphType := by
    cases graphType with
    | stockGraph =>
      unfold Components.timeOptions
      simp only [hline timeType .prices (by decide), hline timeType .predictions (by decide),
        hline timeType .myPrediction (by decide)]
    | predictionGraph =>
      unfold Components.timeOptions
      simp only [hline timeType .prices (by decide), hline timeType .prediction (by decide),
        hline timeType .predictionend (by decide)]
  unfold Components.options
  rw [htime, htime]

theorem Components.Lined.taken {components : Components} (h : components.Lined) (element : ButtonOptions) :
    (Chart.taken components element).Lined := ⟨h.prices, h.forward_dates, h.other⟩

/-- The arrays reach far enough for the buttons, one after the other. -/
structure Reaching (components : Components) (startPoint : TimeType → Option ℚ) (elements : List ButtonOptions) : Prop where
  left : ∀ element ∈ elements, ∃ p, (backward (components.data.arrays (pricesOf element.timeType)) element.backInterval
    (startPoint element.timeType)).head? = some p
  right : ∀ element ∈ elements,
    element.forwardInterval + elements.length ≤ (components.data.arrays (futuresOf element.timeType)).length

theorem Reaching.rest {components : Components} {startPoint : TimeType → Option ℚ} {element : ButtonOptions}
    {elements : List ButtonOptions} (h : Reaching components startPoint (element :: elements)) :
    Reaching (taken components element) startPoint elements where
  left other hother := by
    rw [taken_arrays, Function.update_of_ne (futuresOf_ne other.timeType element.timeType)]
    exact h.left other (List.mem_cons_of_mem _ hother)
  right other hother := by
    have hlong := h.right other (List.mem_cons_of_mem _ hother)
    rw [List.length_cons] at hlong
    rw [taken_arrays]
    by_cases hsame : futuresOf other.timeType = futuresOf element.timeType
    · rw [hsame] at hlong ⊢
      rw [Function.update_self, List.length_eraseIdx]
      split <;> omega
    · rw [Function.update_of_ne hsame]
      omega

theorem frames_complete {components : Components} {graphType : Graph} {startPoint : TimeType → Option ℚ}
    {elements : List ButtonOptions} {options : TimeType → TimeOptions} (hlined : components.Lined)
    (hoptions : components.options graphType = .ok options) (h : Reaching components startPoint elements) :
    ∃ hash, (frames graphType startPoint elements).run exec components = (.ok hash, takenAll elements components) := by
  induction elements generalizing components with
  | nil => exact ⟨[], rfl⟩
  | cons element elements ih =>
    obtain ⟨left, hleft⟩ := h.left element List.mem_cons_self
    have hlong := h.right element List.mem_cons_self
    rw [List.length_cons] at hlong
    have hlt : element.forwardInterval < (components.data.arrays (futuresOf element.timeType)).length := by omega
    have hright := List.getElem?_eq_getElem hlt
    -- The next button finds the options as they were.
    have hoptions_taken := (options_taken hlined element graphType).trans hoptions
    obtain ⟨first, hfirst⟩ := run_frame hleft hright hoptions_taken
    obtain ⟨rest, hrest⟩ := ih (hlined.taken element) hoptions_taken h.rest
    refine ⟨(element.name, first) :: rest, ?_⟩
    unfold frames
    rw [bind_eq, run_bind_ok exec hfirst, bind_eq, run_bind_ok exec hrest]
    rfl

/-- `framesHash` completes if the arrays reach far enough. -/
theorem framesHash_completes {components : Components} {graphType : Graph} {options : TimeType → TimeOptions}
    (hlined : components.Lined) (hoptions : components.options graphType = .ok options)
    (h : Reaching components (fun timeType => (options timeType).startPoint) buttons) :
    ∃ hash, (framesHash graphType).run exec components = (.ok hash, takenAll buttons components) := by
  have hread := run_read (fun components => components.options graphType) components
  rw [hoptions] at hread
  unfold framesHash
  rw [bind_eq, run_bind_ok exec hread]
  exact frames_complete hlined hoptions h

end MyStockIQ.Chart
