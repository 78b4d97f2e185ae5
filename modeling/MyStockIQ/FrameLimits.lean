import MyStockIQ.Consumed
import Mathlib.Algebra.Order.Ring.Rat
import Mathlib.Order.Bounds.Basic
/-!
# The lower and the upper edge of a frame

`yLimit` goes through the lines of a chart and keeps the furthest price. What others have
predicted counts only if it is not too far from the prices: less than half the lowest or
more than one and a half times the highest is left out. Then the edges are moved out
further, by a part of what the predictions added to the prices (`fits_of_call`). The
bounds are taken as they are here, where the browser rounds them to doubles; the prices,
which no bound is applied to, are in the frame in any case.
-/

open SharedStore Prog

namespace MyStockIQ.Chart

/-! ## Limits of sets of prices -/

variable {extreme : Extreme} {prices prices' : Set ℚ} {limit newLimit : Number}

/-- The prices of points. -/
def pricesIn (points : List (Point (Option ℚ))) : Set ℚ := {y | ∃ p ∈ points, p.y.getD 0 = y}

/-- One line of the loop of `yLimit`. -/
def Extreme.line (extreme : Extreme) (xMin xMax : Int) (limits : Option Number × Number)
    (line : Option (List (Point (Option ℚ))) × Callback) : Option Number × Number :=
  match line.1 with
  | none => limits
  | some points =>
    let (newLimit, buttonLimit) := extreme.callback limits.2 (limitedArray points xMin xMax) line.2
    (some (extreme.comparisonCb limits.1 newLimit), buttonLimit)

/-- What `yLimit` gives for the lines. -/
def TimeOptions.edge (options : TimeOptions) (xMin xMax : Int) (extreme : Extreme) : Number :=
  let limits := options.limitLines.foldl (extreme.line xMin xMax) (none, .nan)
  extreme.bufferMaker (limits.1.getD .nan) limits.2

/-- The prices of a line from the left edge to the right one. -/
def between (line : Option (List (Point (Option ℚ)))) (xMin xMax : Int) : Set ℚ :=
  pricesIn (limitedArray (line.getD []) xMin xMax)

/-- The prices that count, of lines after the first. -/
def Extreme.counted (extreme : Extreme) (lines : List (Option (List (Point (Option ℚ))) × Callback)) (xMin xMax : Int)
    (buttonLimit : ℚ) : Set ℚ :=
  {y | ∃ line ∈ lines, y ∈ between line.1 xMin xMax ∧ (line.2 = .lim → extreme.near (.finite buttonLimit) (.finite y))}

/-- The edges leave room for the prices, and for the prices of the other lines that count. -/
structure Fits (points : List (Point (Option ℚ))) (lines : List (Option (List (Point (Option ℚ))) × Callback))
    (frame : Frame) : Prop where
  low : ∃ lowest bottom, IsLeast (between (some points) frame.xMin frame.xMax) lowest ∧
    IsLeast (between (some points) frame.xMin frame.xMax ∪ Extreme.min.counted lines frame.xMin frame.xMax lowest) bottom ∧
      frame.yMin = .finite (bottom - (lowest - bottom) / 20)
  high : ∃ highest top, IsGreatest (insert 0 (between (some points) frame.xMin frame.xMax)) highest ∧
    IsGreatest (insert 0 (between (some points) frame.xMin frame.xMax ∪
      Extreme.max.counted lines frame.xMin frame.xMax highest)) top ∧
        frame.yMax = .finite (top + (top - highest) / 20)

/-- The price is between the lower and the upper edge. -/
def Frame.Has (frame : Frame) (y : ℚ) : Prop :=
  ∃ low high, frame.yMin = .finite low ∧ frame.yMax = .finite high ∧ low ≤ y ∧ y ≤ high

/-- A price of the first line, or of another: of those the others have predicted, if it is more than half of a
price shown and less than one and a half times one. -/
def Counts (points : List (Point (Option ℚ))) (lines : List (Option (List (Point (Option ℚ))) × Callback)) (frame : Frame)
    (y : ℚ) : Prop :=
  y ∈ between (some points) frame.xMin frame.xMax ∨ ∃ line ∈ lines, y ∈ between line.1 frame.xMin frame.xMax ∧
    (line.2 = .lim → (∃ shown ∈ between (some points) frame.xMin frame.xMax, shown / 2 < y) ∧
      ∃ shown ∈ between (some points) frame.xMin frame.xMax, y < 3 / 2 * shown)

theorem Fits.has {points : List (Point (Option ℚ))} {lines : List (Option (List (Point (Option ℚ))) × Callback)}
    {frame : Frame} (h : Fits points lines frame) {y : ℚ} (hy : Counts points lines frame y) : frame.Has y := by
  obtain ⟨lowest, bottom, hlowest, hbottom, hmin⟩ := h.low
  obtain ⟨highest, top, hhighest, htop, hmax⟩ := h.high
  refine ⟨_, _, hmin, hmax, ?_, ?_⟩
  · have hprices : bottom ≤ lowest := hbottom.2 (.inl hlowest.1)
    have hcounts : bottom ≤ y := by
      refine hbottom.2 (hy.imp_right ?_)
      rintro ⟨line, hline, hbetween, hnear⟩
      refine ⟨line, hline, hbetween, fun hlim => ?_⟩
      obtain ⟨⟨shown, hshown, hlt⟩, -⟩ := hnear hlim
      have hle := hlowest.2 hshown
      have hhalf : lowest * (1 / 2) < y := by linarith
      simpa [Extreme.near, scale, Number.gt] using hhalf
    linarith
  · have hprices : highest ≤ top := htop.2 (Set.insert_subset_insert Set.subset_union_left hhighest.1)
    have hcounts : y ≤ top := by
      refine htop.2 (.inr (hy.imp_right ?_))
      rintro ⟨line, hline, hbetween, hnear⟩
      refine ⟨line, hline, hbetween, fun hlim => ?_⟩
      obtain ⟨-, shown, hshown, hlt⟩ := hnear hlim
      have hle := hhighest.2 (.inr hshown)
      have hhalf : y < highest * (3 / 2) := by linarith
      simpa [Extreme.near, scale, Number.gt] using hhalf
    linarith

/-! ## Every call -/

/-- What a call leaves: the prices of the server, and the lines that are arrays of the data. -/
structure Kept (server : Data) (components : Components) : Prop where
  lined : components.Lined
  prices : ∀ timeType, components.data.arrays (pricesOf timeType) = server.arrays (pricesOf timeType)

/-- The statements that leave these. -/
def Keeps : Stmt → Prop
  | .splice series _ => ∀ timeType, series ≠ pricesOf timeType
  | .lines _ => False
  | .line _ name line => name ≠ .prices ∧ name ≠ .forward_dates ∧ ∀ series, line.lineArray ≠ some (.shared series)
  | _ => True

/-- A statement that reads, or takes some of the future dates away. -/
def Takes : Stmt → Prop
  | .read => True
  | .splice series _ => ∀ timeType, series ≠ pricesOf timeType
  | _ => False

theorem Takes.keeps {stmt : Stmt} (h : Takes stmt) : Keeps stmt := by
  cases stmt with
  | read => trivial
  | splice series start => exact h
  | _ => exact h.elim

variable {server : Data} {graphType : Graph} {components components' : Components} {hash : List (Button × Frame)}

theorem Kept.exec (h : Kept server components) {stmt : Stmt} (hkeeps : Keeps stmt) : Kept server (exec components stmt) := by
  cases stmt with
  | splice series start =>
    refine ⟨⟨h.lined.prices, h.lined.forward_dates, h.lined.other⟩, fun timeType => ?_⟩
    rw [← h.prices timeType]
    exact Function.update_of_ne (hkeeps timeType).symm _ _
  | lines lines => exact hkeeps.elim
  | line timeType name line =>
    obtain ⟨hprices, hforward, hown⟩ := hkeeps
    refine ⟨⟨?_, ?_, ?_⟩, h.prices⟩
    · intro timeType'
      rw [lines_line, if_neg (by simp [hprices.symm])]
      exact h.lined.prices timeType'
    · intro timeType'
      rw [lines_line, if_neg (by simp [hforward.symm])]
      exact h.lined.forward_dates timeType'
    · intro timeType' name' line' series hprices' hforward' hline
      rw [lines_line] at hline
      split at hline
      · obtain rfl := Option.some.inj hline
        exact hown series
      · exact h.lined.other timeType' name' line' series hprices' hforward' hline
  | _ => exact ⟨⟨h.lined.prices, h.lined.forward_dates, h.lined.other⟩, h.prices⟩

theorem only_read {A : Stmt → Prop} (hread : A .read) {α : Type} (f : Components → Except TypeError α) :
    (read f).Only A := by
  refine .bind ((only_query _ _).2 hread) fun result => ?_
  cases result with
  | ok a => trivial
  | error e => trivial

theorem only_createPredictionLine (timeType : TimeType) {name : LineName} (hprices : name ≠ .prices)
    (hforward : name ≠ .forward_dates) : (createPredictionLine timeType name).Only Keeps := by
  have hown (lineArray : Option (List (Point (Option ℚ)))) (index : Nat) :
      (Prog.exec (.line timeType name ⟨lineArray.map .own, index⟩) : Script Unit).Only Keeps :=
    (only_exec _).2 ⟨hprices, hforward, by cases lineArray <;> simp⟩
  refine .bind ((only_query _ _).2 trivial) fun found => ?_
  dsimp only
  split
  · split
    · exact hown (some _) _
    · exact hown none _
  · split
    · exact hown (some _) _
    · exact hown none _

theorem only_myPredictionLines : myPredictionLines.Only Keeps := by
  refine .bind (only_createPredictionLine _ (by decide) (by decide)) fun _ => ?_
  refine .bind (only_createPredictionLine _ (by decide) (by decide)) fun _ => ?_
  exact .bind (only_read trivial _) fun _ => only_read trivial _

theorem only_framesHash (graphType : Graph) : (framesHash graphType).Only Takes := by
  refine .bind (only_read trivial _) fun options => ?_
  induction buttons with
  | nil => trivial
  | cons element elements ih =>
    have hfirstX (limit : List (Point Int)) : (firstX limit).Only Takes := by cases limit <;> trivial
    have hlimit (xMin xMax : Int) (extreme : Extreme) : (yLimit graphType element.timeType xMin xMax extreme).Only Takes :=
      .bind (only_read trivial _) fun _ => trivial
    have hframe : (frame graphType (fun timeType => (options timeType).startPoint) element).Only Takes := by
      refine .bind ⟨trivial, fun _ => hfirstX _⟩ fun xMin => ?_
      refine .bind ⟨fun timeType => (futuresOf_ne timeType element.timeType).symm, fun _ => hfirstX _⟩ fun xMax => ?_
      exact .bind (hlimit xMin xMax .min) fun _ => .bind (hlimit xMin xMax .max) fun _ => trivial
    exact .bind hframe fun _ => .bind ih fun _ => trivial

theorem only_setRange : setRange.Only Takes := by
  refine .bind (only_read trivial _) fun currentFrame => ?_
  cases currentFrame.frameHash with
  | none => trivial
  | some frame => trivial

theorem only_bestRange (endType : EndType) : (bestRange endType).Only Takes := by
  refine .bind ((only_query _ _).2 trivial) fun endTime => ?_
  cases endTime with
  | none => trivial
  | some endTime => exact .bind (only_read trivial _) fun _ => trivial

theorem only_showFrames (graphType : Graph) (endType : EndType) : (showFrames graphType endType).Only Keeps := by
  refine .bind ((only_framesHash graphType).mono fun _ => Takes.keeps) fun hash => ?_
  refine .bind ⟨trivial, fun _ => trivial⟩ fun _ => ?_
  refine .bind ((only_bestRange endType).mono fun _ => Takes.keeps) fun best => ?_
  exact .bind ⟨trivial, fun _ => trivial⟩ fun _ => only_setRange.mono fun _ => Takes.keeps

theorem only_lines (action : Action) : action.lines.Only Keeps := by
  cases action with
  | inputPrediction endTime endPrice predictionId marker =>
    exact .bind ⟨trivial, fun _ => trivial⟩ fun _ => only_myPredictionLines
  | removePrediction => exact .bind ⟨trivial, fun _ => trivial⟩ fun _ => only_myPredictionLines
  | buttonClick button => exact ⟨trivial, fun _ => trivial⟩

theorem only_script (action : Action) : action.script.Only Keeps := by
  refine .bind (only_lines action) fun _ => ?_
  cases action with
  | buttonClick button => exact only_setRange.mono fun _ => Takes.keeps
  | _ => exact only_showFrames _ _

theorem Kept.run (h : Kept server components) {α : Type} {script : Script α} (honly : script.Only Keeps) :
    Kept server (script.run Chart.exec components).2 :=
  honly.run_inv (fun _ _ hkeeps hkept => hkept.exec hkeeps) h

/-- The lines as `launch` makes them. -/
theorem kept_launchLines {components : Components}
    (h : (launchLines graphType).run exec (page server) = (.ok (), components)) : Kept server components := by
  obtain ⟨made, hlines, hmade⟩ := launchLines_complete server graphType
  obtain ⟨-, rfl⟩ := Prod.mk.inj (hlines.symm.trans h)
  exact ⟨hmade.lined, fun timeType => by rw [hmade.data]⟩

theorem Reached.kept (h : Reached server graphType components) : Kept server components := by
  induction h with
  | @launch graphType extremes components hrun =>
    obtain ⟨_, middle, hlines, hshow⟩ := run_bind_inv exec hrun
    have hkept := (kept_launchLines hlines).run (only_showFrames graphType (endTypeOf graphType))
    rwa [hshow] at hkept
  | click _ button ih => exact ih.run (only_script _)
  | action _ action ih => exact ih.run (only_script action)

theorem Called.kept (h : Called server graphType components) : Kept server components := by
  cases h with
  | launch hrun => exact kept_launchLines hrun
  | action hreached action hcalls hlines =>
    have hkept := hreached.kept.run (only_lines action)
    rwa [hlines] at hkept

/-! ## The frames -/

def Button.timeType : Button → TimeType
  | .oneDay | .fiveDays => .intraday
  | _ => .daily

end MyStockIQ.Chart
