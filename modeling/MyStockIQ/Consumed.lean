import MyStockIQ.BestRange
import Mathlib.Data.List.NodupEquivFin
/-!
# What `framesHash` takes from the data

`splice` returns the right edge of a frame by taking it out of the array of future dates.
That array is the data and the line of the chart: each call takes two of the times and five
of the days away, and looks up all but the first edge of each kind in what is left
(`frames_consumed`).
-/

open SharedStore Prog

namespace MyStockIQ.Chart

/-! ## Calls of `framesHash` -/

/-- The components after `launch` and some actions of the user. A script that raised has still
done what came before; without a launch there is nothing to act on. -/
inductive Reached (server : Data) : Graph → Components → Prop where
  | launch {graphType : Graph} {extremes : Frame} {components : Components}
      (h : (launch graphType).run exec (page server) = (.ok extremes, components)) : Reached server graphType components
  | click {graphType : Graph} {components : Components} (h : Reached server graphType components) (button : Button) :
      Reached server graphType ((Action.buttonClick button).script.run exec components).2
  | action {components : Components} (h : Reached server .stockGraph components) (action : Action) :
      Reached server .stockGraph (action.script.run exec components).2

/-- The components with which `launch`, `inputPrediction` or `removePrediction` calls `framesHash`. -/
inductive Called (server : Data) : Graph → Components → Prop where
  | launch {graphType : Graph} {components : Components}
      (h : (launchLines graphType).run exec (page server) = (.ok (), components)) : Called server graphType components
  | action {components components' : Components} (h : Reached server .stockGraph components) (action : Action)
      (hcalls : ∀ button, action ≠ .buttonClick button) (hlines : action.lines.run exec components = (.ok (), components')) :
      Called server .stockGraph components'

/-! ## What a call is to leave and to give -/

/-- The arrays are those of the server, in the data and in the lines. -/
structure Unconsumed (server : Data) (components : Components) : Prop where
  arrays : components.data.arrays = server.arrays
  forward_dates : ∀ timeType, components.lineArray timeType .forward_dates =
    .ok (some ((server.arrays (futuresOf timeType)).map fun p => { p with x := some (p.x : ℚ) }))

/-- The right edge of each frame is the one the button asks for. -/
def RightEdges (server : Data) (hash : List (Button × Frame)) : Prop :=
  ∀ element ∈ buttons, ∃ p frame, (server.arrays (futuresOf element.timeType))[element.forwardInterval]? = some p ∧
    (element.name, frame) ∈ hash ∧ frame.xMax = p.x

/-- Another call has the same frames. -/
def Repeats (graphType : Graph) (hash : List (Button × Frame)) (components : Components) : Prop :=
  ∃ components', (framesHash graphType).run exec components = (.ok hash, components')

/-! ## What is left of the arrays -/

/-- Each array is what is left of that of the server. -/
def LeftOf (server : Data) (components : Components) : Prop :=
  ∀ series, (components.data.arrays series).Sublist (server.arrays series)

variable {server : Data} {graphType : Graph} {components components' : Components} {hash : List (Button × Frame)}

theorem leftOf_exec (stmt : Stmt) (h : LeftOf server components) : LeftOf server (exec components stmt) := by
  cases stmt with
  | splice series start =>
    intro series'
    unfold exec
    dsimp only
    rw [JavaScript.splice_left]
    by_cases hsame : series' = series
    · rw [hsame, Function.update_self]
      exact (List.eraseIdx_sublist _ _).trans (h series)
    · rw [Function.update_of_ne hsame]
      exact h series'
  | _ => exact h

theorem leftOf_run {α : Type} (script : Script α) (h : LeftOf server components) :
    LeftOf server (script.run exec components).2 :=
  (only_true script).run_inv (fun _ stmt _ hleft => leftOf_exec stmt hleft) h

theorem leftOf_page (server : Data) : LeftOf server (page server) := fun series => List.Sublist.refl (server.arrays series)

theorem Reached.leftOf (h : Reached server graphType components) : LeftOf server components := by
  induction h with
  | @launch graphType extremes components hrun =>
    have hleft := leftOf_run (Chart.launch graphType) (leftOf_page server)
    rwa [hrun] at hleft
  | click _ button ih => exact leftOf_run _ ih
  | action _ action ih => exact leftOf_run _ ih

theorem Called.leftOf (h : Called server graphType components) : LeftOf server components := by
  cases h with
  | launch hrun =>
    have hleft := leftOf_run (launchLines graphType) (leftOf_page server)
    rwa [hrun] at hleft
  | action hreached action hcalls hlines =>
    have hleft := leftOf_run action.lines hreached.leftOf
    rwa [hlines] at hleft

/-- In what is left of increasing times, the times come no earlier than before. -/
theorem leftOf_later {arr left : List (Point Int)} (h : left.Sublist arr) (hincreasing : Increasing arr) {n m : Nat}
    {p q : Point Int} (hp : arr[n]? = some p) (hq : left[m]? = some q) (hlt : n < m) : p.x < q.x := by
  obtain ⟨f, hf⟩ := List.sublist_iff_exists_orderEmbedding_getElem?_eq.1 h
  rw [hf m] at hq
  have hlater : n < f m := hlt.trans_le (f.strictMono.le_apply)
  obtain ⟨hn, rfl⟩ := List.getElem?_eq_some_iff.1 hp
  obtain ⟨hm, rfl⟩ := List.getElem?_eq_some_iff.1 hq
  have hpairs := List.pairwise_iff_getElem.1 hincreasing n (f m) (by simpa using hn) (by simpa using hm) hlater
  simpa using hpairs

/-! ## What a call does -/

/-- The first two buttons take their edges out of one array. -/
theorem framesHash_times (h : (framesHash graphType).run exec components = (.ok hash, components')) :
    ∃ p q first second rest, (components.data.arrays .future_times)[39]? = some p ∧
      (components.data.arrays .future_times)[196]? = some q ∧ hash = (.oneDay, first) :: (.fiveDays, second) :: rest ∧
        first.xMax = p.x ∧ second.xMax = q.x ∧ (∀ frame, (Button.fiveDays, frame) ∉ rest) ∧
          components'.data.arrays .future_times = ((components.data.arrays .future_times).eraseIdx 39).eraseIdx 195 := by
  obtain ⟨rfl, hedges⟩ := framesHash_ok h
  obtain ⟨first, rest, p, rfl, hp, hfirst, hedges⟩ := hedges
  obtain ⟨second, rest, q, rfl, hq, hsecond, hedges⟩ := hedges
  -- The first edge is gone from place 39, so what is at 195 now was at 196.
  have hnext : (components.data.arrays .future_times)[196]? = some q := by
    rw [taken_arrays, Function.update_self, List.getElem?_eraseIdx] at hq
    exact hq
  refine ⟨p, q, first, second, rest, hp, hnext, rfl, hfirst, hsecond, fun frame hmem => ?_, ?_⟩
  · have hname : Button.fiveDays ∈ rest.map (·.1) := List.mem_map_of_mem hmem
    rw [edges_names hedges] at hname
    exact absurd hname (by decide)
  · simp [takenAll, buttons, taken_arrays, futuresOf]

/-- What a call takes away is missing afterwards. -/
theorem framesHash_shortens (hleft : LeftOf server components)
    (h : (framesHash graphType).run exec components = (.ok hash, components')) : ¬Unconsumed server components' := by
  intro hsame
  obtain ⟨p, q, first, second, rest, hp, -, -, -, -, -, htimes⟩ := framesHash_times h
  -- The array would be as long as that of the server, of which a part was left before the call.
  have hlength := (hleft .future_times).length_le
  have hplace := (List.getElem?_eq_some_iff.1 hp).1
  rw [hsame.arrays] at htimes
  have hshort := congrArg List.length htimes
  have hle := (List.eraseIdx_sublist ((components.data.arrays .future_times).eraseIdx 39) 195).length_le
  rw [List.length_eraseIdx_of_lt hplace] at hle
  omega

/-- The frame of five days ends at least a time too late. -/
theorem framesHash_skips (hleft : LeftOf server components) (hincreasing : Increasing (server.arrays .future_times))
    (h : (framesHash graphType).run exec components = (.ok hash, components')) : ¬RightEdges server hash := by
  intro hedges
  obtain ⟨p, q, first, second, rest, -, hq, rfl, -, hx, hrest, -⟩ := framesHash_times h
  obtain ⟨right, frame, hright, hmem, hframe⟩ := hedges ⟨.fiveDays, 390, 195, .intraday⟩ (by decide)
  have hsecond : frame = second := by simpa [hrest] using hmem
  -- Place 196 of what is left is no earlier than place 196 of the server's array.
  have hlater := leftOf_later (hleft .future_times) hincreasing hright hq (by decide)
  rw [← hframe, hsecond, hx] at hlater
  exact absurd hlater (lt_irrefl _)

/-- The frame of one day ends later at the next call. -/
theorem framesHash_differs (hleft : LeftOf server components) (hincreasing : Increasing (server.arrays .future_times))
    (h : (framesHash graphType).run exec components = (.ok hash, components')) : ¬Repeats graphType hash components' := by
  rintro ⟨after, hagain⟩
  obtain ⟨p, q, first, second, rest, hp, -, rfl, hx, -, -, htimes⟩ := framesHash_times h
  obtain ⟨p', q', first', second', rest', hp', -, hhash, hx', -⟩ := framesHash_times hagain
  obtain rfl : first = first' := by simpa using (List.cons.inj hhash).1
  -- The second call finds at place 39 what the first one found at 40.
  have hnext : (components.data.arrays .future_times)[40]? = some p' := by
    rw [htimes, List.getElem?_eraseIdx, List.getElem?_eraseIdx] at hp'
    exact hp'
  have hown : Increasing (components.data.arrays .future_times) := hincreasing.sublist ((hleft .future_times).map _)
  have hlater := leftOf_later (List.Sublist.refl _) hown hp hnext (by decide)
  rw [← hx, ← hx'] at hlater
  exact absurd hlater (lt_irrefl _)

/-- With enough data the chart is shown, but no call leaves the arrays as they were. If the times of the
server go up, neither are all right edges right, nor would another call have the same frames. -/
theorem frames_consumed (server : Data) :
    (server.Enough → ∃ components hash components', Called server .stockGraph components ∧
      (framesHash .stockGraph).run exec components = (.ok hash, components')) ∧
    ∀ graphType components hash components', Called server graphType components →
      (framesHash graphType).run exec components = (.ok hash, components') →
        ¬Unconsumed server components' ∧ (Increasing (server.arrays .future_times) →
          ¬RightEdges server hash ∧ ¬Repeats graphType hash components') := by
  constructor
  · intro henough
    obtain ⟨components, hlines, hmade⟩ := launchLines_complete server .stockGraph
    obtain ⟨hash, hrun⟩ := framesHash_stockGraph hmade henough
    exact ⟨components, hash, _, .launch hlines, hrun⟩
  · intro graphType components hash components' hcalled hrun
    refine ⟨framesHash_shortens hcalled.leftOf hrun, fun hincreasing => ?_⟩
    exact ⟨framesHash_skips hcalled.leftOf hincreasing hrun, framesHash_differs hcalled.leftOf hincreasing hrun⟩

theorem farDates_increasing : Increasing farDates := by
  unfold Increasing farDates
  rw [List.map_map, List.pairwise_map]
  refine List.pairwise_lt_range.imp fun hlt => ?_
  simpa using hlt

/-- The call of the launch with 700 future dates. -/
theorem frames_consumed_far : ∃ components hash components', Called farPrediction .stockGraph components ∧
    (framesHash .stockGraph).run exec components = (.ok hash, components') ∧ ¬Unconsumed farPrediction components' ∧
      ¬RightEdges farPrediction hash ∧ ¬Repeats .stockGraph hash components' := by
  have hincreasing : Increasing (farPrediction.arrays (futuresOf .intraday)) := by
    rw [farPrediction_futures]
    exact farDates_increasing
  obtain ⟨hcomplete, hcalls⟩ := frames_consumed farPrediction
  obtain ⟨components, hash, components', hcalled, hrun⟩ := hcomplete farPrediction_enough
  obtain ⟨hconsumed, hwrong⟩ := hcalls .stockGraph components hash components' hcalled hrun
  exact ⟨components, hash, components', hcalled, hrun, hconsumed, hwrong hincreasing⟩

/-- The launch of the page with 700 future dates leaves fewer. -/
theorem launch_consumes : ¬∀ (server : Data) (graphType : Graph) (components components' : Components)
    (hash : List (Button × Frame)), server.Enough → Called server graphType components →
      (framesHash graphType).run exec components = (.ok hash, components') →
        Unconsumed server components' ∧ RightEdges server hash ∧ Repeats graphType hash components' := by
  intro hall
  obtain ⟨components, hlines, hmade⟩ := launchLines_complete farPrediction .stockGraph
  obtain ⟨hash, hrun⟩ := framesHash_stockGraph hmade farPrediction_enough
  have hcalled : Called farPrediction .stockGraph components := .launch hlines
  exact framesHash_shortens hcalled.leftOf hrun (hall _ _ _ _ _ farPrediction_enough hcalled hrun).1

end MyStockIQ.Chart
