import MyStockIQ.Chart
import MyStockIQ.Scan.FirstOfEach
/-!
# The points of a prediction line (`createPredictionLine`)

A line has a point for each close, or for each five minutes, in which a prediction ends,
and it is that of the first one. The loop only looks at the last point it kept, so this
takes predictions in the order of their times, and an offset of New York that does not
change in a session (`prediction_line`). The packed zone has such an offset, right or wrong.
-/

open SharedStore Prog

namespace MyStockIQ.Chart

/-! ## The offset of New York -/

/-- `dailyProcessor` and `intradayProcessor`, with New York so many hours behind UTC. -/
def processor (newYork : Int → ℚ) : TimeType → Int → Option ℚ
  | .daily, gT => do
    let dayStr ← Browser.dayString (Browser.gmtString (some gT))
    some (Browser.graphTimeOfDay dayStr + (21 * 3600 * 1000 - (5 - newYork gT) * 3600 * 1000))
  | .intraday, gT => intradayProcessor gT

/-- Four or five hours, and the same throughout a session. -/
structure SessionOffset (newYork : Int → ℚ) : Prop where
  hours : ∀ t, newYork t = 4 ∨ newYork t = 5
  session : ∀ t t', validStockTime t = true → validStockTime t' = true → t / 1000 / 86400 = t' / 1000 / 86400 →
    newYork t = newYork t'

/-- The hours of the packed zone. -/
def packedHours (t : Int) : ℚ := if Browser.packedSummer t then 4 else 5

theorem packedHours_eq (t : Int) : (5 - packedHours t) * 3600 * 1000 = (Browser.packedShift t : ℚ) := by
  unfold packedHours Browser.packedShift
  split
  · norm_num
  · norm_num

/-- The packed zone changes on Saturdays. -/
theorem sessionOffset_packed : SessionOffset packedHours where
  hours t := by
    unfold packedHours
    split
    · exact .inl rfl
    · exact .inr rfl
  session t t' h h' hday := by
    obtain ⟨-, hsaturday, -⟩ := ((valid_iff t).1 h).1
    have hsame : Browser.packedSummer t ↔ Browser.packedSummer t' := by
      unfold Browser.packedSummer
      unfold Gregorian.weekday at hsaturday
      omega
    unfold packedHours
    simp only [hsame]

theorem processor_packed (gT : Int) : processor packedHours .daily gT = Browser.dailyProcessor gT := by
  unfold Browser.dailyProcessor
  rw [Browser.offsetTime_eq, ← packedHours_eq]
  rfl

/-! ## Buckets -/

/-- The time a line has for a prediction: the close of its day, or the nearest five minutes. -/
def bucket (newYork : Int → ℚ) : TimeType → Int → ℚ
  | .daily, gT => (gT / 1000 / 86400 * 86400000 + 21 * 3600 * 1000 : Int) - (5 - newYork gT) * 3600 * 1000
  | .intraday, gT => Browser.round (gT / 300000) * 300000

variable {newYork : Int → ℚ} {timeType : TimeType}

/-- A daily line knows only times whose strings can be read. -/
theorem processor_daily {gT : Int} (h : Browser.Readable gT) :
    processor newYork .daily gT = some (bucket newYork .daily gT) := by
  unfold processor
  dsimp only
  rw [Browser.dayString_gmtString h]
  simp only [Option.bind_eq_bind, Option.bind_some, Browser.graphTimeOfDay, Gregorian.toDays_ofDays, bucket]
  push_cast
  congr 1
  ring

theorem processor_intraday (gT : Int) : processor newYork .intraday gT = some (bucket newYork .intraday gT) := by
  unfold processor intradayProcessor bucket
  norm_num

/-- Later predictions have no earlier points. -/
theorem bucket_mono (h : SessionOffset newYork) {gT gT' : Int} (hvalid : validStockTime gT = true)
    (hvalid' : validStockTime gT' = true) (hle : gT ≤ gT') : bucket newYork timeType gT ≤ bucket newYork timeType gT' := by
  cases timeType with
  | daily =>
    unfold bucket
    dsimp only
    rcases eq_or_lt_of_le (show gT / 1000 / 86400 ≤ gT' / 1000 / 86400 by omega) with hsame | hlt
    · rw [hsame, h.session gT gT' hvalid hvalid' hsame]
    · -- Between two closes there is a day, but for an hour.
      have hday : gT / 1000 / 86400 * 86400000 + 86400000 ≤ gT' / 1000 / 86400 * 86400000 := by omega
      have hcast : ((gT / 1000 / 86400 * 86400000 + 86400000 : Int) : ℚ) ≤ (gT' / 1000 / 86400 * 86400000 : Int) :=
        Int.cast_le.2 hday
      push_cast at hcast ⊢
      rcases h.hours gT with hfour | hfive <;> rcases h.hours gT' with hfour' | hfive'
      · linarith
      · linarith
      · linarith
      · linarith
  | intraday =>
    unfold bucket Browser.round
    have hfloor : ⌊(gT : ℚ) / 300000 + 1 / 2⌋ ≤ ⌊(gT' : ℚ) / 300000 + 1 / 2⌋ := by
      apply Int.floor_mono
      gcongr
    have hcast : ((⌊(gT : ℚ) / 300000 + 1 / 2⌋ : Int) : ℚ) ≤ ⌊(gT' : ℚ) / 300000 + 1 / 2⌋ := Int.cast_le.2 hfloor
    linarith

/-! ## The loop -/

/-- The point of a prediction. -/
def pointOf (cb : Int → Option ℚ) (p : Point Int) : Point (Option ℚ) := { p with x := cb p.x }

theorem predictionsArray_snoc {cb : Int → Option ℚ} {predictions : List (Point Int)} {kept : List (Point (Option ℚ))}
    (h : predictionsArray cb predictions = kept) (p : Point Int) :
    predictionsArray cb (predictions ++ [p]) =
      if ∃ last, kept.getLast? = some last ∧ same (cb p.x) last.x = true then kept else kept ++ [pointOf cb p] := by
  unfold predictionsArray at h ⊢
  rw [List.foldl_append, h]
  simp only [List.foldl_cons, List.foldl_nil]
  cases hlast : kept.getLast? with
  | none => simp [pointOf]
  | some last =>
    cases hsame : same (cb p.x) last.x with
    | false => simp [pointOf, hsame]
    | true => simp [hsame]

/-- Where every time has a bucket, the loop is the scan for new buckets. -/
theorem predictionsArray_eq {cb : Int → Option ℚ} {b : Int → ℚ} {predictions : List (Point Int)}
    (h : ∀ p ∈ predictions, cb p.x = some (b p.x)) :
    predictionsArray cb predictions = (Scan.firsts (fun p : Point Int => b p.x) predictions).map (pointOf cb) := by
  induction predictions using List.reverseRecOn with
  | nil => rfl
  | append_singleton predictions p ih =>
    have hold : ∀ q ∈ predictions, cb q.x = some (b q.x) := fun q hq => h q (List.mem_append_left _ hq)
    have hp : cb p.x = some (b p.x) := h p (List.mem_append_right _ (List.mem_singleton_self p))
    rw [predictionsArray_snoc (ih hold), Scan.firsts_snoc, List.getLast?_map]
    unfold Scan.keep
    cases hlast : (Scan.firsts (fun q : Point Int => b q.x) predictions).getLast? with
    | none => simp
    | some last =>
      have hb : cb last.x = some (b last.x) := hold last (Scan.mem_of_mem_firsts (List.mem_of_getLast? hlast))
      by_cases hsame : b p.x = b last.x
      · simp [same, pointOf, hp, hb, hsame]
      · simp [same, pointOf, hp, hb, hsame]

/-- The loop keeps the first prediction, so it leaves a line empty only if there are none. -/
theorem predictionsArray_ne_nil (cb : Int → Option ℚ) {predictions : List (Point Int)} (h : predictions ≠ []) :
    predictionsArray cb predictions ≠ [] := by
  induction predictions using List.reverseRecOn with
  | nil => exact absurd rfl h
  | append_singleton predictions p ih =>
    rw [predictionsArray_snoc rfl]
    split
    · next hlast =>
      obtain ⟨last, hlast, -⟩ := hlast
      intro hnil
      rw [hnil] at hlast
      cases hlast
    · exact List.append_ne_nil_of_right_ne_nil _ (List.cons_ne_nil _ _)

/-! ## The line -/

/-- One point for each bucket of the predictions, that of the first prediction in it, and
their times go up. -/
structure IsLine (cb : Int → Option ℚ) (predictions : List (Point Int)) (points : List (Point (Option ℚ))) : Prop where
  increasing : ∃ times : List ℚ, points.map Point.x = times.map some ∧ times.Pairwise (· < ·)
  buckets : ∀ time, time ∈ points.map Point.x ↔ time ∈ predictions.map fun p => cb p.x
  first : ∀ point ∈ points, ∃ before p after, predictions = before ++ p :: after ∧ point = pointOf cb p ∧
    ∀ earlier ∈ before, cb earlier.x ≠ cb p.x

/-- Where the buckets go up with the predictions, the loop makes the line. -/
theorem isLine_of_mono {cb : Int → Option ℚ} {b : Int → ℚ} {predictions : List (Point Int)}
    (h : ∀ p ∈ predictions, cb p.x = some (b p.x)) (hmono : predictions.Pairwise fun p q => b p.x ≤ b q.x) :
    IsLine cb predictions (predictionsArray cb predictions) := by
  have hscan : Scan.FirstOfEach (fun p : Point Int => b p.x) predictions (Scan.firsts (fun p => b p.x) predictions) :=
    Scan.firsts_spec hmono
  have htimes : (predictionsArray cb predictions).map Point.x =
      ((Scan.firsts (fun p : Point Int => b p.x) predictions).map fun p => b p.x).map some := by
    rw [predictionsArray_eq h, List.map_map, List.map_map]
    exact List.map_congr_left fun p hp => h p (Scan.mem_of_mem_firsts hp)
  have hbuckets : (predictions.map fun p => cb p.x) = (predictions.map fun p => b p.x).map some := by
    rw [List.map_map]
    exact List.map_congr_left fun p hp => h p hp
  refine ⟨⟨_, htimes, hscan.increasing⟩, ?_, ?_⟩
  · intro time
    rw [htimes, hbuckets, List.mem_map, List.mem_map]
    simp only [hscan.keys]
  · intro point hpoint
    rw [predictionsArray_eq h] at hpoint
    obtain ⟨p, hp, rfl⟩ := List.mem_map.1 hpoint
    obtain ⟨before, after, rfl, hbefore⟩ := hscan.first p hp
    refine ⟨before, p, after, rfl, rfl, fun earlier hearlier hsame => hbefore earlier hearlier ?_⟩
    rw [h earlier (by simp [hearlier]), h p (by simp)] at hsame
    exact Option.some.inj hsame

/-- `createPredictionLine` makes a line of the points of the loop. -/
theorem run_predictionLine {name : LineName} {components : Components} {predictions : List (Point Int)} {index : Nat}
    (hdata : components.data.predictionLine name = (predictions, index)) (hne : predictions ≠ []) (timeType : TimeType) :
    (createPredictionLine timeType name).run exec components = (.ok (), exec components (.line timeType name
      ⟨some (.own (predictionsArray (processor packedHours timeType) predictions)), index⟩)) := by
  have hlength (cb : Int → Option ℚ) : (predictionsArray cb predictions).length ≠ 0 :=
    fun hzero => predictionsArray_ne_nil cb hne (List.eq_nil_of_length_eq_zero hzero)
  unfold createPredictionLine
  rw [bind_eq, query_bind, run_step, hdata]
  cases timeType with
  | daily =>
    rw [show processor packedHours .daily = Browser.dailyProcessor from funext processor_packed]
    dsimp only
    rw [if_pos (hlength _)]
    rfl
  | intraday =>
    dsimp only
    rw [if_pos (hlength _)]
    rfl

/-- Without predictions the line has no points. -/
theorem run_line {name : LineName} {components : Components} {predictions : List (Point Int)} {index : Nat}
    (hdata : components.data.predictionLine name = (predictions, index)) (timeType : TimeType) :
    (createPredictionLine timeType name).run exec components = (.ok (), exec components (.line timeType name
      ⟨if predictions = [] then none else some (.own (predictionsArray (processor packedHours timeType) predictions)), index⟩)) := by
  split
  · next hnone =>
    subst hnone
    unfold createPredictionLine
    rw [bind_eq, query_bind, run_step, hdata]
    cases timeType <;> rfl
  · next hne => exact run_predictionLine hdata hne timeType

/-- A prediction line of sorted stock times has one point for each bucket, that of the first
prediction in it, and its times go up. A daily line needs times from the year 100 on that a
`Date` can hold. -/
theorem prediction_line {predictions : List (Point Int)} (hne : predictions ≠ [])
    (hsorted : predictions.Pairwise fun p q => p.x ≤ q.x) (hvalid : ∀ p ∈ predictions, validStockTime p.x = true)
    (timeType : TimeType) (hread : timeType = .daily → ∀ p ∈ predictions, Browser.Readable p.x) :
    (∀ newYork, SessionOffset newYork →
      IsLine (processor newYork timeType) predictions (predictionsArray (processor newYork timeType) predictions)) ∧
    SessionOffset packedHours ∧
    ∀ name components index, components.data.predictionLine name = (predictions, index) →
      (createPredictionLine timeType name).run exec components = (.ok (), exec components (.line timeType name
        ⟨some (.own (predictionsArray (processor packedHours timeType) predictions)), index⟩)) := by
  refine ⟨?_, sessionOffset_packed, fun name components index hdata => run_predictionLine hdata hne timeType⟩
  intro newYork hoffset
  have hbucket : ∀ p ∈ predictions, processor newYork timeType p.x = some (bucket newYork timeType p.x) := by
    intro p hp
    cases timeType with
    | daily => exact processor_daily (hread rfl p hp)
    | intraday => exact processor_intraday p.x
  refine isLine_of_mono hbucket (hsorted.imp_of_mem ?_)
  intro p q hp hq hle
  exact bucket_mono hoffset (hvalid p hp) (hvalid q hq) hle

/-- Two predictions on Thursday and one on Monday, each with another price. -/
def thursdayAndMonday : List (Point Int) :=
  [⟨some 1, 1435849200000, some 20, some "triangle"⟩, ⟨some 2, 1435852800000, some 21, some "triangle"⟩,
    ⟨some 3, 1436191200000, some 19, some "triangle-down"⟩]

theorem prediction_line_two_days :
    (∀ newYork, SessionOffset newYork →
      IsLine (processor newYork .daily) thursdayAndMonday (predictionsArray (processor newYork .daily) thursdayAndMonday)) ∧
    SessionOffset packedHours ∧
    ∀ name components index, components.data.predictionLine name = (thursdayAndMonday, index) →
      (createPredictionLine .daily name).run exec components = (.ok (), exec components (.line .daily name
        ⟨some (.own (predictionsArray (processor packedHours .daily) thursdayAndMonday)), index⟩)) :=
  prediction_line (by decide) (by decide) (by decide) .daily (by decide)

/-- The line of every list of sorted stock times in this range has a point for each bucket. -/
def AlwaysLine (range : Int → Prop) : Prop := ∀ predictions : List (Point Int), predictions ≠ [] →
  predictions.Pairwise (fun p q => p.x ≤ q.x) → (∀ p ∈ predictions, validStockTime p.x = true ∧ range p.x) →
  ∀ timeType newYork, SessionOffset newYork →
    IsLine (processor newYork timeType) predictions (predictionsArray (processor newYork timeType) predictions)

/-- Twice a Monday that no `Date` holds: the line has two points, both without a time. A Thursday of
the year 99 and a Monday of the year 100: the first is put in 1999. -/
theorem prediction_line_no_date :
    ¬AlwaysLine (-59011459200000 ≤ ·) ∧ ¬AlwaysLine (· ≤ 8640000000000000) := by
  constructor
  · intro h
    have hnone : processor packedHours .daily 8640000226800000 = none := by decide +kernel
    obtain ⟨⟨times, htimes, -⟩, -, -⟩ := h
      [⟨some 1, 8640000226800000, some 20, some "triangle"⟩, ⟨some 2, 8640000226800000, some 21, some "triangle"⟩]
      (by decide) (by decide) (by decide) .daily packedHours sessionOffset_packed
    have hmem : (none : Option ℚ) ∈ times.map some := by
      rw [← htimes]
      simp [predictionsArray, same, hnone]
    obtain ⟨time, -, htime⟩ := List.mem_map.1 hmem
    cases htime
  · intro h
    have hearlier : processor packedHours .daily (-59011491600000) = some 946674000000 := by decide +kernel
    have hlater : processor packedHours .daily (-59011146000000) = some (-59011124400000) := by decide +kernel
    obtain ⟨⟨times, htimes, hincreasing⟩, -, -⟩ := h
      [⟨some 1, -59011491600000, some 20, some "triangle"⟩, ⟨some 2, -59011146000000, some 21, some "triangle"⟩]
      (by decide) (by decide) (by decide) .daily packedHours sessionOffset_packed
    have hpoints : times.map some = [some 946674000000, some (-59011124400000)] := by
      rw [← htimes]
      have hne : (-59011124400000 : ℚ) ≠ 946674000000 := by decide
      simp [predictionsArray, same, hearlier, hlater, hne]
    have htwo : times = [946674000000, -59011124400000] := List.map_injective_iff.2 (Option.some_injective ℚ) hpoints
    rw [htwo] at hincreasing
    exact absurd hincreasing (by decide)

end MyStockIQ.Chart
