import MyStockIQ.SweepReach
import MyStockIQ.SharedStore.KeyedRows
import MyStockIQ.SharedStore.Writes
/-!
# What a sweep writes

A sweep that gets through is one write after another to the score column: each visit
gives the row a score made of its age, its likes and at most one other score, that
of the prediction for a Predictionend. What a row has afterwards comes from the last
visit to it (`scoring_last`), and of the column before it only what is not written
is left in it (`scoring_congr`).
-/

open SharedStore Prog

namespace MyStockIQ.Sweep

/-! ## A sweep as writes to the score column -/

/-- What the sweep visits, in order. -/
def Tables.visits (tables : Tables) : List Ref := tables.streams.flatMap tables.visited

/-- The sweep visits the row. -/
def Tables.Swept (tables : Tables) (row : Ref) : Prop := ∃ stream ∈ tables.streams, row ∈ tables.visited stream

/-- The popularity whose score a Predictionend takes in. -/
def Tables.source (tables : Tables) (popularable : Ref) : Option Popularity :=
  if popularable.type = .predictionend then
    (tables.predictionends.find? (·.id = popularable.id)).bind fun predictionend =>
      (tables.predictions.find? (·.id = predictionend.prediction_id)).bind fun prediction =>
        tables.popularity ⟨.prediction, prediction.id⟩
  else none

section
variable {R : Type} [Add R] [Sub R] [Mul R] [Div R] [NatCast R]

section
variable (f : Functions R) (tables : Tables) (now : Time)

/-- What `addPredictionScore` makes of a score where it does not raise. -/
def raised (popularable : Ref) (column : Nat → R) (score : R) : R :=
  match popularable.type with
  | .prediction =>
    (tables.predictions.find? (·.id = popularable.id)).elim score fun prediction => score + f.score prediction.score
  | .predictionend => (tables.source popularable).elim score fun source => score + column source.id
  | _ => score

/-- The score `update_score` saves. -/
def scored (self : Popularity) (column : Nat → R) : R :=
  let net_likes := tables.netLikes self.popularable
  f.round (raised f tables self.popularable column (f.log (if net_likes ≤ 0 then 1 else net_likes.toNat)) -
    (decayRate self.popularable : R) * f.seconds (now - self.created_at) / ((60 * 60 * 24 : Nat) : R))

/-- The writes to the popularities of these rows. -/
abbrev scoring (visited : List Ref) (column : Nat → R) : Nat → R :=
  writes Popularity.id (scored f tables now) (visited.filterMap tables.popularity) column

end

variable {f : Functions R} {tables : Tables} {now : Time} {α β : Type}

omit [Sub R] [Mul R] [Div R] [NatCast R] in
theorem run_addPredictionScore {popularable : Ref} (hhas : tables.has popularable) {score result : R}
    {column column' : Nat → R} (h : (addPredictionScore f tables popularable score).run exec column = (.ok result, column')) :
    column' = column ∧ result = raised f tables popularable column score ∧ tables.Scorable popularable := by
  obtain ⟨type, id⟩ := popularable
  unfold addPredictionScore at h
  unfold raised
  cases type with
  | prediction =>
    dsimp only at h ⊢
    cases hfound : tables.predictions.find? (·.id = id) with
    | none =>
      rw [hfound] at h
      cases h
    | some prediction =>
      rw [hfound] at h
      cases h
      exact ⟨rfl, rfl, hhas, fun _ htype => by cases htype⟩
  | predictionend =>
    dsimp only at h ⊢
    cases hfound : tables.predictionends.find? (·.id = id) with
    | none =>
      rw [hfound] at h
      cases h
    | some predictionend =>
      simp only [hfound] at h
      cases hprediction : tables.predictions.find? (·.id = predictionend.prediction_id) with
      | none =>
        rw [hprediction] at h
        cases h
      | some prediction =>
        simp only [hprediction] at h
        cases hpopularity : tables.popularity ⟨.prediction, prediction.id⟩ with
        | none =>
          rw [hpopularity] at h
          cases h
        | some popularity =>
          simp only [hpopularity] at h
          cases h
          have hsource : tables.source ⟨.predictionend, id⟩ = some popularity := by
            simp [Tables.source, hfound, hprediction, hpopularity]
          rw [hsource]
          refine ⟨rfl, rfl, hhas, fun other _ hother => ?_⟩
          obtain rfl := Option.some.inj (hfound.symm.trans hother)
          exact ⟨prediction, popularity, hprediction, hpopularity⟩
  | _ =>
    cases h
    exact ⟨rfl, rfl, hhas, fun _ htype => by cases htype⟩

/-- The popularity of the row is there, and all its score is made of. -/
def Tables.Found (tables : Tables) (popularable : Ref) : Prop :=
  tables.Scorable popularable ∧ ∃ row, tables.popularity popularable = some row

/-- Whenever it completes, the program has written the scores of these rows, and found what they are made of. -/
def Scores (f : Functions R) (tables : Tables) (now : Time) (visited : List Ref) (p : Request R α) : Prop :=
  ∀ column a column', p.run exec column = (.ok a, column') →
    column' = scoring f tables now visited column ∧ ∀ popularable ∈ visited, tables.Found popularable

theorem Scores.bind {visited visited' : List Ref} {p : Request R α} {g : α → Request R β}
    (hp : Scores f tables now visited p) (hg : ∀ a, Scores f tables now visited' (g a)) :
    Scores f tables now (visited ++ visited') (p.bind g) := by
  intro column b column' hrun
  obtain ⟨a, middle, ha, hrun⟩ := run_bind_inv exec hrun
  obtain ⟨rfl, hfound⟩ := hp column a middle ha
  obtain ⟨rfl, hfound'⟩ := hg a _ b column' hrun
  constructor
  · unfold scoring
    rw [List.filterMap_append, writes_append]
  · intro popularable hmem
    rcases List.mem_append.1 hmem with hmem | hmem
    · exact hfound popularable hmem
    · exact hfound' popularable hmem

theorem Scores.each {items : β → List Ref} {g : β → Request R Unit} (bs : List β)
    (hg : ∀ b ∈ bs, Scores f tables now (items b) (g b)) : Scores f tables now (bs.flatMap items) (Prog.each g bs) := by
  induction bs with
  | nil =>
    rintro column _ _ ⟨⟩
    exact ⟨rfl, by simp⟩
  | cons b bs ih =>
    rw [List.flatMap_cons]
    exact (hg b (by simp)).bind fun _ => ih fun c hc => hg c (by simp [hc])

theorem scores_updatePopularity (popularable : Ref) :
    Scores f tables now [popularable] (updatePopularity f tables now popularable) := by
  intro column a column' hrun
  unfold updatePopularity at hrun
  cases hrow : tables.popularity popularable with
  | none =>
    rw [hrow] at hrun
    cases hrun
  | some row =>
    simp only [hrow, Popularity.updateScore] at hrun
    split at hrun
    · next hhas =>
      obtain ⟨score, middle, hadd, hrun⟩ := run_bind_inv exec hrun
      obtain ⟨rfl, rfl, hscorable⟩ := run_addPredictionScore hhas hadd
      cases hrun
      rw [(popularity_mem hrow).2] at hscorable
      simp only [scoring, List.filterMap_cons, hrow, List.filterMap_nil, List.mem_singleton, forall_eq]
      exact ⟨rfl, hscorable, row, hrow⟩
    · cases hrun

theorem scores_updateStream (stream : Stream) :
    Scores f tables now (tables.visited stream) (updateStreamPopularityScore f tables now stream) := by
  unfold updateStreamPopularityScore
  split
  · refine (scores_updatePopularity stream.streamable).bind fun _ => ?_
    split
    · rintro column _ _ ⟨⟩
    · have hreply (reply : Posts.Reply) :
          Scores f tables now [⟨.reply, reply.id⟩] (updatePopularity f tables now ⟨.reply, reply.id⟩) :=
        scores_updatePopularity _
      have hreplies := Scores.each (tables.repliesTo stream.streamable) fun reply _ => hreply reply
      rwa [← List.map_eq_flatMap] at hreplies
  · rintro column _ _ ⟨⟩

/-- A full sweep writes the scores of all it visits. -/
theorem sweep_scores {column column' : Nat → R} (h : sweep f tables now column = (.ok (), column')) :
    column' = scoring f tables now tables.visits column ∧ ∀ popularable ∈ tables.visits, tables.Found popularable :=
  Scores.each tables.streams (fun stream _ => scores_updateStream stream) column () column' h

/-! ## What a full sweep leaves -/

theorem mem_visits {row : Ref} : row ∈ tables.visits ↔ tables.Swept row := List.mem_flatMap

variable {popularable : Ref} {row : Popularity}

/-- The popularities have ids of their own. -/
def Tables.Keyed (tables : Tables) : Prop :=
  ∀ popularable popularable' row row', tables.popularity popularable = some row →
    tables.popularity popularable' = some row' → row.id = row'.id → row = row'

theorem keyed_of_unique (h : UniqueKeys Popularity.id tables.popularities) : tables.Keyed :=
  fun _ _ _ _ hrow hrow' hid => h.eq (popularity_mem hrow).1 (popularity_mem hrow').1 hid

theorem row_eq (hids : tables.Keyed) (hrow : tables.popularity popularable = some row)
    {other : Popularity} (hother : other ∈ tables.visits.filterMap tables.popularity) (hid : other.id = row.id) :
    other = row := by
  obtain ⟨visited, -, hfound⟩ := List.mem_filterMap.1 hother
  exact hids visited popularable other row hfound hrow hid

/-- What a sweep does not visit keeps its score. -/
theorem scoring_unswept (hids : tables.Keyed)
    (hrow : tables.popularity popularable = some row) (hnot : ¬tables.Swept popularable) (column : Nat → R) :
    scoring f tables now tables.visits column row.id = column row.id := by
  refine writes_of_ne (fun other hother hid => hnot ?_) column
  obtain rfl := row_eq hids hrow hother hid
  obtain ⟨visited, hmem, hfound⟩ := List.mem_filterMap.1 hother
  have hsame : visited = popularable := (popularity_mem hfound).2.symm.trans (popularity_mem hrow).2
  exact hsame ▸ mem_visits.1 hmem

/-- The column a row is scored from is the one a part of the sweep leaves. -/
theorem scoring_swept (hids : tables.Keyed)
    (hrow : tables.popularity popularable = some row) (hswept : tables.Swept popularable) (column : Nat → R) {v : R}
    (hvalue : ∀ before after, tables.visits.filterMap tables.popularity = before ++ row :: after →
      scored f tables now row (writes Popularity.id (scored f tables now) before column) = v) :
    scoring f tables now tables.visits column row.id = v := by
  refine writes_eq ⟨row, List.mem_filterMap.2 ⟨popularable, mem_visits.2 hswept, hrow⟩, rfl⟩ ?_
  intro before other after hsplit hid
  obtain rfl := row_eq hids hrow (by rw [hsplit]; simp) hid
  exact hvalue before after hsplit

theorem source_none (htype : popularable.type ≠ .predictionend) : tables.source popularable = none := if_neg htype

omit [Sub R] [Mul R] [Div R] [NatCast R] in
theorem raised_congr {column column' : Nat → R} (score : R)
    (h : ∀ source, tables.source popularable = some source → column source.id = column' source.id) :
    raised f tables popularable column score = raised f tables popularable column' score := by
  unfold raised
  split
  · rfl
  · cases hsource : tables.source popularable with
    | none => rfl
    | some source => rw [Option.elim_some, Option.elim_some, h source hsource]
  · rfl

theorem scored_congr {column column' : Nat → R}
    (h : ∀ source, tables.source row.popularable = some source → column source.id = column' source.id) :
    scored f tables now row column = scored f tables now row column' := by
  unfold scored
  dsimp only
  rw [raised_congr _ h]

/-- The popularity a score is taken from is that of a prediction. -/
theorem source_some {source : Popularity} (h : tables.source popularable = some source) :
    popularable.type = .predictionend ∧ source.popularable.type = .prediction ∧
      tables.popularity source.popularable = some source := by
  unfold Tables.source at h
  split at h
  · next htype =>
    obtain ⟨predictionend, -, h⟩ := Option.bind_eq_some_iff.1 h
    obtain ⟨prediction, -, hfound⟩ := Option.bind_eq_some_iff.1 h
    have hpopularable := (popularity_mem hfound).2
    rw [hpopularable]
    exact ⟨htype, rfl, hfound⟩
  · cases h

/-- In the middle of a sweep such a row has its new score if it was visited, and its old one otherwise. -/
theorem writes_sourceless (hids : tables.Keyed)
    (hrow : tables.popularity popularable = some row) (hnone : tables.source popularable = none)
    {before after : List Popularity} (hsplit : tables.visits.filterMap tables.popularity = before ++ after)
    (column column' : Nat → R) : writes Popularity.id (scored f tables now) before column row.id =
      if row ∈ before then scored f tables now row column' else column row.id := by
  have heq {other : Popularity} (hother : other ∈ before) (hid : other.id = row.id) : other = row :=
    row_eq hids hrow (by rw [hsplit]; exact List.mem_append_left _ hother) hid
  by_cases hmem : row ∈ before
  · rw [if_pos hmem]
    refine writes_eq ⟨row, hmem, rfl⟩ fun earlier other later hearlier hid => ?_
    obtain rfl := heq (by rw [hearlier]; simp) hid
    refine scored_congr ?_
    rw [(popularity_mem hrow).2, hnone]
    simp
  · rw [if_neg hmem]
    refine writes_of_ne (fun other hother hid => hmem ?_) column
    obtain rfl := heq hother hid
    exact hother

/-- What the sweep goes through when it comes to a row. -/
theorem writes_source {source : Popularity} (hids : tables.Keyed)
    (hsource : tables.source popularable = some source) {before after : List Popularity}
    (hsplit : tables.visits.filterMap tables.popularity = before ++ after) (column column' : Nat → R) :
    writes Popularity.id (scored f tables now) before column source.id =
      if source ∈ before then scored f tables now source column' else column source.id := by
  obtain ⟨-, htype, hfound⟩ := source_some hsource
  exact writes_sourceless hids hfound (source_none (by simp [htype])) hsplit column column'

theorem swept_of_mem (h : row ∈ tables.visits.filterMap tables.popularity) : tables.Swept row.popularable := by
  obtain ⟨visited, hmem, hfound⟩ := List.mem_filterMap.1 h
  rw [(popularity_mem hfound).2]
  exact mem_visits.1 hmem

/-- If the score a row takes in is not written by the sweep, the row is scored from the column as it was. -/
theorem scoring_alone (hids : tables.Keyed)
    (hrow : tables.popularity popularable = some row) (hswept : tables.Swept popularable)
    (halone : ∀ source, tables.source popularable = some source → ¬tables.Swept source.popularable) (column : Nat → R) :
    scoring f tables now tables.visits column row.id = scored f tables now row column := by
  refine scoring_swept hids hrow hswept column fun before after hsplit => scored_congr fun source hsource => ?_
  rw [(popularity_mem hrow).2] at hsource
  rw [writes_source hids hsource hsplit column column, if_neg]
  intro hmem
  exact halone source hsource (swept_of_mem (by rw [hsplit]; exact List.mem_append_left _ hmem))

/-- A row is scored by the last visit to it. -/
theorem scoring_last (hids : tables.Keyed) (hrow : tables.popularity popularable = some row)
    (hswept : tables.Swept popularable) : ∃ before after,
      tables.visits.filterMap tables.popularity = before ++ row :: after ∧ row ∉ after ∧
        ∀ now column, scoring f tables now tables.visits column row.id =
          scored f tables now row (writes Popularity.id (scored f tables now) before column) := by
  have hmem : row ∈ tables.visits.filterMap tables.popularity :=
    List.mem_filterMap.2 ⟨popularable, mem_visits.2 hswept, hrow⟩
  have hitem : ∃ a ∈ tables.visits.filterMap tables.popularity, a.id = row.id := ⟨row, hmem, rfl⟩
  -- Ids are unique, so the last row with the id is the row itself.
  obtain ⟨before, last, after, hsplit, hid, hafter⟩ := exists_last hitem
  obtain rfl := row_eq hids hrow (by rw [hsplit]; simp) hid
  refine ⟨before, after, hsplit, fun hmem => hafter last hmem rfl, fun now column => ?_⟩
  unfold scoring
  rw [hsplit, writes_last rfl hafter]

/-- A sweep takes from the column it finds no more than the scores it does not write and what a row takes in. -/
theorem scoring_congr (hids : tables.Keyed)
    (hrow : tables.popularity popularable = some row) {column column' : Nat → R}
    (hself : tables.Swept popularable ∨ column row.id = column' row.id)
    (hsource : ∀ source, tables.source popularable = some source → column source.id = column' source.id) :
    scoring f tables now tables.visits column row.id = scoring f tables now tables.visits column' row.id := by
  by_cases hswept : tables.Swept popularable
  · obtain ⟨before, after, hsplit, -, hlast⟩ := scoring_last hids hrow hswept (f := f)
    rw [hlast, hlast]
    refine scored_congr fun source hfound => ?_
    rw [(popularity_mem hrow).2] at hfound
    rw [writes_source hids hfound hsplit column column, writes_source hids hfound hsplit column' column,
      hsource source hfound]
  · rw [scoring_unswept hids hrow hswept, scoring_unswept hids hrow hswept]
    exact hself.resolve_left hswept

end

/-! ## Tables that are added to -/

/-- No like, no reply and no score of a prediction has changed. Nothing is gone, and what is new comes last. -/
structure Steady (tables later : Tables) : Prop where
  likes : later.likes = tables.likes
  replies : later.replies = tables.replies
  score : ∀ id prediction, tables.predictions.find? (·.id = id) = some prediction →
    ∃ prediction', later.predictions.find? (·.id = id) = some prediction' ∧
      prediction'.id = prediction.id ∧ prediction'.score = prediction.score
  prediction : ∀ id predictionend, tables.predictionends.find? (·.id = id) = some predictionend →
    ∃ predictionend', later.predictionends.find? (·.id = id) = some predictionend' ∧
      predictionend'.prediction_id = predictionend.prediction_id
  popularity : ∀ popularable row, tables.popularity popularable = some row → later.popularity popularable = some row
  streams : tables.streams <+: later.streams

namespace Steady

variable {tables later : Tables} {popularable : Ref}

theorem refl (tables : Tables) : Steady tables tables where
  likes := rfl
  replies := rfl
  score _ prediction h := ⟨prediction, h, rfl, rfl⟩
  prediction _ predictionend h := ⟨predictionend, h, rfl⟩
  popularity _ _ h := h
  streams := List.prefix_rfl

theorem keyed (h : Steady tables later) (hids : later.Keyed) : tables.Keyed := fun _ _ _ _ hrow hrow' =>
  hids _ _ _ _ (h.popularity _ _ hrow) (h.popularity _ _ hrow')

theorem visited (h : Steady tables later) (stream : Stream) : later.visited stream = tables.visited stream := by
  unfold Tables.visited Tables.repliesTo
  rw [h.replies]

theorem swept (h : Steady tables later) (hswept : tables.Swept popularable) : later.Swept popularable := by
  obtain ⟨stream, hmem, hvisited⟩ := hswept
  exact ⟨stream, h.streams.subset hmem, h.visited stream ▸ hvisited⟩

theorem netLikes (h : Steady tables later) (popularable : Ref) : later.netLikes popularable = tables.netLikes popularable := by
  simp only [Tables.netLikes, Tables.ownLikes, Tables.likesCount, Tables.dislikesCount, Tables.repliesTo, h.likes, h.replies]

/-- The sweep of what was added to goes through the same rows first. -/
theorem rows (h : Steady tables later) (hfound : ∀ popularable ∈ tables.visits, tables.Found popularable) :
    tables.visits.filterMap tables.popularity <+: later.visits.filterMap later.popularity := by
  obtain ⟨new, hnew⟩ := h.streams
  refine ⟨(new.flatMap later.visited).filterMap later.popularity, ?_⟩
  unfold Tables.visits
  rw [← hnew, List.flatMap_append, List.filterMap_append, funext h.visited]
  congr 1
  -- The first sweep found a popularity for each, and it is still the first of its item.
  refine List.filterMap_congr fun popularable hmem => ?_
  obtain ⟨-, row, hrow⟩ := hfound popularable hmem
  rw [hrow, h.popularity popularable row hrow]

theorem source (h : Steady tables later) (hscorable : tables.Scorable popularable) :
    later.source popularable = tables.source popularable := by
  unfold Tables.source
  split
  · next htype =>
    have hhas := hscorable.has
    rw [Tables.has, htype] at hhas
    obtain ⟨predictionend, hpredictionend⟩ :=
      Option.isSome_iff_exists.1 (List.find?_isSome.2 (List.any_eq_true.1 hhas))
    obtain ⟨prediction, popularity, hprediction, hpopularity⟩ := hscorable.prediction predictionend htype hpredictionend
    obtain ⟨predictionend', hpredictionend', hsame⟩ := h.prediction _ predictionend hpredictionend
    obtain ⟨prediction', hprediction', hid, -⟩ := h.score _ prediction hprediction
    simp only [hpredictionend, hpredictionend', Option.bind_some, hsame, hprediction, hprediction', hid, hpopularity,
      h.popularity _ popularity hpopularity]
  · rfl

theorem raised {R : Type} [Add R] {f : Functions R} (h : Steady tables later) (hscorable : tables.Scorable popularable)
    (column : Nat → R) (score : R) :
    raised f later popularable column score = raised f tables popularable column score := by
  unfold Sweep.raised
  split
  · next htype =>
    have hhas := hscorable.has
    rw [Tables.has, htype] at hhas
    obtain ⟨prediction, hprediction⟩ := Option.isSome_iff_exists.1 (List.find?_isSome.2 (List.any_eq_true.1 hhas))
    obtain ⟨prediction', hprediction', -, hscore⟩ := h.score _ prediction hprediction
    rw [hprediction, hprediction', Option.elim_some, Option.elim_some, hscore]
  · rw [h.source hscorable]
  · rfl

end Steady

end MyStockIQ.Sweep
