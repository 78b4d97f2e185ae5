import MyStockIQ.SweepScores
import Mathlib.Algebra.Order.Floor.Ring
import Mathlib.Logic.Relation
import Mathlib.Tactic.FieldSimp
import Mathlib.Tactic.Linarith
import Mathlib.Tactic.NormNum
/-!
# How fast a popularity decays (`app/models/popularity.rb`)

Each sweep takes off what the age of the popularity costs, 2 points a day, and 8 for
news. A Predictionend is to "have the same score as predictions" and gets that of
the popularity of its prediction on top, from which the age has been taken off
already: it loses 4 points a day (`drops_at_rate_iff`).
-/

open SharedStore Prog

namespace MyStockIQ.Sweep

/-! ## Exact numbers -/

section
variable {R : Type} [Field R] [LinearOrder R] [IsStrictOrderedRing R] [FloorRing R]

/-- `Float#round(6)`: halves go away from zero. -/
def round6 (x : R) : R := if x < 0 then -(⌊-x * 10 ^ 6 + 1 / 2⌋ / 10 ^ 6) else ⌊x * 10 ^ 6 + 1 / 2⌋ / 10 ^ 6

theorem round6_near (x : R) : |round6 x - x| ≤ 1 / 2000000 := by
  have hfloor (y : R) : |(⌊y * 10 ^ 6 + 1 / 2⌋ : R) / 10 ^ 6 - y| ≤ 1 / 2000000 := by
    have hle := Int.floor_le (y * 10 ^ 6 + 1 / 2)
    have hlt := Int.lt_floor_add_one (y * 10 ^ 6 + 1 / 2)
    have hdiv : (⌊y * 10 ^ 6 + 1 / 2⌋ : R) / 10 ^ 6 = ⌊y * 10 ^ 6 + 1 / 2⌋ * (1 / 10 ^ 6) := by ring
    rw [abs_le, hdiv]
    constructor <;> linarith
  unfold round6
  split
  · have hneg := hfloor (-x)
    rw [← abs_neg] at hneg
    convert hneg using 2
    ring
  · exact hfloor x

/-- Exact numbers, with any logarithm and any number for the score of a prediction. -/
def exact (log : Nat → R) (score : Number → R) : Functions R where
  log := log
  score := score
  seconds time := (time : R) / 10 ^ 9
  round := round6

/-- The points a day takes off. -/
def rate (popularable : Ref) : R := if popularable.type = .newsarticle then 8 else 2

omit [LinearOrder R] [IsStrictOrderedRing R] [FloorRing R] in
theorem rate_eq {popularable : Ref} (h : popularable.type ≠ .newsarticle) : rate popularable = (2 : R) := if_neg h

/-- Some days. -/
def days (time : Time) : R := (time : R) / 10 ^ 9 / 86400

variable (log : Nat → R) (score : Number → R) {tables : Tables} {now : Time} {row : Popularity}

/-- The score before its age is taken off. -/
def fresh (tables : Tables) (row : Popularity) (column : Nat → R) : R :=
  let net_likes := tables.netLikes row.popularable
  raised (exact log score) tables row.popularable column (log (if net_likes ≤ 0 then 1 else net_likes.toNat))

theorem scored_near (tables : Tables) (now : Time) (row : Popularity) (column : Nat → R) :
    |scored (exact log score) tables now row column -
      (fresh log score tables row column - rate row.popularable * days (now - row.created_at))| ≤ 1 / 2000000 := by
  have hrate : ((decayRate row.popularable : Nat) : R) = rate row.popularable := by
    unfold decayRate rate
    split
    · norm_num
    · norm_num
  have hage : ((decayRate row.popularable : Nat) : R) * ((now - row.created_at : Int) / 10 ^ 9) / ((60 * 60 * 24 : Nat) : R) =
      rate row.popularable * days (now - row.created_at) := by
    rw [hrate]
    unfold days
    push_cast
    ring
  rw [← hage]
  exact round6_near _

omit [IsStrictOrderedRing R] in
theorem fresh_congr {column column' : Nat → R}
    (h : ∀ source, tables.source row.popularable = some source → column source.id = column' source.id) :
    fresh log score tables row column = fresh log score tables row column' := raised_congr _ h

omit [IsStrictOrderedRing R] in
/-- What a Predictionend takes in is added to what its likes are worth. -/
theorem fresh_source {source : Popularity} (h : tables.source row.popularable = some source) (column column' : Nat → R) :
    fresh log score tables row column' - fresh log score tables row column = column' source.id - column source.id := by
  unfold fresh raised
  rw [(source_some h).1]
  simp only [h, Option.elim_some]
  ring

omit [IsStrictOrderedRing R] in
theorem Steady.fresh {later : Tables} (h : Steady tables later) (hscorable : tables.Scorable row.popularable)
    (column : Nat → R) : fresh log score later row column = fresh log score tables row column := by
  unfold Sweep.fresh
  rw [h.netLikes, h.raised hscorable]

omit [LinearOrder R] [IsStrictOrderedRing R] [FloorRing R] in
/-- Between two times the age of a row grows by what is between them. -/
theorem days_sub (t₁ t₂ created_at : Time) : (days (t₂ - created_at) : R) - days (t₁ - created_at) = days (t₂ - t₁) := by
  unfold days
  push_cast
  ring

def day : Time := 86400 * 10 ^ 9

omit [FloorRing R] in
theorem days_mul (n : Int) : (days (n * day) : R) = n := by
  unfold days day
  push_cast
  field_simp
  ring

omit [FloorRing R] in
theorem days_one : (days (day - 0) : R) = 1 := by simpa using days_mul (R := R) 1

omit [FloorRing R] in
theorem days_two : (days (2 * day - 0) : R) = 2 := by simpa using days_mul (R := R) 2

omit [FloorRing R] in
theorem two_le_rate (popularable : Ref) : (2 : R) ≤ rate popularable := by
  unfold rate
  split
  · norm_num
  · exact le_rfl

end

/-! ## What is between two sweeps -/

section
variable {R : Type} [Field R] [LinearOrder R] [IsStrictOrderedRing R] [FloorRing R]

variable (log : Nat → R) (score : Number → R) (tables later : Tables) in
/-- A full sweep in between: neither what the first sweep saw nor what it saw is changed for the next. -/
def Sweeps (t₁ t₂ : Time) (column column' : Nat → R) : Prop :=
  ∃ between now, t₁ < now ∧ now < t₂ ∧ Steady tables between ∧ Steady between later ∧
    sweep (exact log score) between now column = (.ok (), column')

variable (log : Nat → R) (score : Number → R) (tables later : Tables) in
/-- From one full sweep to another the popularity loses the points of the days between them. -/
def DropsAtRate (row : Popularity) : Prop :=
  ∀ t₁ t₂ column column₁ column₁' column₂, t₁ < t₂ →
    sweep (exact log score) tables t₁ column = (.ok (), column₁) →
      Relation.ReflTransGen (Sweeps log score tables later t₁ t₂) column₁ column₁' →
        sweep (exact log score) later t₂ column₁' = (.ok (), column₂) →
          |column₁ row.id - column₂ row.id - rate row.popularable * days (t₂ - t₁)| ≤ 1 / 10 ^ 6

/-- All sweeps of the tables get through. -/
def Full (f : Functions R) (tables : Tables) : Prop := ∀ now column, (sweep f tables now column).1 = .ok ()

omit [LinearOrder R] [IsStrictOrderedRing R] [FloorRing R] in
theorem Full.sweep_eq {f : Functions R} {tables : Tables} (h : Full f tables) (now : Time) (column : Nat → R) :
    sweep f tables now column = (.ok (), scoring f tables now tables.visits column) := by
  rcases hrun : sweep f tables now column with ⟨result, column'⟩
  obtain rfl : result = .ok () := by rw [← h now column, hrun]
  rw [(sweep_scores hrun).1]

variable {log : Nat → R} {score : Number → R} {tables later : Tables} {item : Ref} {row source : Popularity}

omit [IsStrictOrderedRing R] in
/-- What the last sweep does not visit, none before it does. -/
theorem sweeps_unswept {t₁ t₂ : Time} {column column' : Nat → R} (hids : later.Keyed)
    (hrow : tables.popularity item = some row) (hnot : ¬later.Swept item)
    (h : Relation.ReflTransGen (Sweeps log score tables later t₁ t₂) column column') : column' row.id = column row.id := by
  induction h with
  | refl => rfl
  | tail _ hstep ih =>
    obtain ⟨between, now, -, -, hbefore, hafter, hsweep⟩ := hstep
    rw [(sweep_scores hsweep).1, scoring_unswept (hafter.keyed hids) (hbefore.popularity item row hrow)
      (fun hswept => hnot (hafter.swept hswept)), ih]

/-- Scores made of the same number differ by what the days between cost. -/
theorem near_sub {t₁ t₂ : Time} {a b fresh₁ : R} (popularable : Ref) (created_at : Time)
    (ha : |a - (fresh₁ - rate popularable * days (t₁ - created_at))| ≤ 1 / 2000000)
    (hb : |b - (fresh₁ - rate popularable * days (t₂ - created_at))| ≤ 1 / 2000000) :
    |a - b - rate popularable * days (t₂ - t₁)| ≤ 1 / 10 ^ 6 := by
  rw [← days_sub t₁ t₂ created_at, mul_sub]
  rw [abs_le] at ha hb ⊢
  constructor
  · linarith
  · linarith

theorem drops_of_alone (hsteady : Steady tables later) (hids : later.Keyed) (hrow : tables.popularity item = some row)
    (hswept : tables.Swept item)
    (halone : ∀ source, tables.source item = some source → ¬later.Swept source.popularable) :
    DropsAtRate log score tables later row := by
  intro t₁ t₂ column column₁ column₁' column₂ _ hfirst hbetween hlast
  obtain ⟨rfl, hfound⟩ := sweep_scores hfirst
  obtain ⟨rfl, -⟩ := sweep_scores hlast
  have hpopularable := (popularity_mem hrow).2
  have hscorable : tables.Scorable item := (hfound item (mem_visits.2 hswept)).1
  have halone_first (source : Popularity) (hsource : tables.source item = some source) :
      ¬tables.Swept source.popularable := fun h => halone source hsource (hsteady.swept h)
  have hlater (source : Popularity) (hsource : later.source item = some source) : ¬later.Swept source.popularable := by
    rw [hsteady.source hscorable] at hsource
    exact halone source hsource
  rw [scoring_alone (hsteady.keyed hids) hrow hswept halone_first,
    scoring_alone hids (hsteady.popularity item row hrow) (hsteady.swept hswept) hlater]
  have hfresh : fresh log score later row column₁' = fresh log score tables row column := by
    rw [hsteady.fresh log score (by rwa [hpopularable])]
    refine fresh_congr log score fun source hsource => ?_
    rw [hpopularable] at hsource
    have hfound := (source_some hsource).2.2
    rw [sweeps_unswept hids hfound (halone source hsource) hbetween,
      scoring_unswept (hsteady.keyed hids) hfound (halone_first source hsource)]
  refine near_sub row.popularable row.created_at (scored_near log score _ _ _ column) ?_
  rw [← hfresh]
  exact scored_near log score _ _ _ column₁'

/-! ## Where the rate is another -/

variable (hsteady : Steady tables later) (hids : later.Keyed) (hfull : Full (exact log score) tables)
  (hfull_later : Full (exact log score) later) (hrow : tables.popularity item = some row)

omit [IsStrictOrderedRing R] in
include hfull hfull_later in
/-- One sweep after the other. -/
theorem DropsAtRate.two (h : DropsAtRate log score tables later row) (t₁ t₂ : Time) (htime : t₁ < t₂) (column : Nat → R) :
    |scoring (exact log score) tables t₁ tables.visits column row.id -
      scoring (exact log score) later t₂ later.visits (scoring (exact log score) tables t₁ tables.visits column) row.id -
        rate row.popularable * days (t₂ - t₁)| ≤ 1 / 10 ^ 6 :=
  h t₁ t₂ column _ _ _ htime (hfull.sweep_eq t₁ column) .refl (hfull_later.sweep_eq t₂ _)

omit [IsStrictOrderedRing R] in
include hsteady hfull hfull_later in
/-- With a sweep in between. -/
theorem DropsAtRate.three (h : DropsAtRate log score tables later row) (t₁ now t₂ : Time) (hlt : t₁ < now) (hlt' : now < t₂)
    (column : Nat → R) : |scoring (exact log score) tables t₁ tables.visits column row.id -
      scoring (exact log score) later t₂ later.visits (scoring (exact log score) later now later.visits
        (scoring (exact log score) tables t₁ tables.visits column)) row.id -
        rate row.popularable * days (t₂ - t₁)| ≤ 1 / 10 ^ 6 :=
  h t₁ t₂ column _ _ _ (hlt.trans hlt') (hfull.sweep_eq t₁ column)
    (.single ⟨later, now, hlt, hlt', hsteady, .refl later, hfull_later.sweep_eq now _⟩) (hfull_later.sweep_eq t₂ _)

omit [IsStrictOrderedRing R] in
include hsteady hids in
/-- What takes in no other score takes at most its own from the column, whether it was there for the first sweep or not. -/
theorem scoring_kept (hsource : later.popularity source.popularable = some source)
    (htype : source.popularable.type ≠ .predictionend) {now : Time} {column column' : Nat → R}
    (hsame : column source.id = column' source.id) : scoring (exact log score) tables now tables.visits column source.id =
      scoring (exact log score) tables now tables.visits column' source.id := by
  by_cases hthere : tables.popularity source.popularable = some source
  · refine scoring_congr (hsteady.keyed hids) hthere (.inr hsame) fun other hother => ?_
    rw [source_none htype] at hother
    cases hother
  · have hne (row : Popularity) (hrow : row ∈ tables.visits.filterMap tables.popularity) : row.id ≠ source.id := by
      intro hid
      obtain ⟨visited, -, hfound⟩ := List.mem_filterMap.1 hrow
      have hlater := hsteady.popularity visited row hfound
      obtain rfl := hids _ _ row source hlater hsource hid
      rw [← (popularity_mem hfound).2] at hfound
      exact hthere hfound
    unfold scoring
    rw [writes_of_ne hne, writes_of_ne hne, hsame]

include hsteady hids hfull hfull_later hrow in
/-- What the first sweep does not visit can have had any score. -/
theorem not_drops_of_unswept (hnot : ¬tables.Swept item) : ¬DropsAtRate log score tables later row := by
  intro h
  have hkept (column : Nat → R) : scoring (exact log score) tables 0 tables.visits column row.id = column row.id :=
    scoring_unswept (hsteady.keyed hids) hrow hnot column
  have hrow_later := hsteady.popularity item row hrow
  by_cases hlater : later.Swept item
  · -- The two columns differ in this row only, and the second sweep gives it one score in both.
    have hzero := h.two hfull hfull_later 0 day (by decide) fun _ => 0
    have hone := h.two hfull hfull_later 0 day (by decide) (Function.update (fun _ => 0) row.id 1)
    have hsame : scoring (exact log score) later day later.visits
        (scoring (exact log score) tables 0 tables.visits (Function.update (fun _ => 0) row.id 1)) row.id =
          scoring (exact log score) later day later.visits (scoring (exact log score) tables 0 tables.visits fun _ => 0)
            row.id := by
      refine scoring_congr hids hrow_later (.inl hlater) fun source hsource => ?_
      obtain ⟨hitem, htype, hfound⟩ := source_some hsource
      refine scoring_kept hsteady hids hfound (by simp [htype]) ?_
      refine Function.update_of_ne (fun hid => ?_) _ _
      obtain rfl := hids _ _ source row hfound hrow_later hid
      rw [(popularity_mem hrow).2, hitem] at htype
      cases htype
    rw [hkept, abs_le] at hzero hone
    rw [hsame, Function.update_self] at hone
    linarith [hzero.1, hone.2]
  · -- No sweep visits the row, so its score stays.
    have hday := h.two hfull hfull_later 0 day (by decide) fun _ => 0
    rw [scoring_unswept hids hrow_later hlater, hkept, days_one, abs_le] at hday
    linarith [hday.1, two_le_rate (R := R) row.popularable]

include hids hfull hfull_later hrow in
/-- A Predictionend whose prediction the sweep visits first loses what both ages cost. -/
theorem not_drops_of_earlier (hsource_later : later.source item = some source) {before after : List Popularity}
    (hsplit : later.visits.filterMap later.popularity = before ++ row :: after) (hmem : source ∈ before)
    (hlast : ∀ now column, scoring (exact log score) later now later.visits column row.id =
      scored (exact log score) later now row (writes Popularity.id (scored (exact log score) later now) before column)) :
    ¬DropsAtRate log score tables later row := by
  intro h
  obtain ⟨hitem, htype, hfound⟩ := source_some hsource_later
  have hpopularable := (popularity_mem hrow).2
  have hvalue (now : Time) (column : Nat → R) : |scoring (exact log score) later now later.visits column row.id -
      (fresh log score later row (fun _ => 0) + (fresh log score later source fun _ => 0) -
        2 * days (now - row.created_at) - 2 * days (now - source.created_at))| ≤ 1 / 10 ^ 6 := by
    have hrow_near := scored_near log score later now row
      (writes Popularity.id (scored (exact log score) later now) before column)
    have hsource_near := scored_near log score later now source fun _ => 0
    rw [← hpopularable] at hsource_later
    have hadded := fresh_source log score hsource_later (fun _ => 0)
      (writes Popularity.id (scored (exact log score) later now) before column)
    rw [hpopularable] at hsource_later
    rw [writes_source hids hsource_later hsplit column fun _ => 0, if_pos hmem] at hadded
    rw [rate_eq (by rw [hpopularable, hitem]; simp)] at hrow_near
    rw [rate_eq (by rw [htype]; simp)] at hsource_near
    rw [hlast, abs_le]
    rw [abs_le] at hrow_near hsource_near
    constructor
    · linarith
    · linarith
  -- A day and two days after the first sweep, the scores are 4 points apart.
  have hday := h.two hfull hfull_later 0 day (by decide) fun _ => 0
  have htwo := h.two hfull hfull_later 0 (2 * day) (by decide) fun _ => 0
  have hnear := hvalue day (scoring (exact log score) tables 0 tables.visits fun _ => 0)
  have hnear_two := hvalue (2 * day) (scoring (exact log score) tables 0 tables.visits fun _ => 0)
  have hage (created_at : Time) : (days (2 * day - created_at) : R) = days (day - created_at) + 1 := by
    have hsub := days_sub (R := R) day (2 * day) created_at
    have hone : (days (2 * day - day) : R) = 1 := days_one
    linarith
  rw [days_one, rate_eq (by rw [hpopularable, hitem]; simp), abs_le] at hday
  rw [days_two, rate_eq (by rw [hpopularable, hitem]; simp), abs_le] at htwo
  rw [abs_le] at hnear hnear_two
  rw [hage, hage] at hnear_two
  linarith [hday.1, htwo.2, hnear.2, hnear_two.1]

include hsteady hids hfull hfull_later hrow in
/-- A Predictionend whose prediction the sweep visits afterwards is a sweep behind. -/
theorem not_drops_of_later (hswept : tables.Swept item) (hsource : tables.source item = some source)
    (hswept_source : later.Swept source.popularable) {before after : List Popularity}
    (hsplit : later.visits.filterMap later.popularity = before ++ row :: after) (hafter : row ∉ after)
    (hmem : source ∉ before) :
    ¬DropsAtRate log score tables later row := by
  intro h
  have hpopularable := (popularity_mem hrow).2
  have hrows := hsteady.rows (sweep_scores (hfull.sweep_eq 0 fun _ => 0)).2
  have hsource_later : later.source item = some source := by
    have hscorable := ((sweep_scores (hfull.sweep_eq 0 fun _ => 0)).2 item (mem_visits.2 hswept)).1
    rw [hsteady.source hscorable, hsource]
  obtain ⟨hitem, htype, hfound⟩ := source_some hsource_later
  obtain ⟨before₁, after₁, hsplit₁, -, hlast⟩ := scoring_last (hsteady.keyed hids) hrow hswept (f := exact log score)
  obtain ⟨more, hmore⟩ := hrows
  -- The first sweep visits a first part of the rows, so it came too late to the source as well.
  have hnot : source ∉ before₁ := by
    intro hmem₁
    rw [hsplit, hsplit₁, List.append_assoc, List.cons_append] at hmore
    exact hmem ((prefix_of_last hmore hafter).subset hmem₁)
  have hfirst (column : Nat → R) : |scoring (exact log score) tables 0 tables.visits column row.id -
      (fresh log score tables row column - rate row.popularable * days (0 - row.created_at))| ≤ 1 / 2000000 := by
    have hsame : scored (exact log score) tables 0 row
        (writes Popularity.id (scored (exact log score) tables 0) before₁ column) =
          scored (exact log score) tables 0 row column := by
      refine scored_congr fun other hother => ?_
      rw [hpopularable, hsource] at hother
      obtain rfl := Option.some.inj hother
      rw [writes_source (hsteady.keyed hids) hsource hsplit₁ column column, if_neg hnot]
    rw [hlast, hsame]
    exact scored_near log score _ _ _ column
  have hsame (column column' : Nat → R) :
      scoring (exact log score) later (2 * day) later.visits (scoring (exact log score) later day later.visits column)
        row.id = scoring (exact log score) later (2 * day) later.visits
          (scoring (exact log score) later day later.visits column') row.id := by
    refine scoring_congr hids (hsteady.popularity item row hrow) (.inl (hsteady.swept hswept)) fun other hother => ?_
    obtain rfl := Option.some.inj (hsource_later.symm.trans hother)
    refine scoring_congr hids hfound (.inl hswept_source) fun none hnone => ?_
    rw [source_none (by simp [htype])] at hnone
    cases hnone
  -- The sweep in between scores the source anew, so the score before only shows in the first sweep.
  have hzero := h.three hsteady hfull hfull_later 0 day (2 * day) (by decide) (by decide) fun _ => 0
  have hone := h.three hsteady hfull hfull_later 0 day (2 * day) (by decide) (by decide) fun _ => 1
  have hfirst_zero := hfirst fun _ => 0
  have hfirst_one := hfirst fun _ => 1
  rw [← hpopularable] at hsource
  have hadded := fresh_source log score hsource (fun _ => 0) fun _ => 1
  rw [hsame _ (scoring (exact log score) tables 0 tables.visits fun _ => 0)] at hone
  rw [abs_le] at hzero hone hfirst_zero hfirst_one
  linarith [hzero.1, hone.2, hfirst_zero.2, hfirst_one.1]

include hsteady hids hfull hfull_later hrow in
/-- The popularity of a visited row drops at its rate unless it takes in a score that is swept, too. -/
theorem drops_at_rate_iff : DropsAtRate log score tables later row ↔
    tables.Swept item ∧ ∀ source, tables.source item = some source → ¬later.Swept source.popularable := by
  constructor
  · intro h
    have hswept : tables.Swept item := by
      by_contra hnot
      exact not_drops_of_unswept hsteady hids hfull hfull_later hrow hnot h
    refine ⟨hswept, fun source hsource hswept_source => ?_⟩
    have hscorable := ((sweep_scores (hfull.sweep_eq 0 fun _ => 0)).2 item (mem_visits.2 hswept)).1
    have hsource_later : later.source item = some source := by rw [hsteady.source hscorable, hsource]
    obtain ⟨before, after, hsplit, hafter, hlast⟩ :=
      scoring_last hids (hsteady.popularity item row hrow) (hsteady.swept hswept) (f := exact log score)
    by_cases hmem : source ∈ before
    · exact not_drops_of_earlier hids hfull hfull_later hrow hsource_later hsplit hmem hlast h
    · exact not_drops_of_later hsteady hids hfull hfull_later hrow hswept hsource hswept_source hsplit hafter hmem h
  · rintro ⟨hswept, halone⟩
    exact drops_of_alone hsteady hids hrow hswept halone

end

/-- The scores of the tests are finite. -/
def points : Number → Rat
  | .finite score => score
  | _ => 0

/-- The prediction is in the streams, and so is its Predictionend. -/
theorem drops_at_rate_iff_ended : DropsAtRate (fun _ => 0) points ended ended ⟨2, ⟨.predictionend, 1⟩, 0⟩ ↔
    ended.Swept ⟨.predictionend, 1⟩ ∧
      ∀ source, ended.source ⟨.predictionend, 1⟩ = some source → ¬ended.Swept source.popularable := by
  have hids : ended.Keyed := keyed_of_unique (by simp [UniqueKeys, ended])
  have hfull : Full (exact (fun _ => 0) points) ended := fun _ _ => rfl
  exact drops_at_rate_iff (.refl ended) hids hfull hfull rfl

/-- The Predictionend of a score of 5 has 1 a day later. -/
theorem predictionend_drops_twice : ¬∀ (tables later : Tables) (item : Ref) (row : Popularity), Steady tables later →
    later.Keyed → Full (exact (fun _ => 0) points) tables → Full (exact (fun _ => 0) points) later →
      tables.popularity item = some row → tables.Swept item → DropsAtRate (fun _ => 0) points tables later row := by
  intro hall
  have hids : ended.Keyed := keyed_of_unique (by simp [UniqueKeys, ended])
  have hfull : Full (exact (fun _ => 0) points) ended := fun _ _ => rfl
  have hswept : ended.Swept ⟨.predictionend, 1⟩ :=
    ⟨⟨⟨.predictionend, 1⟩, ⟨.stock, 1⟩⟩, by simp [ended], by simp [Tables.visited]⟩
  have h := hall ended ended ⟨.predictionend, 1⟩ ⟨2, ⟨.predictionend, 1⟩, 0⟩ (.refl ended) hids hfull hfull rfl hswept
    0 day (fun _ => 0) _ _ _ (by decide) (hfull.sweep_eq 0 _) .refl (hfull.sweep_eq day _)
  have hfirst : scoring (exact (fun _ => 0) points) ended 0 ended.visits (fun _ => 0) 2 = 5 := by decide +kernel
  have hlast : scoring (exact (fun _ => 0) points) ended day ended.visits
      (scoring (exact (fun _ => 0) points) ended 0 ended.visits fun _ => 0) 2 = 1 := by decide +kernel
  have hone : (days (day - 0) : Rat) = 1 := days_one
  rw [hfirst, hlast, hone, rate_eq (by decide), abs_le] at h
  norm_num at h

end MyStockIQ.Sweep
