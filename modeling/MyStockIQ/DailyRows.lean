import MyStockIQ.DailyPrices
import MyStockIQ.MarketHours
import Mathlib.Data.List.Nodup
/-!
# The rows of a day

A provisional row is stamped in the trading hours of its day, and the row of the
official close at the end of them. So two rows of one day are less than twelve
hours apart and rows of different days more (`day_lt_iff`): the newest row is of
the day of a bar just when `update_daily` takes it to be (`DailyInv.updateDaily`).
-/

namespace MyStockIQ.Scraper

/-! ## New York dates -/

/-- The date in New York, in days since the epoch. -/
def nyDate (t : Time) : Int := (toI t + utcOffset t) / 86400

/-- The seconds since midnight in New York. -/
def nyClock (t : Time) : Int := (toI t + utcOffset t) % 86400

theorem utcOffset_cases (t : Time) : utcOffset t = -14400 ∨ utcOffset t = -18000 := by
  unfold utcOffset
  split
  · exact .inl rfl
  · exact .inr rfl

namespace GoogleDaily

theorem graphT_eq (day : Int) :
    graphT day = (day * 86400 + 72000) * 1000 ∨ graphT day = (day * 86400 + 75600) * 1000 := by
  unfold graphT graphTime toI
  dsimp only
  rcases utcOffset_cases (day * 86400 * 1000000000) with h | h <;> rw [h] <;> omega

/-- The close of a day is on that day in New York. -/
theorem nyDate_graphT (day : Int) : nyDate (utcTime (graphT day)) = day := by
  unfold nyDate
  rw [toI_utcTime]
  rcases graphT_eq day with h | h <;> rcases utcOffset_cases (utcTime (graphT day)) with h' | h' <;> rw [h', h] <;> omega

end GoogleDaily

open GoogleDaily

/-- In the trading hours of its day, and before the close. -/
def InSession (graph_time : Int) : Prop :=
  clock 9 30 0 ≤ nyClock (utcTime graph_time) ∧ graph_time < graphT (nyDate (utcTime graph_time))

/-- Between the opening of a day and its close, whatever the offset. -/
theorem InSession.opening {graph_time : Int} (h : InSession graph_time) :
    (nyDate (utcTime graph_time) * 86400 + 48600) * 1000 ≤ graph_time := by
  have hclock := h.1
  unfold nyClock clock at hclock
  unfold nyDate
  rw [toI_utcTime] at hclock ⊢
  rcases utcOffset_cases (utcTime graph_time) with h' | h' <;> rw [h'] at hclock ⊢ <;> omega

/-- Between the opening of a day and four in the afternoon, whatever the offset. -/
def OnDay (day graph_time : Int) : Prop :=
  (day * 86400 + 48600) * 1000 ≤ graph_time ∧ graph_time < (day * 86400 + 75601) * 1000

/-- Twelve hours tell whether two times are on one day. -/
theorem onDay_lt_iff {day day' graph_time graph_time' : Int} (h : OnDay day graph_time) (h' : OnDay day' graph_time') :
    day < day' ↔ graph_time + twelveHours < graph_time' := by
  unfold OnDay at h h'
  unfold twelveHours
  omega

theorem onDay_of_clock {graph_time : Int} (h0 : clock 9 30 0 ≤ nyClock (utcTime graph_time))
    (h1 : nyClock (utcTime graph_time) ≤ clock 16 0 0) : OnDay (nyDate (utcTime graph_time)) graph_time := by
  unfold nyClock clock at h0 h1
  unfold OnDay nyDate
  rw [toI_utcTime] at h0 h1 ⊢
  rcases utcOffset_cases (utcTime graph_time) with h' | h' <;> rw [h'] at h0 h1 ⊢ <;> omega

theorem utcTime_lt {graph_time graph_time' : Int} (h : graph_time + twelveHours < graph_time') :
    utcTime graph_time < utcTime graph_time' := by
  unfold twelveHours at h
  have hseconds : graph_time / 1000 < graph_time' / 1000 := by omega
  unfold utcTime
  apply Int.mul_lt_mul_of_pos_right hseconds
  decide

variable {R : Type}

def Stockprice.day (self : Stockprice R) : Int := nyDate self.date

/-- The hash of the official close of a day: its open, its close and its volume. -/
def officialClose (official : Str → Int → R × R × Int) (ticker_symbol : Str) (day : Int) : DailyHash R where
  ticker_symbol := ticker_symbol
  date := utcTime (graphT day)
  open_price := (official ticker_symbol day).1
  close_price := (official ticker_symbol day).2.1
  volume := (official ticker_symbol day).2.2
  split := 1
  graph_time := graphT day

/-- The row lies on its day, after the opening and not after the close; at the close it is the official row. -/
structure Placed (official : Str → Int → R × R × Int) (row : Stockprice R) : Prop where
  date : row.date = utcTime row.graph_time
  opening : (row.day * 86400 + 48600) * 1000 ≤ row.graph_time
  close : row.graph_time ≤ graphT row.day
  official : row.graph_time = graphT row.day → row = (officialClose official row.ticker_symbol row.day).row row.id

section
variable {official : Str → Int → R × R × Int} {row other : Stockprice R}

theorem Placed.onDay (h : Placed official row) : OnDay row.day row.graph_time := by
  have hclose := h.close
  refine ⟨h.opening, ?_⟩
  rcases graphT_eq row.day with heq | heq <;> omega

theorem day_lt_iff (h : Placed official row) (h' : Placed official other) :
    row.day < other.day ↔ row.graph_time + twelveHours < other.graph_time :=
  onDay_lt_iff h.onDay h'.onDay

theorem Placed.date_lt (h : Placed official row) (h' : Placed official other) (hlt : row.day < other.day) :
    row.date < other.date := by
  rw [h.date, h'.date]
  exact utcTime_lt ((day_lt_iff h h').1 hlt)

theorem day_le_of_date_le (h : Placed official row) (h' : Placed official other) (hle : row.date ≤ other.date) :
    row.day ≤ other.day := by
  by_contra hlt
  exact absurd (h'.date_lt h (Int.not_le.1 hlt)) (Int.not_lt.2 hle)

/-- A row that has the date of the close of its day is the official row. -/
theorem Placed.official_of_date (h : Placed official row) {day : Int} (hdate : row.date = utcTime (graphT day)) :
    row.day = day ∧ row = (officialClose official row.ticker_symbol day).row row.id := by
  have hday : row.day = day := by
    unfold Stockprice.day
    rw [hdate, nyDate_graphT]
  subst hday
  refine ⟨rfl, h.official ?_⟩
  have hclose := h.close
  have hseconds : row.graph_time / 1000 = graphT row.day / 1000 := by
    have hrow := congrArg toI (hdate.symm.trans h.date)
    rw [toI_utcTime, toI_utcTime] at hrow
    exact hrow.symm
  rcases graphT_eq row.day with heq | heq <;> omega

theorem InSession.placed (hdate : row.date = utcTime row.graph_time) (h : InSession row.graph_time) :
    Placed official row := by
  have hday : row.day = nyDate (utcTime row.graph_time) := by
    unfold Stockprice.day
    rw [hdate]
  refine ⟨hdate, ?_, ?_, ?_⟩
  · rw [hday]
    exact h.opening
  · rw [hday]
    exact h.2.le
  · rw [hday]
    intro hclose
    exact absurd hclose h.2.ne

theorem placed_official (ticker_symbol : Str) (day : Int) (id : Nat) :
    Placed official ((officialClose official ticker_symbol day).row id) := by
  have hday : ((officialClose official ticker_symbol day).row id).day = day := nyDate_graphT day
  refine ⟨rfl, ?_, ?_, ?_⟩
  · rw [hday]
    show _ ≤ graphT day
    rcases graphT_eq day with heq | heq <;> omega
  · rw [hday]
    exact le_refl _
  · intro _
    rw [hday]
    rfl

end

/-! ## The newest rows -/

section
variable (order : DateDesc R) {rows : List (Stockprice R)} {newest second : Stockprice R} {rest : List (Stockprice R)}

theorem mem_reorder {row : Stockprice R} : row ∈ order.reorder rows ↔ row ∈ rows := (order.perm rows).mem_iff

theorem newest_of_reorder (h : order.reorder rows = newest :: rest) :
    newest ∈ rows ∧ ∀ row ∈ rows, row.date ≤ newest.date := by
  have hsorted := order.sorted rows
  rw [h] at hsorted
  constructor
  · apply (mem_reorder order).1
    simp [h]
  · intro row hrow
    have hmem := (mem_reorder order).2 hrow
    rw [h] at hmem
    rcases List.mem_cons.1 hmem with rfl | hrest
    · exact le_refl _
    · exact List.rel_of_pairwise_cons hsorted hrest

/-- The two newest rows, if there are no others of their dates. -/
theorem reorder_two (hnodup : rows.Nodup) (hnewest : newest ∈ rows) (hsecond : second ∈ rows)
    (hlt : second.date < newest.date)
    (hrest : ∀ row ∈ rows, row = newest ∨ row = second ∨ row.date < second.date) :
    ∃ rest, order.reorder rows = newest :: second :: rest := by
  have hsorted := order.sorted rows
  have hnodup' := (order.perm rows).nodup_iff.2 hnodup
  have hmem (row : Stockprice R) : row ∈ order.reorder rows ↔ row ∈ rows := mem_reorder order
  cases h : order.reorder rows with
  | nil =>
    rw [h] at hmem
    exact absurd ((hmem newest).2 hnewest) List.not_mem_nil
  | cons first tail =>
    rw [h] at hsorted hnodup' hmem
    have hfirst : first = newest := by
      rcases List.mem_cons.1 ((hmem newest).2 hnewest) with heq | hin
      · exact heq.symm
      · have hle := List.rel_of_pairwise_cons hsorted hin
        rcases hrest first ((hmem first).1 List.mem_cons_self) with rfl | rfl | hold
        · rfl
        · exact absurd hlt (not_lt.2 hle)
        · exact absurd (hold.trans hlt) (not_lt.2 hle)
    subst hfirst
    have hin : second ∈ tail := by
      rcases List.mem_cons.1 ((hmem second).2 hsecond) with heq | hin
      · rw [heq] at hlt
        exact absurd hlt (lt_irrefl _)
      · exact hin
    cases tail with
    | nil => exact absurd hin List.not_mem_nil
    | cons next tail =>
      have hnext : next = second := by
        rcases List.mem_cons.1 hin with heq | hin
        · exact heq.symm
        · have hle := List.rel_of_pairwise_cons (List.pairwise_cons.1 hsorted).2 hin
          rcases hrest next ((hmem next).1 (by simp)) with rfl | rfl | hold
          · exact absurd List.mem_cons_self (List.nodup_cons.1 hnodup').1
          · rfl
          · exact absurd hold (not_lt.2 hle)
      exact ⟨tail, by rw [hnext]⟩

end

/-! ## What is kept -/

/-- Each row is placed on its day. -/
structure PlacedRows (official : Str → Int → R × R × Int) (market : Market R) : Prop where
  ids : (market.stockprices.map (·.id)).Nodup
  fresh : ∀ row ∈ market.stockprices, row.id < market.stockprice_seq
  placed : ∀ row ∈ market.stockprices, Placed official row

/-- A ticker symbol has at most one row for each day. -/
structure DailyInv (official : Str → Int → R × R × Int) (market : Market R) : Prop
    extends PlacedRows official market where
  days : ∀ ticker_symbol, ((market.daily ticker_symbol).map Stockprice.day).Nodup

section
variable {official : Str → Int → R × R × Int} {market market' : Market R} {ticker_symbol : Str}

theorem PlacedRows.of_eq (h : PlacedRows official market) (hprices : market'.stockprices = market.stockprices)
    (hseq : market'.stockprice_seq = market.stockprice_seq) : PlacedRows official market' := by
  refine ⟨?_, ?_, ?_⟩
  · rw [hprices]
    exact h.ids
  · rw [hprices, hseq]
    exact h.fresh
  · rw [hprices]
    exact h.placed

theorem DailyInv.of_eq (h : DailyInv official market) (hprices : market'.stockprices = market.stockprices)
    (hseq : market'.stockprice_seq = market.stockprice_seq) : DailyInv official market' := by
  refine ⟨h.toPlacedRows.of_eq hprices hseq, ?_⟩
  · intro ticker_symbol
    unfold Market.daily
    rw [hprices]
    exact h.days ticker_symbol

theorem mem_daily {row : Stockprice R} :
    row ∈ market.daily ticker_symbol ↔ row ∈ market.stockprices ∧ row.ticker_symbol = ticker_symbol := by
  simp [Market.daily]

theorem DailyInv.row_eq (h : DailyInv official market) {row other : Stockprice R} (hrow : row ∈ market.daily ticker_symbol)
    (hother : other ∈ market.daily ticker_symbol) (hday : row.day = other.day) : row = other :=
  List.inj_on_of_nodup_map (h.days ticker_symbol) hrow hother hday

theorem updateStock_prices {price_list : List (Time × R)} (h : updateStock ticker_symbol price_list market = some market') :
    market'.stockprices = market.stockprices ∧ market'.stockprice_seq = market.stockprice_seq := by
  unfold updateStock at h
  split at h
  · cases h
  · split at h
    · cases h
      exact ⟨rfl, rfl⟩
    · split at h
      · cases h
        exact ⟨rfl, rfl⟩
      · cases h
        exact ⟨rfl, rfl⟩

theorem updateStock_isSome {price_list : List (Time × R)}
    (h : (market.stocks.find? (·.ticker_symbol = ticker_symbol)).isSome) :
    ∃ market', updateStock ticker_symbol price_list market = some market' := by
  obtain ⟨stock, hstock⟩ := Option.isSome_iff_exists.1 h
  unfold updateStock
  rw [hstock]
  dsimp only
  split
  · exact ⟨_, rfl⟩
  · split
    · exact ⟨_, rfl⟩
    · exact ⟨_, rfl⟩

end

/-! ## `google_intraday` -/

section
variable {official : Str → Int → R × R × Int} {market : Market R} {ticker_symbol : Str}

theorem daily_createDaily (row : Stockprice R) : (market.createDaily row).daily ticker_symbol =
    market.daily ticker_symbol ++
      if row.ticker_symbol = ticker_symbol then [{ row with id := market.stockprice_seq }] else [] := by
  simp [Market.daily, Market.createDaily, List.filter_append, List.filter_singleton]

theorem daily_updateDailyRow (id : Nat) {set : Stockprice R → Stockprice R}
    (hticker : ∀ row, (set row).ticker_symbol = row.ticker_symbol) : (market.updateDailyRow id set).daily ticker_symbol =
    (market.daily ticker_symbol).map fun row => if row.id = id then set row else row := by
  unfold Market.daily Market.updateDailyRow
  rw [List.filter_map]
  congr 1
  apply List.filter_congr
  intro row _
  dsimp only [Function.comp_apply]
  split
  · rw [hticker]
  · rfl

/-- The new row gets an id that no row has. -/
theorem ids_createDaily (hids : (market.stockprices.map (·.id)).Nodup)
    (hfresh : ∀ row ∈ market.stockprices, row.id < market.stockprice_seq) (row : Stockprice R) :
    ((market.createDaily row).stockprices.map (·.id)).Nodup := by
  simp only [Market.createDaily, List.map_append, List.map_cons, List.map_nil]
  refine List.nodup_append.2 ⟨hids, List.nodup_singleton _, ?_⟩
  rintro id hid _ hnew rfl
  obtain ⟨other, hother, rfl⟩ := List.mem_map.1 hid
  have hlt := hfresh other hother
  rw [List.mem_singleton.1 hnew] at hlt
  exact lt_irrefl _ hlt

theorem fresh_createDaily (hfresh : ∀ row ∈ market.stockprices, row.id < market.stockprice_seq) (row : Stockprice R) :
    ∀ other ∈ (market.createDaily row).stockprices, other.id < (market.createDaily row).stockprice_seq := by
  intro other hother
  rcases List.mem_append.1 hother with hold | hnew
  · exact Nat.lt_succ_of_lt (hfresh other hold)
  · rw [List.mem_singleton.1 hnew]
    exact Nat.lt_succ_self _

/-- A row of a later day than the others of its ticker symbol. -/
theorem DailyInv.created (h : DailyInv official market) {row : Stockprice R}
    (hplaced : Placed official { row with id := market.stockprice_seq })
    (hlater : ∀ other ∈ market.daily row.ticker_symbol, other.day < row.day) :
    DailyInv official (market.createDaily row) := by
  refine ⟨⟨ids_createDaily h.ids h.fresh row, fresh_createDaily h.fresh row, ?_⟩, ?_⟩
  · intro other hother
    rcases List.mem_append.1 hother with hold | hnew
    · exact h.placed other hold
    · rw [List.mem_singleton.1 hnew]
      exact hplaced
  · intro ticker_symbol
    rw [daily_createDaily]
    split
    · next hticker =>
      subst hticker
      rw [List.map_append]
      refine List.nodup_append.2 ⟨h.days _, List.nodup_singleton _, ?_⟩
      rintro day hday _ hnew rfl
      obtain ⟨other, hother, rfl⟩ := List.mem_map.1 hday
      have hlt := hlater other hother
      rw [List.mem_singleton.1 hnew] at hlt
      exact lt_irrefl _ hlt
    · rw [List.append_nil]
      exact h.days ticker_symbol

/-- A row that stays on its day. -/
theorem DailyInv.updated (h : DailyInv official market) {row : Stockprice R} (hrow : row ∈ market.stockprices)
    {set : Stockprice R → Stockprice R} (hid : (set row).id = row.id)
    (hticker : (set row).ticker_symbol = row.ticker_symbol) (hday : (set row).day = row.day)
    (hplaced : Placed official (set row)) : DailyInv official (market.updateDailyRow row.id set) := by
  let update (other : Stockprice R) : Stockprice R := if other.id = row.id then set other else other
  have hupdate : ∀ other ∈ market.stockprices, (other = row ∧ update other = set row) ∨ update other = other := by
    intro other hother
    by_cases heq : other.id = row.id
    · have hsame := List.inj_on_of_nodup_map h.ids hother hrow heq
      left
      exact ⟨hsame, by rw [hsame]; simp [update]⟩
    · right
      simp [update, heq]
  have hkeeps {β : Type} {field : Stockprice R → β} (hrow : field (set row) = field row) :
      ∀ other ∈ market.stockprices, field (update other) = field other := by
    intro other hother
    rcases hupdate other hother with ⟨rfl, heq⟩ | heq
    · rw [heq, hrow]
    · rw [heq]
  have hids : ∀ other ∈ market.stockprices, (update other).id = other.id := hkeeps hid
  refine ⟨⟨?_, ?_, ?_⟩, ?_⟩
  · show ((market.stockprices.map update).map (·.id)).Nodup
    rw [List.map_map, List.map_congr_left (f := (·.id) ∘ update) hids]
    exact h.ids
  · intro other hother
    obtain ⟨old, hold, rfl⟩ := List.mem_map.1 hother
    show (update old).id < _
    rw [hids old hold]
    exact h.fresh old hold
  · intro other hother
    obtain ⟨old, hold, rfl⟩ := List.mem_map.1 hother
    show Placed official (update old)
    rcases hupdate old hold with ⟨-, heq⟩ | heq
    · rw [heq]
      exact hplaced
    · rw [heq]
      exact h.placed old hold
  · intro ticker_symbol
    have hdaily : (market.updateDailyRow row.id set).daily ticker_symbol =
        (market.daily ticker_symbol).map update := by
      show (market.stockprices.map update).filter _ = _
      rw [List.filter_map]
      congr 1
      apply List.filter_congr
      intro other hother
      simp [hkeeps hticker other hother]
    have hsame : (market.daily ticker_symbol).map (Stockprice.day ∘ update) =
        (market.daily ticker_symbol).map Stockprice.day :=
      List.map_congr_left fun other hother => hkeeps hday other (mem_daily.1 hother).1
    rw [hdaily, List.map_map, hsame]
    exact h.days ticker_symbol

variable (ruby : Ruby R) (order : DateDesc R)

/-- A bar that does not come after the close of its day, unless there is a row at or after it. -/
def Timely (market : Market R) (ticker_symbol : Str) (graph_time : Int) : Prop :=
  (∃ row ∈ market.daily ticker_symbol, graph_time ≤ row.graph_time) ∨ InSession graph_time

theorem DailyInv.updateDaily (h : DailyInv official market) {last : IntradayHash R}
    (hdate : last.date = utcTime last.graph_time) (htimely : Timely market ticker_symbol last.graph_time) :
    DailyInv official ((updateDaily ruby order ticker_symbol last market).getD market) := by
  unfold Scraper.updateDaily
  split
  · next daily_price yesterday rest hreorder =>
    obtain ⟨hnewest, hlatest⟩ := newest_of_reorder order hreorder
    obtain ⟨hmem, hticker⟩ := mem_daily.1 hnewest
    have hplaced := h.placed daily_price hmem
    have hdays : ∀ row ∈ market.daily ticker_symbol, row.day ≤ daily_price.day := fun row hrow =>
      day_le_of_date_le (h.placed row (mem_daily.1 hrow).1) hplaced (hlatest row hrow)
    -- A bar after the newest row comes after every row, so it is in session.
    have hsession : daily_price.graph_time < last.graph_time → InSession last.graph_time := by
      intro hlt
      rcases htimely with ⟨row, hrow, hle⟩ | hsession
      · have hlast : daily_price.graph_time < row.graph_time := by omega
        rcases (hdays row hrow).lt_or_eq with hday | hday
        · have hgap := (day_lt_iff (h.placed row (mem_daily.1 hrow).1) hplaced).1 hday
          unfold twelveHours at hgap
          omega
        · rw [h.row_eq hrow hnewest hday] at hlast
          exact absurd hlast (lt_irrefl _)
      · exact hsession
    split
    · next hgap =>
      have hin := hsession (by unfold twelveHours at hgap; omega)
      apply h.created
      · exact hin.placed hdate
      · intro other hother
        refine lt_of_le_of_lt (hdays other hother) ?_
        refine (day_lt_iff hplaced ?_).2 hgap
        exact hin.placed hdate
    · next hgap =>
      split
      · next hlt =>
        have hin := hsession hlt
        have hnew : Placed official
            { daily_price with
              date := last.date
              close_price := last.close_price
              graph_time := last.graph_time
              daily_percent_change := some (ruby.percentChange last.close_price yesterday.close_price) } :=
          hin.placed hdate
        refine h.updated hmem rfl rfl ?_ hnew
        -- The bar is within twelve hours of the row, so they are of one day.
        apply le_antisymm
        · by_contra hday
          exact hgap ((day_lt_iff hplaced hnew).1 (not_le.1 hday))
        · by_contra hday
          have hback := (day_lt_iff hnew hplaced).1 (not_le.1 hday)
          unfold twelveHours at hback
          dsimp only at hback
          omega
      · exact h
  · exact h

end

end MyStockIQ.Scraper
