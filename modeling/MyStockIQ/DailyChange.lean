import MyStockIQ.Session
import MyStockIQ.Score
import MyStockIQ.OneDaily
/-!
# The daily change (`Scraper#update_daily`)

`update_daily` takes the last price of an intraday feed to the daily table. It
makes a row for a new day, and moves the newest row on during the day; either way
the change is against the close of the trading day before. Twelve hours tell the
two cases apart, since a session is shorter and a night longer.

The nightly import puts an official row in the place of the day's row. It does
not fill in the column of the change, so the change is lost with the row that is
removed.
-/

namespace MyStockIQ.Scraper

variable {R : Type}

/-- The row lies on its day, in the hours of trading. -/
structure Traded (row : Stockprice R) : Prop where
  date : row.date = utcTime row.graph_time
  onDay : OnDay row.day row.graph_time

/-- What the rows of a ticker symbol are like: each of a day of its own, and two of
them at least. -/
structure DailyTable (ticker_symbol : Str) (market : Market R) : Prop where
  ids : (market.stockprices.map (·.id)).Nodup
  fresh : ∀ row ∈ market.stockprices, row.id < market.stockprice_seq
  two : 2 ≤ (market.daily ticker_symbol).length
  traded : ∀ row ∈ market.daily ticker_symbol, Traded row
  days : ((market.daily ticker_symbol).map Stockprice.day).Nodup

/-- A price at a valid stock time. -/
structure IntradayHash.Timed (last : IntradayHash R) : Prop where
  date : last.date = utcTime last.graph_time
  valid : validStockTime last.graph_time = true

theorem IntradayHash.Timed.onDay {last : IntradayHash R} (h : last.Timed) : OnDay (nyDate last.date) last.graph_time := by
  obtain ⟨-, hopen, hclose, -⟩ := open_of_valid h.valid
  rw [h.date]
  exact onDay_of_clock hopen (hclose.trans (closeOfDay_bounds _).2)

theorem Traded.date_lt {row other : Stockprice R} (h : Traded row) (h' : Traded other) (hlt : row.day < other.day) :
    row.date < other.date := by
  rw [h.date, h'.date]
  exact utcTime_lt ((onDay_lt_iff h.onDay h'.onDay).1 hlt)

/-! ## The two newest rows -/

section
variable (order : DateDesc R) {market : Market R} {ticker_symbol : Str}

/-- Newest first is by the day, too. -/
theorem reorder_days {rows : List (Stockprice R)} (htraded : ∀ row ∈ rows, Traded row)
    (hdays : (rows.map Stockprice.day).Nodup) :
    (order.reorder rows).Pairwise fun newer older => older.day < newer.day := by
  have hperm := order.perm rows
  have hdistinct : (order.reorder rows).Pairwise fun newer older => newer.day ≠ older.day :=
    List.pairwise_map.1 ((hperm.map Stockprice.day).nodup_iff.2 hdays)
  refine ((order.sorted rows).and hdistinct).imp_of_mem ?_
  rintro newer older hnewer holder ⟨hdate, hne⟩
  rcases lt_trichotomy older.day newer.day with hlt | heq | hgt
  · exact hlt
  · exact absurd heq.symm hne
  · have hback := (htraded newer (hperm.mem_iff.1 hnewer)).date_lt (htraded older (hperm.mem_iff.1 holder)) hgt
    exact absurd hdate (not_le.2 hback)

theorem DailyTable.two_newest (h : DailyTable ticker_symbol market) : ∃ newest second rest,
    order.reorder (market.daily ticker_symbol) = newest :: second :: rest ∧ newest ∈ market.daily ticker_symbol ∧
      second ∈ market.daily ticker_symbol ∧ second.day < newest.day ∧
      ∀ row ∈ market.daily ticker_symbol, row = newest ∨ row.day ≤ second.day := by
  have hperm := order.perm (market.daily ticker_symbol)
  have hsorted := reorder_days order h.traded h.days
  have htwo := h.two
  rw [← hperm.length_eq] at htwo
  cases hlist : order.reorder (market.daily ticker_symbol) with
  | nil => simp [hlist] at htwo
  | cons newest tail =>
    cases tail with
    | nil => simp [hlist] at htwo
    | cons second rest =>
      rw [hlist] at hsorted
      have hmem (row : Stockprice R) : row ∈ newest :: second :: rest ↔ row ∈ market.daily ticker_symbol := by
        rw [← hlist]
        exact hperm.mem_iff
      obtain ⟨hnewest, hrest⟩ := List.pairwise_cons.1 hsorted
      refine ⟨newest, second, rest, rfl, (hmem newest).1 (by simp), (hmem second).1 (by simp),
        hnewest second List.mem_cons_self, ?_⟩
      intro row hrow
      rcases List.mem_cons.1 ((hmem row).2 hrow) with rfl | hin
      · exact .inl rfl
      · right
        rcases List.mem_cons.1 hin with rfl | hin
        · exact le_refl _
        · exact ((List.pairwise_cons.1 hrest).1 row hin).le

end

/-! ## What a call does -/

section
variable (ruby : Ruby R) (order : DateDesc R) {market : Market R} {ticker_symbol : Str} {last : IntradayHash R}

/-- The row of a new day. -/
def newDay (ticker_symbol : Str) (last : IntradayHash R) (daily_price : Stockprice R) : Stockprice R where
  id := 0
  ticker_symbol := ticker_symbol
  date := last.date
  open_price := last.open_price
  close_price := last.close_price
  volume := none
  split := 1
  daily_percent_change := some (ruby.percentChange last.close_price daily_price.close_price)
  graph_time := last.graph_time

/-- The row of a day, moved on to a later price. -/
def movedOn (last : IntradayHash R) (yesterday row : Stockprice R) : Stockprice R :=
  { row with
    date := last.date
    close_price := last.close_price
    graph_time := last.graph_time
    daily_percent_change := some (ruby.percentChange last.close_price yesterday.close_price) }

/-- A price after all the rows makes a row of a new day, or moves the newest row on, which
then is of the day of the price. -/
theorem updateDaily_cases (h : DailyTable ticker_symbol market) (hlast : last.Timed)
    (hlater : ∀ row ∈ market.daily ticker_symbol, row.graph_time < last.graph_time) :
    ∃ newest ∈ market.daily ticker_symbol, ∃ second ∈ market.daily ticker_symbol, second.day < newest.day ∧
      (∀ row ∈ market.daily ticker_symbol, row = newest ∨ row.day ≤ second.day) ∧
      ((newest.day < nyDate last.date ∧ updateDaily ruby order ticker_symbol last market =
          some (market.createDaily (newDay ruby ticker_symbol last newest))) ∨
        (newest.day = nyDate last.date ∧ updateDaily ruby order ticker_symbol last market =
          some (market.updateDailyRow newest.id (movedOn ruby last second)))) := by
  obtain ⟨newest, second, rest, hreorder, hnewest, hsecond, hlt, hrows⟩ := h.two_newest order
  refine ⟨newest, hnewest, second, hsecond, hlt, hrows, ?_⟩
  have hiff := onDay_lt_iff (h.traded newest hnewest).onDay hlast.onDay
  have hback := onDay_lt_iff hlast.onDay (h.traded newest hnewest).onDay
  have hafter := hlater newest hnewest
  unfold Scraper.updateDaily
  rw [hreorder]
  dsimp only
  by_cases hgap : newest.graph_time + twelveHours < last.graph_time
  · left
    refine ⟨hiff.2 hgap, ?_⟩
    rw [if_pos hgap]
    rfl
  · right
    constructor
    · -- Neither day is before the other.
      refine le_antisymm ?_ (not_lt.1 (mt hiff.1 hgap))
      by_contra hday
      have hday' := hback.1 (not_le.1 hday)
      unfold twelveHours at hday'
      omega
    · rw [if_neg hgap, if_pos hafter]
      rfl

/-- What a call leaves: one row for each day; the newest row has the price, and its
change, as `Change` tells, is against the close of the day before it; and the rows of
earlier days are as they were. -/
structure Maintained (Change : R → R → Option R → Prop) (ticker_symbol : Str) (last : IntradayHash R)
    (before after : Market R) : Prop where
  days : ((after.daily ticker_symbol).map Stockprice.day).Nodup
  newest : ∃ newest ∈ after.daily ticker_symbol, ∃ previous ∈ after.daily ticker_symbol,
    newest.date = last.date ∧ newest.graph_time = last.graph_time ∧ newest.close_price = last.close_price ∧
    previous.day < newest.day ∧ (∀ row ∈ after.daily ticker_symbol, row = newest ∨ row.day ≤ previous.day) ∧
    Change newest.close_price previous.close_price newest.daily_percent_change
  earlier : ∀ row, row.day < nyDate last.date → (row ∈ after.daily ticker_symbol ↔ row ∈ before.daily ticker_symbol)

theorem daily_created (newest : Stockprice R) :
    (market.createDaily (newDay ruby ticker_symbol last newest)).daily ticker_symbol =
      market.daily ticker_symbol ++ [{ newDay ruby ticker_symbol last newest with id := market.stockprice_seq }] := by
  rw [daily_createDaily]
  exact congrArg _ (if_pos rfl)

/-- A row is created for a later day. -/
theorem DailyTable.created (h : DailyTable ticker_symbol market) (hlast : last.Timed) (newest : Stockprice R)
    (hlater : ∀ row ∈ market.daily ticker_symbol, row.day < nyDate last.date) :
    DailyTable ticker_symbol (market.createDaily (newDay ruby ticker_symbol last newest)) := by
  refine ⟨ids_createDaily h.ids h.fresh _, fresh_createDaily h.fresh _, ?_, ?_, ?_⟩
  · rw [daily_created, List.length_append]
    exact Nat.le_add_right_of_le h.two
  · rw [daily_created]
    intro row hrow
    rcases List.mem_append.1 hrow with hold | hnew
    · exact h.traded row hold
    · rw [List.mem_singleton.1 hnew]
      exact ⟨hlast.date, hlast.onDay⟩
  · rw [daily_created, List.map_append]
    refine List.nodup_append.2 ⟨h.days, List.nodup_singleton _, ?_⟩
    rintro day hday _ hnew rfl
    obtain ⟨row, hrow, rfl⟩ := List.mem_map.1 hday
    have hlt := hlater row hrow
    rw [List.mem_singleton.1 hnew] at hlt
    exact lt_irrefl _ hlt

/-- What becomes of a row when the newest is moved on. -/
theorem moved_row (h : DailyTable ticker_symbol market) {newest second row : Stockprice R}
    (hnewest : newest ∈ market.daily ticker_symbol) (hrow : row ∈ market.daily ticker_symbol) :
    (row = newest ∧ (if row.id = newest.id then movedOn ruby last second row else row) = movedOn ruby last second newest) ∨
      (row ≠ newest ∧ (if row.id = newest.id then movedOn ruby last second row else row) = row) := by
  by_cases hid : row.id = newest.id
  · have hsame := List.inj_on_of_nodup_map h.ids (mem_daily.1 hrow).1 (mem_daily.1 hnewest).1 hid
    exact .inl ⟨hsame, by rw [if_pos hid, hsame]⟩
  · exact .inr ⟨fun hsame => hid (congrArg _ hsame), if_neg hid⟩

/-- The newest row is moved on, and stays on its day. -/
theorem DailyTable.updated (h : DailyTable ticker_symbol market) (hlast : last.Timed) {newest : Stockprice R}
    (second : Stockprice R) (hnewest : newest ∈ market.daily ticker_symbol) (hday : newest.day = nyDate last.date) :
    DailyTable ticker_symbol (market.updateDailyRow newest.id (movedOn ruby last second)) := by
  have hdaily : (market.updateDailyRow newest.id (movedOn ruby last second)).daily ticker_symbol = _ :=
    daily_updateDailyRow newest.id (fun _ => rfl)
  have hids : (market.updateDailyRow newest.id (movedOn ruby last second)).stockprices.map (·.id) =
      market.stockprices.map (·.id) := by
    unfold Market.updateDailyRow
    rw [List.map_map]
    apply List.map_congr_left
    intro row _
    dsimp only [Function.comp_apply]
    split <;> rfl
  refine ⟨?_, ?_, ?_, ?_, ?_⟩
  · rw [hids]
    exact h.ids
  · intro row hrow
    have hid := List.mem_map_of_mem (f := (·.id)) hrow
    rw [hids] at hid
    obtain ⟨old, hold, heq⟩ := List.mem_map.1 hid
    show row.id < market.stockprice_seq
    rw [← heq]
    exact h.fresh old hold
  · rw [hdaily, List.length_map]
    exact h.two
  · rw [hdaily]
    intro row hrow
    obtain ⟨old, hold, rfl⟩ := List.mem_map.1 hrow
    rcases moved_row ruby h hnewest hold with ⟨-, heq⟩ | ⟨-, heq⟩ <;> rw [heq]
    · exact ⟨hlast.date, hlast.onDay⟩
    · exact h.traded old hold
  · rw [hdaily, List.map_map]
    have hsame : (market.daily ticker_symbol).map (Stockprice.day ∘ fun row =>
        if row.id = newest.id then movedOn ruby last second row else row) =
        (market.daily ticker_symbol).map Stockprice.day := by
      apply List.map_congr_left
      intro row hrow
      dsimp only [Function.comp_apply]
      rcases moved_row ruby h hnewest hrow with ⟨rfl, heq⟩ | ⟨-, heq⟩ <;> rw [heq]
      exact hday.symm
    rw [hsame]
    exact h.days

/-- What a created row leaves. -/
theorem DailyTable.maintained_created (h : DailyTable ticker_symbol market) (hlast : last.Timed) {newest : Stockprice R}
    (hlater : ∀ row ∈ market.daily ticker_symbol, row.graph_time < last.graph_time)
    (hnewest : newest ∈ market.daily ticker_symbol) (hdays : ∀ row ∈ market.daily ticker_symbol, row.day ≤ newest.day)
    (hday : newest.day < nyDate last.date) :
    Maintained (fun close previous change => change = some (ruby.percentChange close previous)) ticker_symbol last
        market (market.createDaily (newDay ruby ticker_symbol last newest)) ∧
      ∀ row ∈ (market.createDaily (newDay ruby ticker_symbol last newest)).daily ticker_symbol,
        row.graph_time ≤ last.graph_time := by
  have htable := h.created ruby hlast newest fun row hrow => (hdays row hrow).trans_lt hday
  refine ⟨⟨htable.days, ?_, ?_⟩, ?_⟩
  · rw [daily_created]
    refine ⟨_, List.mem_append_right _ (List.mem_singleton_self _), newest, List.mem_append_left _ hnewest, rfl, rfl,
      rfl, hday, ?_, rfl⟩
    intro row hrow
    rcases List.mem_append.1 hrow with hold | hnew
    · exact .inr (hdays row hold)
    · exact .inl (List.mem_singleton.1 hnew)
  · intro row hrow
    rw [daily_created, List.mem_append, or_iff_left]
    intro hnew
    rw [List.mem_singleton.1 hnew] at hrow
    exact lt_irrefl _ hrow
  · rw [daily_created]
    intro row hrow
    rcases List.mem_append.1 hrow with hold | hnew
    · exact (hlater row hold).le
    · rw [List.mem_singleton.1 hnew]
      exact le_refl _

/-- What a row moved on leaves. -/
theorem DailyTable.maintained_updated (h : DailyTable ticker_symbol market) (hlast : last.Timed) {newest second : Stockprice R}
    (hlater : ∀ row ∈ market.daily ticker_symbol, row.graph_time < last.graph_time)
    (hnewest : newest ∈ market.daily ticker_symbol) (hsecond : second ∈ market.daily ticker_symbol)
    (hlt : second.day < newest.day) (hrows : ∀ row ∈ market.daily ticker_symbol, row = newest ∨ row.day ≤ second.day)
    (hday : newest.day = nyDate last.date) :
    Maintained (fun close previous change => change = some (ruby.percentChange close previous)) ticker_symbol last
        market (market.updateDailyRow newest.id (movedOn ruby last second)) ∧
      ∀ row ∈ (market.updateDailyRow newest.id (movedOn ruby last second)).daily ticker_symbol,
        row.graph_time ≤ last.graph_time := by
  have htable := h.updated ruby hlast second hnewest hday
  have hdaily : (market.updateDailyRow newest.id (movedOn ruby last second)).daily ticker_symbol = _ :=
    daily_updateDailyRow newest.id (fun _ => rfl)
  have hmem {row : Stockprice R} (hrow : row ∈ market.daily ticker_symbol) (hne : row ≠ newest) :
      row ∈ (market.updateDailyRow newest.id (movedOn ruby last second)).daily ticker_symbol := by
    rw [hdaily]
    refine List.mem_map.2 ⟨row, hrow, ?_⟩
    exact ((moved_row ruby h hnewest hrow).resolve_left fun heq => hne heq.1).2
  have hsecond_ne : second ≠ newest := by
    rintro rfl
    exact lt_irrefl _ hlt
  refine ⟨⟨htable.days, ?_, ?_⟩, ?_⟩
  · refine ⟨movedOn ruby last second newest, ?_, second, hmem hsecond hsecond_ne, rfl, rfl, rfl, ?_, ?_, rfl⟩
    · rw [hdaily]
      exact List.mem_map.2 ⟨newest, hnewest, if_pos rfl⟩
    · exact hlt.trans_eq hday
    · rw [hdaily]
      intro row hrow
      obtain ⟨old, hold, rfl⟩ := List.mem_map.1 hrow
      rcases moved_row ruby h hnewest hold with ⟨-, heq⟩ | ⟨hne, heq⟩ <;> rw [heq]
      · exact .inl rfl
      · exact .inr ((hrows old hold).resolve_left hne)
  · intro row hrow
    constructor
    · rw [hdaily]
      intro hin
      obtain ⟨old, hold, rfl⟩ := List.mem_map.1 hin
      rcases moved_row ruby h hnewest hold with ⟨-, heq⟩ | ⟨-, heq⟩ <;> rw [heq] at hrow ⊢
      · exact absurd hrow (lt_irrefl _)
      · exact hold
    · intro hin
      refine hmem hin ?_
      rintro rfl
      rw [hday] at hrow
      exact lt_irrefl _ hrow
  · rw [hdaily]
    intro row hrow
    obtain ⟨old, hold, rfl⟩ := List.mem_map.1 hrow
    rcases moved_row ruby h hnewest hold with ⟨-, heq⟩ | ⟨-, heq⟩ <;> rw [heq]
    · exact le_refl _
    · exact (hlater old hold).le

/-- One call. -/
theorem DailyTable.updateDaily (h : DailyTable ticker_symbol market) (hlast : last.Timed)
    (hlater : ∀ row ∈ market.daily ticker_symbol, row.graph_time < last.graph_time) :
    ∃ after, updateDaily ruby order ticker_symbol last market = some after ∧ DailyTable ticker_symbol after ∧
      Maintained (fun close previous change => change = some (ruby.percentChange close previous)) ticker_symbol last
        market after ∧
      ∀ row ∈ after.daily ticker_symbol, row.graph_time ≤ last.graph_time := by
  obtain ⟨newest, hnewest, second, hsecond, hlt, hrows, ⟨hday, hrun⟩ | ⟨hday, hrun⟩⟩ :=
    updateDaily_cases ruby order h hlast hlater
  · have hdays : ∀ row ∈ market.daily ticker_symbol, row.day ≤ newest.day := by
      intro row hrow
      rcases hrows row hrow with rfl | hle
      · exact le_refl _
      · exact hle.trans hlt.le
    have htable := h.created ruby hlast newest fun row hrow => (hdays row hrow).trans_lt hday
    exact ⟨_, hrun, htable, h.maintained_created ruby hlast hlater hnewest hdays hday⟩
  · have htable := h.updated ruby hlast second hnewest hday
    exact ⟨_, hrun, htable, h.maintained_updated ruby hlast hlater hnewest hsecond hlt hrows hday⟩

/-- The calls of `update_daily`, one after the other; `none` if one raises. -/
def updateDailies (ticker_symbol : Str) : List (IntradayHash R) → Market R → Option (Market R)
  | [], market => some market
  | last :: rest, market => (updateDaily ruby order ticker_symbol last market).bind (updateDailies ticker_symbol rest)

/-- Calls with ever later prices. -/
theorem DailyTable.updateDailies (h : DailyTable ticker_symbol market) (prices : List (IntradayHash R))
    (htimed : ∀ price ∈ prices, price.Timed) (hincreasing : prices.Pairwise fun a b => a.graph_time < b.graph_time)
    (hlater : ∀ row ∈ market.daily ticker_symbol, ∀ first ∈ prices.head?, row.graph_time < first.graph_time) :
    ∃ after, updateDailies ruby order ticker_symbol prices market = some after ∧ DailyTable ticker_symbol after ∧
      ∀ next, (∀ price ∈ prices, price.graph_time < next) →
        (prices = [] → ∀ row ∈ market.daily ticker_symbol, row.graph_time < next) →
        ∀ row ∈ after.daily ticker_symbol, row.graph_time < next := by
  induction prices generalizing market with
  | nil => exact ⟨market, rfl, h, fun next _ hrows => hrows rfl⟩
  | cons last rest ih =>
    obtain ⟨hless, hrest⟩ := List.pairwise_cons.1 hincreasing
    obtain ⟨between, hrun, htable, -, hrows⟩ := h.updateDaily ruby order (htimed last List.mem_cons_self)
      fun row hrow => hlater row hrow last rfl
    obtain ⟨after, hruns, htable', hafter⟩ := ih htable (fun price hprice => htimed price (List.mem_cons_of_mem _ hprice))
      hrest fun row hrow first hfirst => (hrows row hrow).trans_lt (hless first (List.mem_of_head? hfirst))
    refine ⟨after, ?_, htable', ?_⟩
    · show (Scraper.updateDaily ruby order ticker_symbol last market).bind _ = _
      rw [hrun]
      exact hruns
    · intro next hnext _
      refine hafter next (fun price hprice => hnext price (List.mem_cons_of_mem _ hprice)) ?_
      rintro rfl row hrow
      exact (hrows row hrow).trans_lt (hnext last List.mem_cons_self)

end

/-! ## Exact prices -/

/-- `((price / base) * 100).round(2) - 100` of exact prices. -/
def exactChange (price base : ℚ) : ℚ := roundCents (price / base * 100) - 100

/-- Ruby with exact prices. -/
def Ruby.exact (ruby : Ruby ℚ) : Ruby ℚ := { ruby with percentChange := exactChange }

/-- The change against a previous close, which is not zero. -/
def ChangeOf (close previous : ℚ) (change : Option ℚ) : Prop :=
  previous ≠ 0 → change = some (roundCents (100 * close / previous) - 100)

/-- After each call of `update_daily`, of any number of calls with ever later prices,
the table has one row for each day, the newest row has the time and the close of the
price, and its change is against the close of the trading day before; the rows of
earlier days are as they were. -/
theorem daily_maintained (ruby : Ruby ℚ) (order : DateDesc ℚ) {market : Market ℚ} {ticker_symbol : Str}
    (h : DailyTable ticker_symbol market) {past : List (IntradayHash ℚ)} {last : IntradayHash ℚ}
    (htimed : ∀ price ∈ past ++ [last], price.Timed)
    (hincreasing : (past ++ [last]).Pairwise fun a b => a.graph_time < b.graph_time)
    (hlater : ∀ row ∈ market.daily ticker_symbol, ∀ first ∈ (past ++ [last]).head?, row.graph_time < first.graph_time) :
    ∃ before after, updateDailies ruby.exact order ticker_symbol past market = some before ∧
      updateDaily ruby.exact order ticker_symbol last before = some after ∧
      Maintained ChangeOf ticker_symbol last before after := by
  obtain ⟨hpast, -, hless⟩ := List.pairwise_append.1 hincreasing
  obtain ⟨before, hruns, htable, hrows⟩ := h.updateDailies ruby.exact order past
    (fun price hprice => htimed price (List.mem_append_left _ hprice)) hpast fun row hrow first hfirst =>
      hlater row hrow first (by rw [List.head?_append, Option.mem_def.1 hfirst]; rfl)
  have hbefore : ∀ row ∈ before.daily ticker_symbol, row.graph_time < last.graph_time := by
    refine hrows last.graph_time (fun price hprice => hless price hprice last (List.mem_singleton_self _)) ?_
    rintro rfl row hrow
    exact hlater row hrow last rfl
  obtain ⟨after, hrun, -, ⟨hdays, ⟨newest, hnewest, previous, hprevious, hdate, hgraph, hclose, hlt, hall, hchange⟩,
    hearlier⟩, -⟩ := htable.updateDaily ruby.exact order (htimed last (List.mem_append_right _ (List.mem_singleton_self _)))
      hbefore
  refine ⟨before, after, hruns, hrun, hdays, ?_, hearlier⟩
  refine ⟨newest, hnewest, previous, hprevious, hdate, hgraph, hclose, hlt, hall, ?_⟩
  intro _
  rw [hchange]
  show some (roundCents (newest.close_price / previous.close_price * 100) - 100) = _
  rw [div_mul_eq_mul_div, mul_comm]

/-- Rows of the same date come as they were created. -/
def newestFirst : DateDesc R where
  reorder := List.insertionSort fun newer older => older.date ≤ newer.date
  perm := List.perm_insertionSort _
  sorted prices := by
    have : Std.Total fun newer older : Stockprice R => older.date ≤ newer.date := ⟨fun a b => le_total b.date a.date⟩
    have : IsTrans (Stockprice R) fun newer older => older.date ≤ newer.date := ⟨fun _ _ _ h h' => le_trans h' h⟩
    exact List.pairwise_insertionSort _ prices

def centRuby : Ruby ℚ where
  toF text := strToI text
  isZero price := price = 0
  toS price := intToS price.floor ++ ".0".toList
  toS_quote price := by simp [quote_not_mem_intToS]
  percentChange := exactChange
  strptime _ := none

def closeRow (id : Nat) (close : ℚ) (graph_time : Int) : Stockprice ℚ :=
  ⟨id, "A".toList, utcTime graph_time, close, close, some 5, 1, none, graph_time⟩

def priceAt (close : ℚ) (graph_time : Int) : IntradayHash ℚ := ⟨"A".toList, utcTime graph_time, close, close, graph_time⟩

/-- The closes of the first and the second of July. -/
def twoDays : Market ℚ := ⟨[], [closeRow 1 100 1435780800000, closeRow 2 80 1435867200000], [], 3⟩

theorem dailyTable_twoDays : DailyTable "A".toList twoDays := by
  have htraded : Traded (closeRow 1 100 1435780800000) ∧ Traded (closeRow 2 80 1435867200000) := by
    refine ⟨⟨rfl, ?_⟩, ⟨rfl, ?_⟩⟩
    · unfold OnDay
      decide
    · unfold OnDay
      decide
  refine ⟨by decide, by decide, by decide, ?_, by decide⟩
  intro row hrow
  rcases List.mem_cons.1 (mem_daily.1 hrow).1 with rfl | hrow
  · exact htraded.1
  · rw [List.mem_singleton.1 hrow]
    exact htraded.2

/-- Two prices on Monday the sixth. -/
theorem daily_maintained_monday : ∃ before after,
    updateDailies centRuby.exact newestFirst "A".toList [priceAt 90 1436191200000] twoDays = some before ∧
      updateDaily centRuby.exact newestFirst "A".toList (priceAt 88 1436209200000) before = some after ∧
      Maintained ChangeOf "A".toList (priceAt 88 1436209200000) before after := by
  refine daily_maintained centRuby newestFirst dailyTable_twoDays ?_ ?_ ?_
  · intro price hprice
    rcases List.mem_cons.1 hprice with rfl | hprice
    · exact ⟨rfl, by decide⟩
    · rw [List.mem_singleton.1 hprice]
      exact ⟨rfl, by decide⟩
  · decide
  · intro row hrow first hfirst
    have hlast : row.graph_time ≤ 1435867200000 := by
      rcases List.mem_cons.1 (mem_daily.1 hrow).1 with rfl | hrow
      · decide
      · rw [List.mem_singleton.1 hrow]
        exact le_refl _
    obtain rfl : priceAt 90 1436191200000 = first := by simpa using hfirst
    exact hlast.trans_lt (by decide)

/-! ## The nightly import -/

section
variable {ruby : Ruby R} {now : Nat → Time} {order : DateDesc R} {misread : Str → Market R → Option (Market R)}
  {market : Market R} {ticker_symbol : Str} {rows : List Row} {provisional : Stockprice R}

/-- A run of `google_daily` puts an official row in the place of the provisional row,
for whose day the change was recorded. -/
structure Replaces (ruby : Ruby R) (now : Nat → Time) (order : DateDesc R) (misread : Str → Market R → Option (Market R))
    (market : Market R) (ticker_symbol : Str) (rows : List Row) (provisional : Stockprice R) : Prop where
  found : provisional ∈ market.daily ticker_symbol
  recorded : provisional.daily_percent_change ≠ none
  fresh : provisional.id < market.stockprice_seq
  /-- The insertion reads as the rows it was made of. -/
  reads : '\'' ∉ ticker_symbol
  inserts : ∃ closes ∈ acceptedCloses ruby market ticker_symbol rows, ∃ close ∈ closes,
    nyDate close.date = provisional.day
  deletes : provisional ∉ (ScraperPublic.googleDaily ruby now order misread ticker_symbol rows market).daily ticker_symbol

/-- The day has one row, and it has a change. -/
def ChangeSurvives (market : Market R) (ticker_symbol : Str) (day : Int) : Prop :=
  ∃ row, ((market.daily ticker_symbol).filter fun row => row.day = day) = [row] ∧ row.daily_percent_change ≠ none

/-- One row is removed at most. -/
theorem settled_destroys (order : DateDesc R) (ticker_symbol : Str) (market : Market R) :
    (settled order ticker_symbol market).stockprices = market.stockprices ∨
      ∃ id, (settled order ticker_symbol market).stockprices = market.stockprices.filter (·.id ≠ id) := by
  unfold settled
  split
  · exact .inl rfl
  · next updated hupdated =>
    obtain ⟨hprices, -⟩ := updateStock_prices hupdated
    unfold Scraper.removeExtraDay
    split
    · rw [Option.getD_some]
      split
      · next newest second rest hreorder hnear =>
        refine .inr ⟨second.id, ?_⟩
        rw [Market.destroyDaily, hprices]
      · exact .inl hprices
    · exact .inl hprices

/-- If the provisional row is removed, an official row with another id stays. -/
theorem settled_keeps (hmem : provisional ∈ market.stockprices)
    (hgone : provisional ∉ (settled order ticker_symbol market).stockprices) {row : Stockprice R}
    (hrow : row ∈ market.stockprices) (hid : row.id ≠ provisional.id) :
    row ∈ (settled order ticker_symbol market).stockprices := by
  rcases settled_destroys order ticker_symbol market with hsame | ⟨id, hdestroys⟩
  · rw [hsame] at hgone
    exact absurd hmem hgone
  · rw [hdestroys] at hgone ⊢
    obtain rfl : provisional.id = id := by
      by_contra hne
      exact hgone (List.mem_filter.2 ⟨hmem, by simpa using hne⟩)
    exact List.mem_filter.2 ⟨hrow, by simpa using hid⟩

/-- The row that stands in the place of the provisional one has no change. -/
theorem Replaces.official (h : Replaces ruby now order misread market ticker_symbol rows provisional) :
    ∃ row ∈ (ScraperPublic.googleDaily ruby now order misread ticker_symbol rows market).daily ticker_symbol,
      row.day = provisional.day ∧ row.daily_percent_change = none := by
  obtain ⟨closes, hcloses, close, hclose, hday⟩ := h.inserts
  obtain ⟨hmem, hticker⟩ := mem_daily.1 h.found
  have hgone := h.deletes
  rw [run_googleDaily h.reads hcloses (List.ne_nil_of_mem hclose)] at hgone ⊢
  by_cases hstorable : closes.all GoogleDaily.storable = true
  · rw [if_pos hstorable] at hgone ⊢
    obtain ⟨id, hseq, hnew⟩ := closeRows_mem market.stockprice_seq hclose
    refine ⟨close.row id, mem_daily.2 ⟨?_, ?_⟩, hday, rfl⟩
    · refine settled_keeps (List.mem_append_left _ hmem) (fun hin => hgone (mem_daily.2 ⟨hin, hticker⟩))
        (List.mem_append_right _ hnew) ?_
      have hfresh := h.fresh
      show id ≠ provisional.id
      omega
    · exact fed_ticker ruby ((mem_closes ruby hcloses).1 hclose).1
  · rw [if_neg hstorable] at hgone
    exact absurd h.found hgone

/-- The change of the day is lost in every run that replaces the row. -/
theorem daily_change_lost (h : Replaces ruby now order misread market ticker_symbol rows provisional) :
    ¬ChangeSurvives (ScraperPublic.googleDaily ruby now order misread ticker_symbol rows market) ticker_symbol
      provisional.day := by
  rintro ⟨row, hone, hchange⟩
  obtain ⟨official, hofficial, hday, hnone⟩ := h.official
  have hin : official ∈ [row] := by
    rw [← hone]
    exact List.mem_filter.2 ⟨hofficial, decide_eq_true hday⟩
  rw [← List.mem_singleton.1 hin] at hchange
  exact hchange hnone

end

/-- The row of Monday the sixth, of a bar at 15:00. -/
def mondayRow : Stockprice Int :=
  ⟨3, "A".toList, utcTime 1436209200000, 100, 100, none, 1, some 0, 1436209200000⟩

theorem replaces_monday : Replaces julyRuby (fun _ => 0) sortedByDate (fun _ _ => none) afterMonday "A".toList
    [dayRow "6-Jul-15"] mondayRow := by
  have hcloses : acceptedCloses julyRuby afterMonday "A".toList [dayRow "6-Jul-15"] = some [closeOf 16622] := by rfl
  refine ⟨by decide, by decide, by decide, by decide, ?_, ?_⟩
  · exact ⟨[closeOf 16622], hcloses, closeOf 16622, List.mem_singleton_self _, by decide⟩
  · rw [run_googleDaily (by decide) hcloses (by simp), if_pos (by rfl)]
    intro hin
    exact absurd (mem_daily.1 hin).1 (by decide)

theorem daily_change_lost_monday : ¬ChangeSurvives (ScraperPublic.googleDaily julyRuby (fun _ => 0) sortedByDate
    (fun _ _ => none) "A".toList [dayRow "6-Jul-15"] afterMonday) "A".toList mondayRow.day :=
  daily_change_lost replaces_monday

theorem monday_change_gone : ¬∀ (ruby : Ruby Int) (now : Nat → Time) (order : DateDesc Int)
    (misread : Str → Market Int → Option (Market Int)) (market : Market Int) (ticker_symbol : Str) (rows : List Row)
    (provisional : Stockprice Int), Replaces ruby now order misread market ticker_symbol rows provisional →
      ChangeSurvives (ScraperPublic.googleDaily ruby now order misread ticker_symbol rows market) ticker_symbol
        provisional.day := by
  intro h
  exact daily_change_lost replaces_monday (h julyRuby (fun _ => 0) sortedByDate (fun _ _ => none) afterMonday "A".toList
    [dayRow "6-Jul-15"] mondayRow replaces_monday)

end MyStockIQ.Scraper
