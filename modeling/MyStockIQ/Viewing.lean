import MyStockIQ.Pass
import MyStockIQ.Statements
/-!
# Viewed stocks

The tasks fetch intraday prices and news for the stocks with `viewed:true`, and
the page of a stock is what sets the column, where it is `false`. The import of
the stocks has `"viewed" => false` in its hash, but leaves the column out of its
`INSERT`, and the column has no default. So it is `NULL`, which `== false` does
not take for `false`, and no page ever sets it.
-/

open SharedStore Prog

namespace MyStockIQ

/-- The row of an imported stock. The `INSERT` names the columns `stock`,
`ticker_symbol` and `active`; the others have their defaults. -/
def importedStock (stock_hash : Scraper.StockHash) (id : Nat) : Stock where
  id := id
  stock := String.ofList stock_hash.stock
  ticker_symbol := String.ofList stock_hash.ticker_symbol
  date := none
  daily_stock_price := none
  viewed := none
  active_predictions := 0

/-- The rows an import adds. -/
def importedStocks (stock_array : List Scraper.StockHash) (seq : Nat) : List Stock :=
  stock_array.zipIdx.map fun h => importedStock h.1 (seq + h.2)

/-- `Stock.where(viewed:true)` -/
def Db.viewedStocks (db : Db) : List Stock := db.stocks.filter (·.viewed = some true)

/-- The tasks fetch prices and news for the stock. -/
def Db.Fetches (db : Db) (id : Nat) : Prop := ∃ stock ∈ db.viewedStocks, stock.id = id

/-- The stocks an action inserts are those of an import. -/
def Imports (db : Db) : Action → Prop
  | .quandlAllstocks rows => ∃ stock_array seq, (∀ stock ∈ db.stocks, stock.id < seq) ∧
      rows = importedStocks stock_array seq
  | _ => True

/-- No row with this id has a value in the column. -/
def Unviewed (id : Nat) (db : Db) : Prop := ∀ stock ∈ db.stocks, stock.id = id → stock.viewed = none

theorem Unviewed.not_fetches {id : Nat} {db : Db} (h : Unviewed id db) : ¬db.Fetches id := by
  rintro ⟨stock, hstock, hid⟩
  obtain ⟨hmem, hviewed⟩ := List.mem_filter.1 hstock
  simp [h stock hmem hid] at hviewed

/-! ## Statements -/

/-- The statement does not set the column of the stock. -/
def Stmt.Leaves (id : Nat) : Stmt → Prop
  | .updateStock other changes => other = id → changes.viewed = none
  | _ => True

theorem Stmt.Unviewing.leaves {stmt : Stmt} (h : stmt.Unviewing) (id : Nat) : stmt.Leaves id := by
  cases stmt with
  | updateStock other changes => exact fun _ => h
  | _ => trivial

theorem Unviewed.exec {id : Nat} {db : Db} (h : Unviewed id db) {stmt : Stmt} (hs : stmt.Leaves id) :
    Unviewed id (db.exec stmt) := by
  cases stmt with
  | updateStock other changes =>
    intro stock hstock hid
    rcases mem_updated hstock with ⟨hmem, -⟩ | ⟨old, hold, hother, rfl⟩
    · exact h stock hmem hid
    · have hold_id : old.id = id := hid
      have hviewed : changes.viewed = none := hs (hother.symm.trans hold_id)
      simp [StockChanges.set, hviewed, h old hold hold_id]
  | _ => exact h

theorem Unviewed.outcome {α : Type} {id : Nat} {p : Request α} (hp : p.Only (Stmt.Leaves id)) :
    Outcome Db.exec (Unviewed id) p (fun _ => Unviewed id) (Unviewed id) :=
  hp.outcome fun _ _ hs h => h.exec hs

theorem Unviewed.tame {α : Type} {id : Nat} {p : Request α} (hp : Tamely p) :
    Outcome Db.exec (Unviewed id) p (fun _ => Unviewed id) (Unviewed id) :=
  Unviewed.outcome (hp.mono fun _ hs => hs.2.leaves id)

/-! ## Requests and jobs -/

/-- A page sets the column only of a stock that has `false` in it. -/
theorem Unviewed.showStock (id : Nat) (session : Option Nat) (ticker_symbol : String) (feed : List Intradayprice) :
    Outcome Db.exec (Unviewed id) (StocksController.show session ticker_symbol feed) (fun _ => Unviewed id)
      (Unviewed id) := by
  refine .bind (Unviewed.tame (mild_currentUser session).tame) fun current_user => ?_
  cases current_user with
  | none => exact .ret fun _ h => h
  | some user =>
    refine .of_each fun db h => .ok_bind (a := db.stockTicker ticker_symbol) rfl ?_
    cases hfound : db.stockTicker ticker_symbol with
    | none => exact .raise fun _ hdb => hdb ▸ h
    | some stock =>
      refine .ok_bind (rfl : (orNil (some stock) "streams").run Db.exec db = (.ok stock, db)) ?_
      refine Outcome.at_store (P := Unviewed id) ?_ h
      refine .bind (Q := fun _ => Unviewed id) ?_ fun _ =>
        .bind (Unviewed.tame (gentle_showActivePrediction user stock).tame) fun _ => .ret fun _ h => h
      unfold viewStock
      split
      · next hviewed =>
        -- A stock with `false` in the column is another one.
        have hother : stock.id ≠ id := by
          intro hid
          have hnone := h stock (List.mem_of_find?_eq_some hfound) hid
          rw [hviewed] at hnone
          cases hnone
        refine .bind (Unviewed.tame (mild_googleIntraday _ _).tame) fun _ => .bind (Unviewed.outcome ?_) fun _ =>
          .ret fun _ h => h
        exact only_stockSave trivial fun hid => absurd hid hother
      · exact .ret fun _ h => h

theorem Unviewed.job {parse : String → Option Int} {id : Nat} {db : Db} (h : Unviewed id db) (job : Job) :
    Unviewed id (job.run parse db).2 := by
  have hrun {α : Type} {p : Request α} (hp : p.Only Stmt.Unviewing) : Unviewed id (p.run Db.exec db).2 :=
    (Unviewed.outcome (hp.mono fun _ hs => hs.leaves id)).store h
  have htame {α : Type} {p : Request α} (hp : Tamely p) : Unviewed id (p.run Db.exec db).2 :=
    (Unviewed.tame hp).store h
  cases job with
  | createPrediction now session params =>
    exact hrun (only_unanswered (only_createPrediction parse now session params (fun _ hs => hs.2) (fun _ => trivial)
      fun _ _ _ => trivial))
  | showPrediction session prediction_id => exact htame (only_unanswered (gentle_showPrediction session prediction_id).tame)
  | showStock session ticker_symbol feed =>
    have hshow := (Unviewed.showStock id session ticker_symbol feed).store h
    have hsame := run_bind_ret Db.exec (StocksController.show session ticker_symbol feed) (fun _ => ()) db
    exact hsame ▸ hshow
  | createPredictionend now session prediction_id content =>
    exact htame (only_unanswered (tame_createPredictionend now session prediction_id content))
  | predictionEnd => exact htame gentle_predictionEnd.tame
  | verifyStart prediction_id minute_array =>
    exact hrun (only_verifyStart prediction_id minute_array (fun _ hs => hs.2) (fun _ => trivial) fun _ _ _ => trivial)
  | verifyEnd predictionend_id now minute_array =>
    exact hrun (only_verifyEnd predictionend_id now minute_array (fun _ hs => hs.2) (fun _ => trivial)
      (fun _ _ _ _ => trivial) fun _ _ => trivial)
  | googleIntraday ticker_symbol feed => exact htame (mild_googleIntraday ticker_symbol feed).tame

/-! ## Runs -/

theorem mem_importedStocks {stock_array : List Scraper.StockHash} {seq : Nat} {stock : Stock}
    (h : stock ∈ importedStocks stock_array seq) : seq ≤ stock.id ∧ stock.viewed = none := by
  obtain ⟨⟨stock_hash, n⟩, -, rfl⟩ := List.mem_map.1 h
  exact ⟨Nat.le_add_right seq n, rfl⟩

theorem Unviewed.imported {id : Nat} {db : Db} (h : Unviewed id db) (stock_array : List Scraper.StockHash) (seq : Nat) :
    Unviewed id { db with stocks := db.stocks ++ importedStocks stock_array seq } := by
  intro stock hstock hid
  rcases List.mem_append.1 hstock with hold | hnew
  · exact h stock hold hid
  · exact (mem_importedStocks hnew).2

theorem Unviewed.action {parse : String → Option Int} {id : Nat} {db : Db} (h : Unviewed id db) {action : Action}
    (ha : Imports db action) : Unviewed id (action.run parse db) := by
  cases action with
  | request job => exact h.job job
  | createUser row => exact h
  | destroyUser username =>
    simp only [Action.run, Db.destroyUser]
    split
    · exact h
    · exact h
  | quandlAllstocks rows =>
    obtain ⟨stock_array, seq, -, rfl⟩ := ha
    exact h.imported stock_array seq
  | googleDaily ticker_symbol date close_price =>
    refine (Unviewed.tame (Mildly.tame ?_)).store h
    exact .bind (mild_select trivial) fun _ => .bind (only_orNil _ _) fun _ => .bind (mild_stockSave _ rfl) fun _ =>
      trivial

/-- After an import and any later actions, whatever page is shown, the tasks do not
fetch prices or news for any stock of the import. -/
theorem imported_never_fetched (parse : String → Option Int) {db later : Db} {stock_array : List Scraper.StockHash}
    {seq : Nat} (hfresh : ∀ stock ∈ db.stocks, stock.id < seq)
    (hlater : Serial (Action.run parse) Imports ((Action.quandlAllstocks (importedStocks stock_array seq)).run parse db)
      later) {stock : Stock} (hstock : stock ∈ importedStocks stock_array seq) {session : Option Nat}
    {feed : List Intradayprice} {reply : Reply} {after : Db}
    (hshow : (StocksController.show session stock.ticker_symbol feed).run Db.exec later = (.ok reply, after)) :
    ¬after.Fetches stock.id := by
  have hnew : Unviewed stock.id ((Action.quandlAllstocks (importedStocks stock_array seq)).run parse db) := by
    intro row hrow hid
    rcases List.mem_append.1 hrow with hold | himported
    · have hlt := hfresh row hold
      have hle := (mem_importedStocks hstock).1
      omega
    · exact (mem_importedStocks himported).2
  have hkept : Unviewed stock.id later := hlater.inv hnew fun _ _ ha h => h.action ha
  exact ((Unviewed.showStock stock.id session stock.ticker_symbol feed).completed later reply after hkept hshow).not_fetches

/-! ## The page of an imported stock -/

def agilent : Scraper.StockHash := ⟨"Agilent".toList, "A".toList, true⟩

def withAgilent : Db := (Action.quandlAllstocks (importedStocks [agilent] 2)).run tuesdayAfternoon oneStock

theorem show_agilent : (StocksController.show (some 1) "A" []).run Db.exec withAgilent = (.ok .ok, withAgilent) := by rfl

theorem agilent_never_fetched : ¬withAgilent.Fetches 2 := by
  have hfresh : ∀ stock ∈ oneStock.stocks, stock.id < 2 := by decide
  have hstock : importedStock agilent 2 ∈ importedStocks [agilent] 2 := List.mem_singleton_self _
  exact imported_never_fetched tuesdayAfternoon hfresh .init hstock show_agilent

/-- A user looks at an imported stock, and it is not fetched. -/
theorem viewed_agilent_not_fetched : ¬∀ (parse : String → Option Int) (db later : Db)
    (stock_array : List Scraper.StockHash) (seq : Nat), (∀ stock ∈ db.stocks, stock.id < seq) →
      Serial (Action.run parse) Imports ((Action.quandlAllstocks (importedStocks stock_array seq)).run parse db) later →
      ∀ stock ∈ importedStocks stock_array seq, ∀ session feed after,
        (StocksController.show session stock.ticker_symbol feed).run Db.exec later = (.ok .ok, after) →
          after.Fetches stock.id := by
  intro h
  have hfetches := h tuesdayAfternoon oneStock withAgilent [agilent] 2 (by decide) .init (importedStock agilent 2)
    (List.mem_singleton_self _) (some 1) [] withAgilent show_agilent
  revert hfetches
  unfold Db.Fetches
  decide

end MyStockIQ
