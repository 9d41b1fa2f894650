import Telemetry.Decimal.Binary64
import Telemetry.Json.Basic

/-!
# Measured quantities

Everything that measures, sums and scales is written for any type of numbers with the operations of
`Quantity`, and runs on doubles. So a law such as "a node ends up with the sum of its subtree" can
be stated for numbers whose addition is exact, apart from what rounding does to it.
-/

namespace Telemetry

/-- The numbers that measurements are made of. -/
class Quantity (α : Type) extends Zero α, Add α, Sub α, Mul α, Div α where
  /-- the number nearest to an integer -/
  ofInt : Int → α
  /-- the least count not below a number, within the range of counts -/
  ceilingCount : α → Int64
  /-- `x ≤ y`; false if one of them is not a number -/
  le : α → α → Bool
  /-- a total order by which values are ranked, also those that are not numbers -/
  precedes : α → α → Bool
  /-- whether this is a number at all -/
  isNumber : α → Bool
  /-- the number in a document -/
  toJson : α → Json

namespace Quantity

variable {α : Type} [Quantity α]

/-- `x` lies between `low` and `high`, both included. -/
def within (low high x : α) : Bool := le low x && le x high

/-- `x` is above zero. -/
def isPositive (x : α) : Bool := le 0 x && !le x 0

/-- One hundred, the scale of percentages. -/
def hundred : α := ofInt 100

end Quantity

instance : Quantity Float where
  zero := 0
  ofInt := Float.ofInt
  ceilingCount := Binary64.ceilingCount
  le x y := x.le y
  precedes := Binary64.precedes
  isNumber x := !x.isNaN
  toJson := Json.ofFloat

/-! ## A measurement on its own -/

/-- A place that holds one measurement and is changed in place. -/
structure Gauge (α : Type) where
  /-- what the place holds -/
  value : α

namespace Gauge

variable {α : Type} [Quantity α]

/-- Put a value in the place of the one held. Returns the value that was held. -/
def swap (g : Gauge α) (v : α) : α × Gauge α := (g.value, ⟨v⟩)

/-- Add to the value held. Returns the sum, which is now held. -/
def add (g : Gauge α) (v : α) : α × Gauge α := (g.value + v, ⟨g.value + v⟩)

end Gauge

end Telemetry
