import Telemetry.Quantity

/-!
# Reservoirs

A reservoir keeps a bounded sample of the values offered to it. While there is room every value is
kept; after that the `n`-th value goes to a slot drawn from `n` slots, of which only the first
`capacity` exist. So after any number of offers every value is held with the same chance.

The draw is a parameter: `offer` is a function, and a statement about all draws is a statement about
all reservoirs that can come about.

`percentile?` reads the value below which nineteen twentieths of the sample lie. Values are ranked
by the total order of their numbers, so those that are not numbers have a rank too.
-/

namespace Telemetry

/-- A bounded sample of the values offered. -/
structure Reservoir (α : Type) where
  /-- the values held -/
  values : Array α := #[]
  /-- how many values were offered since the sample was last empty -/
  offered : Nat := 0

namespace Reservoir

variable {α : Type}

/-- The number of values that a reservoir can hold. -/
def capacity : Nat := 1000

/-- A reservoir that was never offered a value. -/
def empty : Reservoir α := {}

instance : Inhabited (Reservoir α) := ⟨empty⟩

/-- The number of values held. -/
def size (r : Reservoir α) : Nat := r.values.size

/-- Offer a value. Once the reservoir is full it takes the slot drawn, and is dropped if there is no
such slot. A draw for the `n`-th value is a number below `n`. -/
def offer (r : Reservoir α) (value : α) (slot : Nat) : Reservoir α :=
  if r.size < capacity then
    { values := r.values.push value, offered := r.offered + 1 }
  else
    { values := r.values.setIfInBounds slot value, offered := r.offered + 1 }

/-- The rank of the percentile among `n` values, counted from zero: nineteen twentieths of `n`,
computed in doubles and rounded down. -/
def rank (n : Nat) : Nat :=
  min (Nat.toFloat n * 0.95).toUInt64.toNat (n - 1)

variable [Quantity α]

/-- The values held in the order of their ranks. -/
def ranked (r : Reservoir α) : List α :=
  r.values.toList.mergeSort Quantity.precedes

/-- The value at the rank of the percentile. There is none in an empty reservoir. -/
def percentile? (r : Reservoir α) : Option α :=
  r.ranked[rank r.size]?

omit [Quantity α] in
@[simp] theorem offered_offer (r : Reservoir α) (value : α) (slot : Nat) :
    (r.offer value slot).offered = r.offered + 1 := by
  unfold offer
  split <;> rfl

omit [Quantity α] in
/-- A value is added while there is room and replaces one after that. -/
theorem size_offer (r : Reservoir α) (value : α) (slot : Nat) :
    (r.offer value slot).size = if r.size < capacity then r.size + 1 else r.size := by
  unfold offer
  split <;> simp [size]

@[simp] theorem length_ranked (r : Reservoir α) : r.ranked.length = r.size := by
  simp [ranked, size]

end Reservoir

end Telemetry
