import Telemetry.Breakdown.Reservoir

/-!
# What a node holds

An entry is a node of a breakdown without its children: a name that never changes, a measurement, a
count of samples that wraps around at 64 bits, and a reservoir of values that still wait for their
percentile.

Every pass over a breakdown changes each entry on its own; those changes are the functions of this
module.
-/

namespace Telemetry

/-- A node of a breakdown on its own. -/
structure Entry (α : Type) where
  /-- the name of the node -/
  name : String
  /-- what has been measured -/
  measurement : α
  /-- how many samples that measurement stands for -/
  sampleCount : Int64
  /-- the values that wait for their percentile -/
  reservoir : Reservoir α

namespace Entry

variable {α : Type} [Quantity α]

/-- An entry of which nothing is known but its name. -/
def fresh (name : String) : Entry α :=
  { name, measurement := 0, sampleCount := 0, reservoir := .empty }

/-- Add to the measurement and to the count. -/
def increment (e : Entry α) (value : α) (count : Int64) : Entry α :=
  { e with measurement := e.measurement + value, sampleCount := e.sampleCount + count }

/-- Put a value in the place of the measurement. -/
def set (e : Entry α) (value : α) : Entry α :=
  { e with measurement := value }

/-- Count a value and offer it to the reservoir. -/
def observe (e : Entry α) (value : α) (slot : Nat) : Entry α :=
  { e with sampleCount := e.sampleCount + 1, reservoir := e.reservoir.offer value slot }

/-- Take the percentile of the values that wait for it as the measurement, and empty the reservoir.
Without such values nothing changes. -/
def evaluate (e : Entry α) : Entry α :=
  match e.reservoir.percentile? with
  | some value => { e with measurement := value, reservoir := .empty }
  | none => e

/-- Express the measurement as a percentage of a total. -/
def percentOf (total : α) (e : Entry α) : Entry α :=
  { e with measurement := e.measurement / total * Quantity.hundred }

/-- Multiply the measurement by a factor. -/
def scale (factor : α) (e : Entry α) : Entry α :=
  { e with measurement := e.measurement * factor }

/-- Average over a number of windows. Part of a sample counts as a whole one. -/
def average (windows : α) (e : Entry α) : Entry α :=
  { e with
    measurement := e.measurement / windows
    sampleCount := Quantity.ceilingCount (Quantity.ofInt e.sampleCount.toInt / windows) }

/-! ## Names stay -/

omit [Quantity α] in
@[simp] theorem name_set (e : Entry α) (value : α) : (e.set value).name = e.name := rfl

@[simp] theorem name_increment (e : Entry α) (value : α) (count : Int64) :
    (e.increment value count).name = e.name := rfl

omit [Quantity α] in
@[simp] theorem name_observe (e : Entry α) (value : α) (slot : Nat) :
    (e.observe value slot).name = e.name := rfl

@[simp] theorem name_evaluate (e : Entry α) : e.evaluate.name = e.name := by
  unfold evaluate
  split <;> rfl

@[simp] theorem name_percentOf (total : α) (e : Entry α) :
    (e.percentOf total).name = e.name := rfl

@[simp] theorem name_scale (factor : α) (e : Entry α) : (e.scale factor).name = e.name := rfl

@[simp] theorem name_average (windows : α) (e : Entry α) :
    (e.average windows).name = e.name := rfl

end Entry

end Telemetry
