import Telemetry.Quantity

/-!
# Exact numbers

Sums of doubles depend on the order in which they are formed. What a breakdown is worth, apart from
that, is stated for numbers whose addition is exact. Fractions are such numbers.
-/

namespace Telemetry

/-- Addition is exact, and so is the conversion of whole numbers. -/
class Quantity.Exact (α : Type) [Quantity α] : Prop where
  add_assoc : ∀ a b c : α, a + b + c = a + (b + c)
  add_comm : ∀ a b : α, a + b = b + a
  add_zero : ∀ a : α, a + 0 = a
  ofInt_zero : (Quantity.ofInt 0 : α) = 0
  ofInt_add : ∀ m n : Int, (Quantity.ofInt (m + n) : α) = Quantity.ofInt m + Quantity.ofInt n

namespace Quantity.Exact

variable {α : Type} [Quantity α] [Exact α]

theorem zero_add (a : α) : 0 + a = a := by
  rw [add_comm, add_zero]

theorem add_right_comm (a b c : α) : a + b + c = a + c + b := by
  rw [add_assoc, add_comm b c, ← add_assoc]

end Quantity.Exact

/-- The least count not below a fraction, within the range of counts. -/
def Quantity.ceilingOfFraction (q : Rat) : Int64 :=
  Int64.ofInt (max Int64.minValue.toInt (min Int64.maxValue.toInt q.ceil))

/-- Fractions measure exactly. In a document they are written as text. -/
instance : Quantity Rat where
  zero := 0
  ofInt n := n
  ceilingCount := Quantity.ceilingOfFraction
  le x y := decide (x ≤ y)
  precedes x y := decide (x ≤ y)
  isNumber _ := true
  toJson q := .string (toString q.num ++ "/" ++ toString q.den)

instance : Quantity.Exact Rat where
  add_assoc := Rat.add_assoc
  add_comm := Rat.add_comm
  add_zero := Rat.add_zero
  ofInt_zero := rfl
  ofInt_add := Rat.intCast_add

end Telemetry
