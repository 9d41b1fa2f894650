import Mathlib
import Telemetry.Quantity

/-!
# The two orders of doubles

Doubles are compared in two ways. As numbers they are only partly ordered: what is not a number is
neither above nor below anything (`not_le_of_isNaN`), and `-0` is not below `0`. By their positions
all of them are ranked, each at a place of its own (`position_inj`). This is so because the type of
doubles has only one that is not a number, which comes last.

A machine has many of these, and some of them have a sign and come first. Where that matters, doubles
are kept as the bits they are made of (`BitPattern`), which are ranked in the same way.

Percentiles are read off the second order. What they need of it is that it is a total order, which
`Quantity.Ranked` says.
-/

namespace Telemetry

/-- Ranks are a total order: no two numbers have the same. -/
class Quantity.Ranked (α : Type) [Quantity α] : Prop where
  total : ∀ x y : α, precedes x y || precedes y x
  trans : ∀ {x y z : α}, precedes x y → precedes y z → precedes x z
  antisymm : ∀ {x y : α}, precedes x y → precedes y x → x = y

namespace Binary64

open Float.Model

/-- What is not a number is not above anything. -/
theorem not_le_of_isNaN {x : Float} (hx : x.isNaN) (low : Float) : ¬low ≤ x := by
  intro hle
  have hmodel : low.toModel.unpack.le x.toModel.unpack := of_decide_eq_true hle
  have hnan : x.toModel.unpack = .notANumber := UnpackedFloat.isNaN_iff.mp hx
  have hnone (u : UnpackedFloat) : u.compare .notANumber = none := by
    cases u <;> rfl
  rw [hnan, UnpackedFloat.le, hnone] at hmodel
  cases hmodel

theorem position_of_isNaN {x : Float} (hx : x.isNaN) : position x = UInt64.size := by
  rw [position, if_pos hx]

theorem position_of_number {x : Float} (hx : ¬x.isNaN) :
    position x = if x.toBits.toNat < signBit then (x.toBits.toNat : Int)
      else (signBit : Int) - x.toBits.toNat - 1 :=
  if_neg hx

/-- Numbers come before what is not a number. -/
theorem position_lt_of_number {x : Float} (hx : ¬x.isNaN) : position x < UInt64.size := by
  have hlt : x.toBits.toNat < UInt64.size := x.toBits.toNat_lt_size
  have hsize : UInt64.size = 2 * signBit := rfl
  rw [position_of_number hx]
  split <;> omega

/-- No two doubles have the same place in the total order. For those that are not numbers this is so
because there is just one of them. -/
theorem position_inj {x y : Float} (h : position x = position y) : x = y := by
  by_cases hx : x.isNaN
  · by_cases hy : y.isNaN
    · simp only [Float.isNaN_eq_decide_eq_nan, decide_eq_true_eq] at hx hy
      rw [hx, hy]
    · have hlt := position_lt_of_number hy
      rw [← h, position_of_isNaN hx] at hlt
      exact absurd hlt (Int.lt_irrefl _)
  · by_cases hy : y.isNaN
    · have hlt := position_lt_of_number hx
      rw [h, position_of_isNaN hy] at hlt
      exact absurd hlt (Int.lt_irrefl _)
    · have hsign : 0 < signBit := by decide
      rw [position_of_number hx, position_of_number hy] at h
      refine Float.toBits_inj.mp (UInt64.toNat_inj.mp ?_)
      split at h <;> split at h <;> omega

instance : Quantity.Ranked Float where
  total := precedes_total
  trans := precedes_trans
  antisymm := by
    intro x y hxy hyx
    exact position_inj (Int.le_antisymm (of_decide_eq_true hxy) (of_decide_eq_true hyx))

end Binary64

/-! ## Doubles as bits -/

/-- A double kept as its bits, so that all those are told apart that are not numbers. -/
structure BitPattern where
  bits : UInt64
  deriving DecidableEq, Repr

namespace BitPattern

open Binary64 (signBit)

/-- The double with these bits. -/
def toFloat (p : BitPattern) : Float := Float.ofBits p.bits

/-- The bits of a double. -/
def ofFloat (x : Float) : BitPattern := ⟨x.toBits⟩

/-- The place in the total order. Without a sign it grows with the bits, and with one it falls from
`-1` on, whether these are numbers or not. -/
def position (p : BitPattern) : Int :=
  if p.bits.toNat < signBit then (p.bits.toNat : Int) else (signBit : Int) - p.bits.toNat - 1

/-- What is computed is computed with doubles. -/
instance : Quantity BitPattern where
  zero := ofFloat 0
  add x y := ofFloat (x.toFloat + y.toFloat)
  sub x y := ofFloat (x.toFloat - y.toFloat)
  mul x y := ofFloat (x.toFloat * y.toFloat)
  div x y := ofFloat (x.toFloat / y.toFloat)
  ofInt n := ofFloat (Float.ofInt n)
  ceilingCount x := Binary64.ceilingCount x.toFloat
  le x y := x.toFloat.le y.toFloat
  precedes x y := decide (x.position ≤ y.position)
  isNumber x := !x.toFloat.isNaN
  toJson x := Json.ofFloat x.toFloat

theorem position_inj {x y : BitPattern} (h : x.position = y.position) : x = y := by
  have hsign : 0 < signBit := by decide
  refine congrArg BitPattern.mk (UInt64.toNat_inj.mp ?_)
  rw [position, position] at h
  split at h <;> split at h <;> omega

instance : Quantity.Ranked BitPattern where
  total x y := by
    rw [Bool.or_eq_true]
    exact (Int.le_total x.position y.position).imp decide_eq_true decide_eq_true
  trans hxy hyz :=
    decide_eq_true (Int.le_trans (of_decide_eq_true hxy) (of_decide_eq_true hyz))
  antisymm hxy hyx :=
    position_inj (Int.le_antisymm (of_decide_eq_true hxy) (of_decide_eq_true hyx))

end BitPattern

end Telemetry
