/-!
# Doubles as exact numbers

A double is read off its 64 bits as an integer times a power of two, so that everything decided
about its value (its decimal digits, its ceiling, its place in the total order) is decided in
integer arithmetic, where it can be reasoned about.

* `parts` — the exact value behind a double.
* `ceiling`, `saturate` — the least integer not below a double, kept within the range of a count.
* `precedes` — the total order of doubles: by value, with `-0` below `0` and not-a-number last.
-/

namespace Telemetry.Binary64

/-- What a double stands for. -/
inductive Parts where
  /-- not a number -/
  | nan
  /-- an infinity, negative or not -/
  | infinite (negative : Bool)
  /-- `mantissa * 2 ^ exponent`, negated if `negative` -/
  | finite (negative : Bool) (mantissa : Nat) (exponent : Int)
  deriving DecidableEq, Repr

/-- The bit of the sign. -/
def signBit : Nat := 0x8000000000000000

/-- The bit above the fraction, which normal numbers leave out. -/
def hiddenBit : Nat := 0x10000000000000

/-- A power of two. -/
def power (k : Nat) : Nat := 1 <<< k

/-- The sign bit, eleven bits of exponent and fifty-two of fraction, put together. A zero exponent
field stands for the subnormal numbers, a full one for the infinities and not-a-number. -/
def parts (x : Float) : Parts :=
  let bits : Nat := x.toBits.toNat
  let negative : Bool := bits / signBit == 1
  let field : Nat := bits / hiddenBit % 2048
  let fraction : Nat := bits % hiddenBit
  if field = 2047 then
    if fraction = 0 then .infinite negative else .nan
  else if field = 0 then
    .finite negative fraction (-1074)
  else
    .finite negative (fraction + hiddenBit) ((field : Int) - 1075)

/-! ## Integers near a double -/

/-- The least integer not below `mantissa * 2 ^ exponent`. -/
def ceilingOf (negative : Bool) (mantissa : Nat) (exponent : Int) : Int :=
  let signed : Int := if negative then -(mantissa : Int) else mantissa
  if exponent < 0 then
    Int.neg (-signed / power (-exponent).toNat)
  else
    signed * power exponent.toNat

/-- The nearest count to an integer: itself, or the end of the 64-bit range it lies beyond. -/
def clampCount (n : Int) : Int64 :=
  if n < Int64.minValue.toInt then Int64.minValue
  else if Int64.maxValue.toInt < n then Int64.maxValue
  else Int64.ofInt n

/-- The least count not below a double: beyond the range of counts its end, and `0` for
not-a-number. -/
def ceilingCount (x : Float) : Int64 :=
  match parts x with
  | .nan => 0
  | .infinite negative => if negative then Int64.minValue else Int64.maxValue
  | .finite negative mantissa exponent => clampCount (ceilingOf negative mantissa exponent)

/-! ## The total order -/

/-- The place of a double in the total order. For numbers it grows with the bits read as a
magnitude, negatives counting down from `-1` so that `-0` comes just before `0`; not-a-number, of
which there is one without a sign, is above every number. -/
def position (x : Float) : Int :=
  if x.isNaN then UInt64.size
  else
    let bits : Nat := x.toBits.toNat
    if bits < signBit then (bits : Int) else (signBit : Int) - bits - 1

/-- `x` is at or before `y` in the total order of doubles. -/
def precedes (x y : Float) : Bool :=
  decide (position x ≤ position y)

/-- Any two doubles are ordered one way or the other. -/
theorem precedes_total (x y : Float) : (precedes x y || precedes y x) = true := by
  simp only [precedes, Bool.or_eq_true, decide_eq_true_eq]
  omega

/-- The order is transitive. -/
theorem precedes_trans {x y z : Float} (hxy : precedes x y = true) (hyz : precedes y z = true) :
    precedes x z = true := by
  simp only [precedes, decide_eq_true_eq] at *
  omega

end Telemetry.Binary64
