import Telemetry.Decimal.Binary64

/-!
# The shortest decimal of a double

Every real number in a certain interval around a double rounds to that double. The shortest decimal
of the double is the one in this interval with the fewest significant digits and, among those, the
one nearest to the double.

A decimal of `n` digits lies on the grid of multiples of a power of ten, and if any point of a grid
lies in the interval then one of the two neighbours of the double on that grid does. So `shortest`
goes through ever finer grids, and on each looks at the two neighbours only. All comparisons are
between integers: `Interval` holds the double and both ends of its interval as multiples of one
power of two.
-/

namespace Telemetry.Decimal

/-- What becomes of a double that lies exactly halfway between its two nearest shortest decimals. -/
inductive Tie where
  /-- the neighbour whose last digit is even -/
  | toEven
  /-- the larger neighbour -/
  | up
  deriving DecidableEq, Repr

/-- A power of ten. -/
def powerOfTen (k : Nat) : Nat := Nat.pow 10 k

/-- The reals that round to a positive double, in units of `2 ^ exponent`. -/
structure Interval where
  /-- the lower end -/
  low : Nat
  /-- the double itself -/
  value : Nat
  /-- the upper end -/
  high : Nat
  /-- the exponent of the unit -/
  exponent : Int
  /-- whether the ends themselves round to the double -/
  closed : Bool

/-- The interval around `mantissa * 2 ^ exponent`. It reaches halfway to the neighbouring doubles;
below a power of two these lie twice as dense. Halfway points round to the even mantissa. -/
def Interval.around (mantissa : Nat) (exponent : Int) : Interval where
  low :=
    if mantissa = Binary64.hiddenBit ∧ exponent ≠ -1074 then 4 * mantissa - 1
    else 4 * mantissa - 2
  value := 4 * mantissa
  high := 4 * mantissa + 2
  exponent := exponent - 2
  closed := mantissa % 2 == 0

namespace Interval

/-- A number of units, as an integer comparable with `gridScale` below. -/
def scale (i : Interval) (place : Int) (units : Nat) : Nat :=
  units * Binary64.power i.exponent.toNat * powerOfTen (-place).toNat

/-- A multiple of `10 ^ place`, in the same integer scale. -/
def gridScale (i : Interval) (place : Int) (multiple : Nat) : Nat :=
  multiple * powerOfTen place.toNat * Binary64.power (-i.exponent).toNat

/-- Whether `multiple * 10 ^ place` rounds to the double. -/
def contains (i : Interval) (place : Int) (multiple : Nat) : Bool :=
  let x := i.gridScale place multiple
  if i.closed then i.scale place i.low ≤ x && x ≤ i.scale place i.high
  else i.scale place i.low < x && x < i.scale place i.high

/-- The greatest multiple of `10 ^ place` that is not above the double. -/
def floorMultiple (i : Interval) (place : Int) : Nat :=
  i.scale place i.value / i.gridScale place 1

/-- The nearest multiple of `10 ^ place` that rounds to the double, if any does. -/
def nearest (i : Interval) (tie : Tie) (place : Int) : Option Nat :=
  let below := i.floorMultiple place
  let above := below + 1
  match i.contains place below, i.contains place above with
  | false, false => none
  | true, false => some below
  | false, true => some above
  | true, true =>
    let x := i.scale place i.value
    let fromBelow := x - i.gridScale place below
    let toAbove := i.gridScale place above - x
    if fromBelow < toAbove then some below
    else if toAbove < fromBelow then some above
    else match tie with
      | .up => some above
      | .toEven => some (if below % 2 = 0 then below else above)

/-- The place of the leading digit: the exponent `e` with `10 ^ e ≤ value < 10 ^ (e + 1)`. -/
def leadingPlace (i : Interval) : Int :=
  let numerator := i.value * Binary64.power i.exponent.toNat
  let denominator := Binary64.power (-i.exponent).toNat
  if denominator ≤ numerator then
    ((Nat.toDigits 10 (numerator / denominator)).length : Int) - 1
  else
    let inverse := (denominator + numerator - 1) / numerator
    Int.negOfNat (Nat.toDigits 10 (inverse - 1)).length

/-- The first grid from `place` downwards, of at most `fuel` grids, with a point in the interval:
the multiple and its place. -/
def search (i : Interval) (tie : Tie) : Nat → Int → Option (Nat × Int)
  | 0, _ => none
  | fuel + 1, place =>
    match i.nearest tie place with
    | some multiple => some (multiple, place)
    | none => search i tie fuel (place - 1)

end Interval

/-- The significant digits of a positive decimal and the place of the first of them. -/
structure Digits where
  /-- the digits, the first and the last not zero -/
  digits : List Char
  /-- the power of ten that the first digit counts -/
  leading : Int
  deriving DecidableEq, Repr

/-- `multiple * 10 ^ place` in digits, trailing zeros dropped. -/
def Digits.ofMultiple (multiple : Nat) (place : Int) : Digits :=
  let all := Nat.toDigits 10 multiple
  { digits := (all.reverse.dropWhile (· == '0')).reverse
    leading := place + all.length - 1 }

/-- The shortest decimal of `mantissa * 2 ^ exponent`. Seventeen digits always suffice, so the
search does not run out of grids. -/
def shortest (tie : Tie) (mantissa : Nat) (exponent : Int) : Digits :=
  let interval := Interval.around mantissa exponent
  match interval.search tie 18 interval.leadingPlace with
  | some (multiple, place) => .ofMultiple multiple place
  | none => .ofMultiple interval.value 0

end Telemetry.Decimal
