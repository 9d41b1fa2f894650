/-!
# Unsigned numerals

A numeral is a run of ASCII digits, with a plus sign before it or not, whose value fits 64 bits.
-/

namespace Telemetry.Text

/-- The number written by digits, if they are digits and there is one. -/
def digitsValue? : List Char → Option Nat
  | [] => none
  | cs => cs.foldl (fun n c => do
      let n ← n
      if c.isDigit then some (n * 10 + (c.toNat - '0'.toNat)) else none) (some 0)

/-- A number below `2 ^ 64`. -/
def fit64? (n : Nat) : Option UInt64 :=
  if n < UInt64.size then some (UInt64.ofNat n) else none

/-- The value of a numeral. -/
def numeral? : List Char → Option UInt64
  | '+' :: digits => (digitsValue? digits).bind fit64?
  | digits => (digitsValue? digits).bind fit64?

end Telemetry.Text
