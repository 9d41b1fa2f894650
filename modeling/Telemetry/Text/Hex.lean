/-!
# Hexadecimal digits

Digests and escapes are written in lowercase hexadecimal digits.
-/

namespace Telemetry.Hex

/-- The lowercase digit of a number below sixteen. -/
def digit (n : Nat) : Char :=
  if n < 10 then Char.ofNat ('0'.toNat + n) else Char.ofNat ('a'.toNat + (n - 10))

/-- The value of a digit, lowercase or uppercase. -/
def value? (c : Char) : Option Nat :=
  if '0' ≤ c ∧ c ≤ '9' then some (c.toNat - '0'.toNat)
  else if 'a' ≤ c ∧ c ≤ 'f' then some (c.toNat - 'a'.toNat + 10)
  else if 'A' ≤ c ∧ c ≤ 'F' then some (c.toNat - 'A'.toNat + 10)
  else none

/-- Reading a digit back gives the number it was written for. -/
theorem value?_digit : ∀ n : Fin 16, value? (digit n) = some n.val := by
  decide

end Telemetry.Hex
