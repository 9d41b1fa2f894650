import Telemetry.Digest
import Telemetry.Time

/-!
# Minting ids

A mint hands out ids for runs and observations. Each id is the digest of the current second, a
random draw and the number of ids minted so far, all in decimal and written one after the other.
-/

namespace Telemetry

/-- What the outside world contributes to the ids and stamps made at one moment. -/
structure Moment where
  /-- the wall-clock time -/
  now : UnixTime
  /-- the random draw, below `10 ^ 9`, that goes into the `n`-th id -/
  draw : Nat → Nat

/-- A source of ids. -/
structure Mint where
  /-- the number of ids minted so far -/
  issued : UInt64 := 0
  deriving DecidableEq, Repr, Inhabited

namespace Mint

/-- The texts that make up the `n`-th id. -/
def parts (now : UnixTime) (draw : Nat) (n : UInt64) : List String :=
  [toString now.seconds.toNat, toString draw, toString n.toNat]

/-- The next id. -/
def next (mint : Mint) (moment : Moment) : HashId × Mint :=
  let n := mint.issued + 1
  (HashId.digest (parts moment.now (moment.draw n.toNat) n), { issued := n })

@[simp] theorem next_issued (mint : Mint) (moment : Moment) :
    (mint.next moment).2.issued = mint.issued + 1 := rfl

end Mint

end Telemetry
