import Telemetry.Delivery.Dispatch

/-!
# The caller

A simulation has a caller, who acts from outside and for whom the clock moves. The caller goes on as
soon as it has what it waits for, and could keep all others waiting by asking only for what it can
have at once. So it grows tired: what it got is counted from the time when the others last acted,
and a tired caller gets nothing more before they have acted again.
-/

namespace Telemetry.Simulation

open Delivery (FlushId UploadError)

/-- What tells flush loops apart: how many were started earlier. -/
abbrev LoopId := Nat

/-- Who acts from outside. -/
structure Caller where
  /-- the flushes it waits for; it begins to look at the first -/
  flushes : List FlushId := []
  /-- how those of them have ended that have -/
  results : List (FlushId × Except UploadError Nat) := []
  /-- the loop for whose end it waits -/
  loop : Option LoopId := none
  /-- whether it has been called since it last acted -/
  called : Bool := false
  /-- how often it got what it wanted since the others last acted -/
  gains : Nat := 0

namespace Caller

/-- How often a caller can get what it wants before it grows tired. -/
def stamina : Nat := 128

/-- Whether a caller has to let the others act. -/
def isTired (c : Caller) : Bool := stamina ≤ c.gains

/-- The caller gets what it wants. -/
def gain (c : Caller) : Caller := { c with gains := c.gains + 1 }

end Caller

end Telemetry.Simulation
