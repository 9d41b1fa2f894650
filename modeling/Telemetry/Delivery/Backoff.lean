import Telemetry.Time

/-!
# Backing off

After a failed upload the timers wait before they try again, longer after each further failure. The
wait starts at ten seconds and doubles as long as the doubled wait stays below a minute, so it is
ten, twenty and then forty seconds. The first success ends it.
-/

namespace Telemetry.Delivery

/-- How long to wait after the last attempt. -/
structure Backoff where
  /-- the wait; none after a success -/
  wait : Duration := .zero
  /-- when an upload was last attempted -/
  lastAttempt : Option Instant := none
  deriving DecidableEq, Repr, Inhabited

namespace Backoff

/-- The wait after the first failure. -/
def least : Duration := .ofSeconds 10

/-- The wait that is never reached by doubling. -/
def limit : Duration := .ofSeconds 60

/-- The wait after another failure. -/
def longer (wait : Duration) : Duration :=
  if wait.isZero then least
  else if 2 * wait.nanos < limit.nanos then ⟨2 * wait.nanos⟩
  else wait

/-- An upload is attempted. -/
def attempt (b : Backoff) (now : Instant) : Backoff :=
  { b with lastAttempt := some now }

/-- The upload succeeded. -/
def succeed (b : Backoff) : Backoff :=
  { b with wait := .zero }

/-- The upload failed. -/
def fail (b : Backoff) : Backoff :=
  { b with wait := longer b.wait }

/-- Whether the wait is over. -/
def isOver (b : Backoff) (now : Instant) : Bool :=
  match b.lastAttempt with
  | some attempt => decide (b.wait ≤ now.since attempt)
  | none => true

example : (longer .zero).toSeconds = 10 ∧ (longer (.ofSeconds 10)).toSeconds = 20
    ∧ (longer (.ofSeconds 20)).toSeconds = 40 ∧ (longer (.ofSeconds 40)).toSeconds = 40 := by
  decide

end Backoff

end Telemetry.Delivery
