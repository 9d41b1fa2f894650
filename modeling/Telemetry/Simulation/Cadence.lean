import Telemetry.Schedule.Roster
import Telemetry.Simulation.Caller

/-!
# A schedule on virtual time

The timers of one schedule, run without anyone who does what they are for. What is seen is when they
act, and which of them have ended: a timer that cannot run ends as soon as the timers can act, and
so do all timers once they are aborted. The caller who moves the clock goes on first when the time
has come, so what is due then is done when the clock moves again, or when the caller is tired.
-/

namespace Telemetry.Simulation

/-- A schedule that is being run. -/
structure Cadence where
  schedule : Schedule
  roster : Roster Unit
  now : Instant := .start
  caller : Caller := {}
  aborted : Bool := false
  /-- whether each timer is known to have ended -/
  ended : List Bool

namespace Cadence

/-- Start a schedule. -/
def start (schedule : Schedule) : Cadence :=
  { schedule, roster := .ofSchedule () schedule .start
    ended := (schedule.start .start).map fun _ => false }

/-- Let the timers act before a time. Returns what was done, and when. Windows are launched without
delay. -/
def runUntil (c : Cadence) (limit : Instant) : List (Instant × Action) × Cadence :=
  let (done, roster) := c.roster.runUntil .zero limit (c.roster.steps (limit.since c.now))
  let ended := (c.schedule.start .start).map fun timer => c.aborted || timer.isNone
  (done.map fun (t, _, action) => (t, action), { c with roster, ended, caller.gains := 0 })

/-- A tired caller lets the timers act that want to by now. -/
def rest (c : Cadence) : List (Instant × Action) × Cadence :=
  if c.caller.isTired then c.runUntil (c.now.plus ⟨1⟩) else ([], c)

/-- Move the clock forward. -/
def advance (c : Cadence) (span : Duration) : List (Instant × Action) × Cadence :=
  let (early, c) := c.rest
  let now := c.now.plus span
  let (done, c) := if span.isZero then ([], c) else c.runUntil now
  (early ++ done, { c with now, caller := c.caller.gain })

/-- Abort all timers. -/
def abort (c : Cadence) : Cadence :=
  { c with roster := { timers := [] }, aborted := true }

end Cadence

end Telemetry.Simulation
