import Telemetry.Schedule

/-!
# Rosters

A roster is a set of running timers, each tagged with whom it belongs to. It knows when the next of
them wants to be woken. Whoever keeps the time calls `wake` when that time has come; where time can
be made to jump, `runUntil` goes from one wake-up to the next.
-/

namespace Telemetry

/-- Timers and whom they belong to. -/
structure Roster (κ : Type) where
  timers : List (κ × Timer)

namespace Roster

variable {κ : Type}

/-- The timers of a schedule that is started, those that can run. -/
def ofSchedule (tag : κ) (s : Schedule) (now : Instant) : Roster κ :=
  { timers := (s.start now).filterMap fun timer => timer.map (tag, ·) }

/-- The timers of several rosters. -/
def concat (rosters : List (Roster κ)) : Roster κ :=
  { timers := rosters.flatMap (·.timers) }

/-- When the next timer wants to be woken. -/
def wakesAt? (r : Roster κ) : Option Instant :=
  r.timers.foldl (fun earliest (_, timer) =>
    match earliest with
    | some e => if timer.wakesAt < e then some timer.wakesAt else earliest
    | none => some timer.wakesAt) none

/-- Wake the first timer that wants to be woken by now. Returns the action that is due. -/
def wake (r : Roster κ) (now : Instant) (delay : Duration) :
    Option (κ × Action) × Roster κ :=
  match r.timers.findIdx? fun (_, timer) => decide (timer.wakesAt ≤ now) with
  | none => (none, r)
  | some i =>
    match r.timers[i]? with
    | none => (none, r)
    | some (tag, timer) =>
      let (action, timer) := timer.wake now delay
      (action.map (tag, ·), { timers := r.timers.set i (tag, timer) })

/-- Run all timers before a time. Returns what was done, and when. -/
def runUntil (delay : Duration) (limit : Instant) :
    Nat → Roster κ → List (Instant × κ × Action) × Roster κ
  | 0, r => ([], r)
  | fuel + 1, r =>
    match r.wakesAt? with
    | none => ([], r)
    | some t =>
      if t < limit then
        let (done, r) := r.wake t delay
        let (later, r) := runUntil delay limit fuel r
        match done with
        | some (tag, action) => ((t, tag, action) :: later, r)
        | none => (later, r)
      else ([], r)

/-- A bound on the wake-ups within a span, for timers with periods of whole milliseconds. -/
def steps (r : Roster κ) (span : Duration) : Nat :=
  (span.toMillis + 2) * (2 * r.timers.length)

end Roster

end Telemetry
