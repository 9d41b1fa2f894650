import Telemetry.Time

/-!
# Schedules

A schedule says when a reporter works: it reports once in every report interval, and it may record a
window in every record interval. Both first happen one interval after the start.

Each of the two is driven by a `Ticker`, whose deadlines lie one period apart. It is only there once
its first deadline has been found: a timer whose interval leads past the last instant of the clock
ends as it starts. A later deadline may lie past that instant, and is then never seen. A ticker that
is looked at too late does not catch up: the next deadline is then a full period from now. A window is
launched after a random delay, short enough that the window ends before the next one may be
launched.

Timers are values that say when they want to be woken (`wakesAt`) and what they do then (`wake`).
How time passes is left to whoever runs them.
-/

namespace Telemetry

/-- Deadlines one period apart. -/
structure Ticker where
  period : Duration
  /-- the next deadline -/
  deadline : Instant
  deriving DecidableEq, Repr

namespace Ticker

/-- How late a ticker may be looked at without losing its pace. -/
def tolerance : Duration := .ofMillis 5

/-- The first deadline is one period after the start. There is no ticker without a period, nor is
there one if no clock can show its first deadline. -/
def start? (now : Instant) (period : Duration) : Option Ticker :=
  if period.isZero then none
  else (now.plus? period).map fun deadline => { period, deadline }

/-- The ticker once its deadline has been seen. -/
def fire (t : Ticker) (now : Instant) : Ticker :=
  if t.deadline.plus tolerance < now then { t with deadline := now.plus t.period }
  else { t with deadline := t.deadline.plus t.period }

@[simp] theorem period_fire (t : Ticker) (now : Instant) : (t.fire now).period = t.period := by
  unfold fire
  split <;> rfl

/-- A ticker looked at on time keeps its pace. -/
theorem fire_deadline (t : Ticker) :
    t.fire t.deadline = { t with deadline := t.deadline.plus t.period } := by
  have h : ¬ t.deadline.plus tolerance < t.deadline := by
    simp only [Instant.plus, tolerance, Duration.ofMillis]
    change ¬ _ < t.deadline.nanos
    simp
  simp [fire, h]

end Ticker

/-- When windows are recorded. -/
structure RecordPlan where
  /-- the interval that holds one window -/
  interval : Duration
  /-- the length of a window -/
  duration : Duration
  deriving DecidableEq, Repr

/-- The bound of the random delay before a window: what the window leaves of its interval. -/
def RecordPlan.maxDelay (r : RecordPlan) : Duration := r.interval.minus r.duration

/-- The nanoseconds among which a delay is drawn. They are counted in 64 bits. -/
def RecordPlan.choices (r : RecordPlan) : Nat := min r.maxDelay.nanos (UInt64.size - 1)

/-- Whether a delay may be drawn. It lies below the bound, and there is none if the bound is zero.
-/
def RecordPlan.allows (r : RecordPlan) (delay : Duration) : Prop :=
  if r.choices = 0 then delay = .zero else delay.nanos < r.choices

instance (r : RecordPlan) (delay : Duration) : Decidable (r.allows delay) :=
  inferInstanceAs (Decidable (if r.choices = 0 then delay = .zero else delay.nanos < r.choices))

/-- When a reporter works. -/
structure Schedule where
  name : String
  reportInterval : Duration
  /-- the windows recorded between reports, if there are any -/
  record : Option RecordPlan := none
  deriving DecidableEq, Repr

/-- The bound of the random delay before each window. -/
def Schedule.maxDelay? (s : Schedule) : Option Duration :=
  s.record.map RecordPlan.maxDelay

/-- Something that a timer has its reporter do. -/
inductive Action where
  /-- record a window of a length -/
  | record (duration : Duration)
  /-- report -/
  | report
  deriving DecidableEq, Repr

/-- The word for an action. -/
def Action.text : Action → String
  | .record _ => "record"
  | .report => "report"

/-- A timer of a schedule. -/
inductive Timer where
  /-- reports at every deadline -/
  | report (ticker : Ticker)
  /-- launches a window at every deadline, after a delay; `launch` is the time for which the next
  window is set, once its deadline has been seen -/
  | record (ticker : Ticker) (plan : RecordPlan) (launch : Option Instant)
  deriving DecidableEq, Repr

namespace Timer

/-- When a timer wants to be woken. -/
def wakesAt : Timer → Instant
  | report ticker => ticker.deadline
  | record _ _ (some launch) => launch
  | record ticker _ none => ticker.deadline

/-- Wake a timer. `delay` is the delay drawn in case that a deadline of a record timer is seen.
Returns the action that is due. -/
def wake (now : Instant) (delay : Duration) : Timer → Option Action × Timer
  | report ticker => (some .report, report (ticker.fire now))
  | record ticker plan (some _) => (some (.record plan.duration), record ticker plan none)
  | record ticker plan none =>
    if delay.isZero then (some (.record plan.duration), record (ticker.fire now) plan none)
    else (none, record (ticker.fire now) plan (some (now.plus delay)))

end Timer

/-- The timers of a schedule that is started. A timer without a ticker cannot run. -/
def Schedule.start (s : Schedule) (now : Instant) : List (Option Timer) :=
  let reporting := (Ticker.start? now s.reportInterval).map .report
  match s.record with
  | some plan =>
    let recording := (Ticker.start? now plan.interval).map fun ticker => .record ticker plan none
    [recording, reporting]
  | none => [reporting]

/-! ## Failing callbacks -/

/-- What a callback that panicked left behind. -/
inductive Panic where
  /-- a text -/
  | text (message : String)
  /-- something that is no text -/
  | other
  deriving DecidableEq, Repr

/-- What is written down about a callback that panicked. -/
def Schedule.failure (s : Schedule) (action : Action) (panic : Panic) : String :=
  let reason :=
    match panic with
    | .text message => "panicked: " ++ message
    | .other => "panicked"
  s.name ++ " " ++ action.text ++ " failed: " ++ reason

end Telemetry
