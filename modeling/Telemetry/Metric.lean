import Telemetry.Config
import Telemetry.Identity
import Telemetry.Record

/-!
# Metrics

A metric is known by the digest of its labels and lives across reporting windows. It holds the
latest observation, and a counter also remembers its last reading: what is observed of a counter is
the growth since then, so that its first reading is no observation yet.

The type of breakdowns is a parameter. Reporters attach trees; whoever works with shared nodes
attaches handles, and the breakdown is then read when the metric is written, not when it was
observed.
-/

namespace Telemetry

/-- One observation of a metric. -/
structure Measurement (α β : Type) where
  id : HashId
  trigger : Trigger
  value : α
  /-- the length of the window observed, in seconds -/
  duration : UInt64
  breakdown : Option β
  timestamp : UnixTime

/-- A metric and what is known about it. -/
structure Metric (α β : Type) where
  id : HashId
  kind : MetricKind
  category : Category
  name : String
  unit : MeasureUnit
  /-- the latest observation -/
  measurement : Option (Measurement α β)
  /-- the last reading of a counter -/
  lastReading : Option α

namespace Metric

variable {α β : Type}

/-- The texts that make up the id of a metric: who reports it, and its labels. -/
def identifyingParts (config : Config) (kind : MetricKind) (category : Category) (name : String)
    (unit : MeasureUnit) : List String :=
  [config.appName, config.appEnvironment, config.hostName, kind.text, category.text, name,
    unit.text]

/-- A metric that was never observed. -/
def create (config : Config) (kind : MetricKind) (category : Category) (name : String)
    (unit : MeasureUnit) : Metric α β :=
  { id := HashId.digest (identifyingParts config kind category name unit)
    kind, category, name, unit, measurement := none, lastReading := none }

section Observing

variable [Quantity α]

/-- What there is to be observed in a reading: the reading itself, or for a counter its growth since
the last one. -/
def observed? (m : Metric α β) (reading : α) : Option α :=
  match m.kind with
  | .counter => m.lastReading.map (reading - ·)
  | .state | .profile | .trace => some reading

/-- Take a reading. Returns the value observed, if there is one. -/
def observe (m : Metric α β) (mint : Mint) (moment : Moment) (trigger : Trigger) (reading : α)
    (duration : UInt64) (breakdown : Option β) : Option α × Metric α β × Mint :=
  let remembered :=
    match m.kind with
    | .counter => { m with lastReading := some reading }
    | .state | .profile | .trace => m
  match m.observed? reading with
  | none => (none, remembered, mint)
  | some value =>
    let (id, mint) := mint.next moment
    let measurement :=
      { id, trigger, value, duration, breakdown, timestamp := moment.now }
    (some value, { remembered with measurement := some measurement }, mint)

end Observing

/-- The record of a metric. `picture` shows its breakdown. -/
def toRecord (picture : β → Option (BreakdownRecord α)) (m : Metric α β) : MetricRecord α :=
  { id := m.id.text, kind := m.kind, category := m.category, name := m.name, unit := m.unit
    measurement := m.measurement.map fun o =>
      { id := o.id.text, trigger := o.trigger, value := o.value, duration := o.duration
        breakdown := o.breakdown.bind picture, timestamp := o.timestamp.seconds } }

end Metric

end Telemetry
