import Telemetry.Breakdown.Tree
import Telemetry.Delivery
import Telemetry.Metric

/-!
# The outlet

What the reporters of one agent share: its configuration, the source of its ids, and the way out for
what they report.
-/

namespace Telemetry

/-- What reporters share. -/
structure Outlet where
  config : Config
  mint : Mint := {}
  delivery : Delivery

namespace Outlet

variable {α : Type}

/-- The topic under which metrics are queued. -/
def metricTopic : String := "metric"

/-- Write something down. -/
def info (o : Outlet) (text : String) : Outlet :=
  { o with delivery := o.delivery.withJournal (·.info text) }

/-- Write down that something failed. -/
def error (o : Outlet) (text : String) : Outlet :=
  { o with delivery := o.delivery.withJournal (·.error text) }

/-- A metric of this agent that was never observed. -/
def metric (o : Outlet) (kind : MetricKind) (category : Category) (name : String)
    (unit : MeasureUnit) : Metric α (Tree α) :=
  Metric.create o.config kind category name unit

variable [Quantity α]

/-- Queue a metric if it holds a measurement. Returns whether it was queued. -/
def emit (o : Outlet) (now : UnixTime) (m : Metric α (Tree α)) : Bool × Outlet :=
  match m.measurement with
  | none => (false, o)
  | some _ =>
    let record := m.toRecord fun tree => some tree.toRecord
    (true, { o with delivery := o.delivery.enqueue now metricTopic record.toJson })

/-- Observe a metric with a breakdown whose top holds the value, and queue it. -/
def report (o : Outlet) (moment : Moment) (m : Metric α (Tree α)) (duration : UInt64)
    (breakdown : Tree α) : Bool × Metric α (Tree α) × Outlet :=
  let (_, m, mint) :=
    m.observe o.mint moment .timer breakdown.measurement duration (some breakdown)
  let (queued, o) := { o with mint }.emit moment.now m
  (queued, m, o)

end Outlet

end Telemetry
