/-!
# Labels

The four label sets that a metric and its measurements carry, each with the texts that stand for
them on the wire. Reading looks a text up among all labels of a set, so `ofText?` and `text` cannot
drift apart.
-/

namespace Telemetry

/-- How consecutive observations of a metric relate. -/
inductive MetricKind where
  /-- a reading at a point in time -/
  | state
  /-- a running total, of which each observation reports the growth -/
  | counter
  /-- a sampled call graph -/
  | profile
  /-- timed spans -/
  | trace
  deriving DecidableEq, Repr, Inhabited

/-- What a metric is about. -/
inductive Category where
  | cpu
  | memory
  | gc
  | runtime
  | cpuProfile
  | memoryProfile
  | blockProfile
  | lockProfile
  | httpTrace
  | segmentTrace
  | errorProfile
  deriving DecidableEq, Repr, Inhabited

/-- What a metric is measured in. -/
inductive MeasureUnit where
  /-- a bare number -/
  | none
  | millisecond
  | microsecond
  | nanosecond
  | byte
  | kilobyte
  | percent
  deriving DecidableEq, Repr, Inhabited

/-- What caused an observation to be taken. -/
inductive Trigger where
  /-- a timer was due -/
  | timer
  /-- something unusual happened -/
  | anomaly
  deriving DecidableEq, Repr, Inhabited

namespace MetricKind

/-- The text on the wire. -/
def text : MetricKind → String
  | .state => "state"
  | .counter => "counter"
  | .profile => "profile"
  | .trace => "trace"

/-- Every kind. -/
def all : List MetricKind := [.state, .counter, .profile, .trace]

/-- The kind that a text stands for. -/
def ofText? (s : String) : Option MetricKind := all.find? (·.text == s)

theorem ofText?_text (k : MetricKind) : ofText? k.text = some k := by
  cases k <;> decide

end MetricKind

namespace Category

/-- The text on the wire. -/
def text : Category → String
  | .cpu => "cpu"
  | .memory => "memory"
  | .gc => "gc"
  | .runtime => "runtime"
  | .cpuProfile => "cpu-profile"
  | .memoryProfile => "memory-profile"
  | .blockProfile => "block-profile"
  | .lockProfile => "lock-profile"
  | .httpTrace => "http-trace"
  | .segmentTrace => "segment-trace"
  | .errorProfile => "error-profile"

/-- Every category. -/
def all : List Category :=
  [.cpu, .memory, .gc, .runtime, .cpuProfile, .memoryProfile, .blockProfile, .lockProfile,
    .httpTrace, .segmentTrace, .errorProfile]

/-- The category that a text stands for. -/
def ofText? (s : String) : Option Category := all.find? (·.text == s)

theorem ofText?_text (c : Category) : ofText? c.text = some c := by
  cases c <;> decide

end Category

namespace MeasureUnit

/-- The text on the wire; a bare number has none. -/
def text : MeasureUnit → String
  | .none => ""
  | .millisecond => "millisecond"
  | .microsecond => "microsecond"
  | .nanosecond => "nanosecond"
  | .byte => "byte"
  | .kilobyte => "kilobyte"
  | .percent => "percent"

/-- Every unit. -/
def all : List MeasureUnit :=
  [.none, .millisecond, .microsecond, .nanosecond, .byte, .kilobyte, .percent]

/-- The unit that a text stands for. -/
def ofText? (s : String) : Option MeasureUnit := all.find? (·.text == s)

theorem ofText?_text (u : MeasureUnit) : ofText? u.text = some u := by
  cases u <;> decide

end MeasureUnit

namespace Trigger

/-- The text on the wire. -/
def text : Trigger → String
  | .timer => "timer"
  | .anomaly => "anomaly"

/-- Every trigger. -/
def all : List Trigger := [.timer, .anomaly]

/-- The trigger that a text stands for. -/
def ofText? (s : String) : Option Trigger := all.find? (·.text == s)

theorem ofText?_text (t : Trigger) : ofText? t.text = some t := by
  cases t <;> decide

end Trigger

end Telemetry
