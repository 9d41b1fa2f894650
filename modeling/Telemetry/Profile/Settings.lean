import Telemetry.Breakdown.Tree
import Telemetry.Label
import Telemetry.Time

/-!
# Settings of a profiler

What a profiler reads, how often, and what becomes of the values. A profiler either takes the state
of its source at the time of a report, or records short windows between reports and reports their
average.

The three profilers at the end come ready-made.
-/

namespace Telemetry

/-- When a profiler reads its source. -/
inductive ProfileMode where
  /-- once for each report -/
  | snapshot
  /-- for a part of every interval -/
  | windowed (interval duration : Duration)
  deriving DecidableEq, Repr

/-- How values are converted for a report. -/
inductive ProfileScale (α : Type) where
  /-- not at all -/
  | absolute
  /-- by a factor -/
  | factor (f : α)
  /-- from processor time to a percentage of what all processors could give in one window -/
  | cpuPercent

/-- The settings of a profiler. -/
structure ProfilerSettings (α : Type) where
  name : String
  category : Category
  unit : MeasureUnit
  /-- the kind of the column that is measured -/
  valueKind : String
  /-- the kind of the column that is counted -/
  countKind : String
  mode : ProfileMode
  reportInterval : Duration
  scale : ProfileScale α
  filter : Option (ValueFilter α)

/-- Why settings cannot be run. -/
inductive SettingsError where
  | reportIntervalZero
  | recordIntervalZero
  /-- the windows are longer than the interval that holds one of them -/
  | windowTooLong
  deriving DecidableEq, Repr

/-- The text of an error. -/
def SettingsError.message : SettingsError → String
  | reportIntervalZero => "report interval must be greater than zero"
  | recordIntervalZero => "record interval must be greater than zero"
  | windowTooLong => "record duration must not exceed the record interval"

namespace ProfilerSettings

variable {α : Type}

/-- Report the first thing that keeps settings from being run. -/
def check (s : ProfilerSettings α) : Except SettingsError Unit :=
  if s.reportInterval.isZero then .error .reportIntervalZero
  else
    match s.mode with
    | .snapshot => .ok ()
    | .windowed interval duration =>
      if interval.isZero then .error .recordIntervalZero
      else if interval < duration then .error .windowTooLong
      else .ok ()

/-- The windows of ready-made profilers: two seconds out of every ten. -/
def standardWindows : ProfileMode := .windowed (.ofSeconds 10) (.ofSeconds 2)

/-- The heap in use by allocation site. Sites below the outermost one need ten thousand bytes. -/
def heap : ProfilerSettings Float :=
  { name := "Heap allocation", category := .memoryProfile, unit := .byte
    valueKind := "inuse_space", countKind := "inuse_objects"
    mode := .snapshot, reportInterval := .ofSeconds 120, scale := .absolute
    filter := some { fromDepth := 2, least := 10000, greatest := 1 / 0 } }

/-- Processor time by call path. -/
def cpu : ProfilerSettings Float :=
  { name := "CPU usage", category := .cpuProfile, unit := .percent
    valueKind := "cpu", countKind := "samples"
    mode := standardWindows, reportInterval := .ofSeconds 120, scale := .cpuPercent
    filter := none }

/-- Time spent blocked by call path. -/
def block : ProfilerSettings Float :=
  { name := "Blocking call times", category := .blockProfile, unit := .millisecond
    valueKind := "delay", countKind := "contentions"
    mode := standardWindows, reportInterval := .ofSeconds 120, scale := .factor 1e-6
    filter := none }

end ProfilerSettings

end Telemetry
