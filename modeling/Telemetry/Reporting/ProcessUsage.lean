import Telemetry.Outlet

/-!
# The process

Each report reads the processor time and the memory of the process. Processor time is a counter, so
its metric is the time used since the last reading; usage is that time as a share of what all
processors could have given since the last report. Both first appear in the second report. A reading
that fails is written down and left out.
-/

namespace Telemetry

/-- The outcome of reading a value. -/
abbrev Reading (β : Type) := Except String β

/-- What is read at one report. -/
structure ProcessReadings where
  /-- the steady clock -/
  now : Instant
  /-- the processor time used so far -/
  cpuTime : Reading Duration
  /-- the most memory ever resident, in kilobytes -/
  maxResident : Reading UInt64
  /-- the memory resident now, in kilobytes -/
  currentResident : Reading UInt64
  /-- the size of the address space, in kilobytes -/
  virtualSize : Reading UInt64

/-- The metrics of the process. -/
structure ProcessUsage (α : Type) where
  cpuTime : Metric α (Tree α)
  cpuUsage : Metric α (Tree α)
  maxResident : Metric α (Tree α)
  currentResident : Metric α (Tree α)
  virtualSize : Metric α (Tree α)
  /-- when the last report was made -/
  lastReport : Option Instant

namespace ProcessUsage

variable {α : Type} [Quantity α]

/-- The name of the schedule of process reports. -/
def scheduleName : String := "process"

omit [Quantity α] in
/-- Metrics that were never observed. -/
def create (o : Outlet) : ProcessUsage α :=
  { cpuTime := o.metric .counter .cpu "CPU time" .nanosecond
    cpuUsage := o.metric .state .cpu "CPU usage" .percent
    maxResident := o.metric .state .memory "Max RSS" .kilobyte
    currentResident := o.metric .state .memory "Current RSS" .kilobyte
    virtualSize := o.metric .state .memory "VM Size" .kilobyte
    lastReport := none }

/-- Observe a metric without breakdown and queue it if it has been observed at all. Returns the
value observed and the number queued. -/
def observe (o : Outlet) (moment : Moment) (m : Metric α (Tree α)) (duration : UInt64)
    (value : α) : Option α × Nat × Metric α (Tree α) × Outlet :=
  let (observed, m, mint) := m.observe o.mint moment .timer value duration none
  let (queued, o) := { o with mint }.emit moment.now m
  (observed, if queued then 1 else 0, m, o)

/-- The nanoseconds that all processors together could have spent in a span. -/
def capacity (elapsed : Duration) (processors : Nat) : α :=
  Quantity.ofInt elapsed.nanos * Quantity.ofInt processors

/-- Report processor time and usage. `elapsed` is the time since the last report. -/
def reportCpu (p : ProcessUsage α) (o : Outlet) (moment : Moment) (processors : Nat)
    (duration : UInt64) (elapsed : Option Duration) (reading : Reading Duration) :
    Nat × ProcessUsage α × Outlet :=
  match reading with
  | .error reason => (0, p, o.error ("Failed to read CPU time: " ++ reason))
  | .ok used =>
    let (growth, emitted, cpuTime, o) :=
      observe o moment p.cpuTime duration (Quantity.ofInt used.nanos)
    let p := { p with cpuTime }
    match growth, elapsed with
    | some growth, some elapsed =>
      let capacity : α := capacity elapsed processors
      if Quantity.isPositive capacity then
        let usage := growth / capacity * Quantity.hundred
        let (_, more, cpuUsage, o) := observe o moment p.cpuUsage duration usage
        (emitted + more, { p with cpuUsage }, o)
      else (emitted, p, o)
    | _, _ => (emitted, p, o)

/-- Report a number of kilobytes. -/
def reportMemory (o : Outlet) (moment : Moment) (m : Metric α (Tree α)) (duration : UInt64)
    (reading : Reading UInt64) : Nat × Metric α (Tree α) × Outlet :=
  match reading with
  | .error reason => (0, m, o.error ("Failed to read " ++ m.name ++ ": " ++ reason))
  | .ok kilobytes =>
    let (_, emitted, m, o) := observe o moment m duration (Quantity.ofInt kilobytes.toNat)
    (emitted, m, o)

/-- Report everything that could be read. Returns the number of metrics queued. -/
def report (p : ProcessUsage α) (o : Outlet) (moment : Moment) (processors : Nat)
    (readings : ProcessReadings) : Nat × ProcessUsage α × Outlet :=
  let duration := UInt64.ofNat o.config.timings.processInterval.toSeconds
  let elapsed := p.lastReport.map readings.now.since
  let p := { p with lastReport := some readings.now }
  let (cpu, p, o) := p.reportCpu o moment processors duration elapsed readings.cpuTime
  let (first, maxResident, o) := reportMemory o moment p.maxResident duration readings.maxResident
  let (second, currentResident, o) :=
    reportMemory o moment p.currentResident duration readings.currentResident
  let (third, virtualSize, o) := reportMemory o moment p.virtualSize duration readings.virtualSize
  (cpu + first + second + third, { p with maxResident, currentResident, virtualSize }, o)

end ProcessUsage

end Telemetry
