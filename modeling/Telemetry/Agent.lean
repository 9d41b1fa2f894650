import Telemetry.Profile.Profiler
import Telemetry.Reporting.ErrorGroups
import Telemetry.Reporting.ProcessUsage
import Telemetry.Reporting.Segments
import Telemetry.Schedule.Roster

/-!
# The agent

An agent is made, told which profilers to run, started once, and stopped once. The start builds its
pipeline: everything that collects and reports. It sets a latch first, so that no other start gets
any further, and releases it if nothing can be built. Nothing can be registered behind the latch.

What the host program tells an agent counts only while the agent is live, that is between a start
and the end of the last reports of a stop. A stop is made of steps, between which the host program
may go on talking: its timers are cancelled, everything is reported once more, the pipeline is
closed, and what is queued is uploaded.
-/

namespace Telemetry

/-- Why an agent refuses a request. -/
inductive AgentError where
  | invalidConfig (reason : ConfigError)
  /-- there is nothing that could run the timers -/
  | noRuntime
  | registeredAfterStart (name : String)
  | invalidProfiler (name : String) (reason : SettingsError)
  deriving DecidableEq, Repr

/-- The text of an error. -/
def AgentError.message : AgentError → String
  | invalidConfig reason => "Invalid agent configuration: " ++ reason.message
  | noRuntime => "Agent must be started from within a Tokio runtime"
  | registeredAfterStart name =>
    "Profiler " ++ name ++ " registered after the agent was started"
  | invalidProfiler name reason =>
    "Profiler " ++ name ++ " has invalid settings: " ++ reason.message

/-- What lies behind an error. -/
def AgentError.causes : AgentError → List String
  | invalidConfig reason => reason.message :: reason.causes
  | noRuntime | registeredAfterStart _ | invalidProfiler _ _ => []

/-- The version of the agent. -/
def agentVersion : String := "0.1.0"

/-- Something that reports. -/
inductive Reporter where
  | segments
  | errors
  | process
  /-- the profiler at a place in the order of registration -/
  | profiler (index : Nat)
  deriving DecidableEq, Repr

/-- What reports need to know about the outside. -/
structure Surroundings where
  moment : Moment
  /-- the number of processors -/
  processors : Nat
  /-- what can be read about the process -/
  readings : ProcessReadings
  /-- what a profiler gets when it reads its source -/
  profile : Nat → Except ProfileError Profile

/-- Everything that collects and reports. -/
structure Pipeline (α : Type) where
  outlet : Outlet
  segments : Segments α
  errors : ErrorGroups α
  process : ProcessUsage α
  /-- the profilers in the order in which they were registered -/
  profilers : List (Profiler α)
  /-- whether the agent has been stopped -/
  stopped : Bool

namespace Pipeline

variable {α : Type} [Quantity α]

/-- What the uploads of an agent say about it. The id of the run is minted for it. -/
def envelope (config : Config) (host : Host) (moment : Moment) : Delivery.Envelope :=
  let (runId, _) := ({} : Mint).next moment
  { agentVersion
    appName := config.appName, appVersion := config.appVersion
    appEnvironment := config.appEnvironment, hostName := config.hostName
    processId := host.processId, buildId := host.buildId, runId := runId.text
    runTime := moment.now.seconds }

/-- A pipeline that has collected nothing. -/
def create (config : Config) (host : Host) (registrations : List (ProfilerSettings α))
    (moment : Moment) : Pipeline α :=
  let config := config.resolve host
  let delivery :=
    Delivery.create (envelope config host moment) config.timings.messageExpiry config.debug
  let outlet : Outlet := { config, delivery }
  { outlet, segments := {}, errors := .empty, process := .create outlet
    profilers := registrations.map (Profiler.create outlet), stopped := false }

omit [Quantity α] in
/-- The schedule of a profiler. -/
def profilerSchedule (p : Profiler α) : Schedule :=
  { name := p.settings.name, reportInterval := p.settings.reportInterval
    record :=
      match p.settings.mode with
      | .snapshot => none
      | .windowed interval duration => some { interval, duration } }

/-- The schedules of a pipeline, and who works by them. -/
def schedules (p : Pipeline α) : List (Reporter × Schedule) :=
  let timings := p.outlet.config.timings
  [(.segments, { name := Segments.scheduleName, reportInterval := timings.segmentInterval }),
    (.errors, { name := ErrorGroups.scheduleName, reportInterval := timings.errorInterval }),
    (.process, { name := ProcessUsage.scheduleName, reportInterval := timings.processInterval })]
    ++ p.profilers.mapIdx fun index profiler => (.profiler index, profilerSchedule profiler)

/-! ## Reports -/

/-- Report the segments. -/
def reportSegments (p : Pipeline α) (s : Surroundings) : Pipeline α :=
  let (_, segments, outlet) := p.segments.report p.outlet s.moment
  { p with segments, outlet }

/-- Report the errors. -/
def reportErrors (p : Pipeline α) (s : Surroundings) : Pipeline α :=
  let (_, errors, outlet) := p.errors.report p.outlet s.moment
  { p with errors, outlet }

/-- Report on the process. -/
def reportProcess (p : Pipeline α) (s : Surroundings) : Pipeline α :=
  let (_, process, outlet) := p.process.report p.outlet s.moment s.processors s.readings
  { p with process, outlet }

/-- Write down that a profiler failed. -/
def profilerFailed (o : Outlet) (p : Profiler α) (action : Action) (e : ProfileError) : Outlet :=
  o.error (p.settings.name ++ " " ++ action.text ++ " failed: " ++ e.message)

/-- Have a profiler report. If that fails, it is written down. -/
def reportProfile (s : Surroundings) (index : Nat) (profiler : Profiler α) (o : Outlet) :
    Profiler α × Outlet :=
  match profiler.report o s.moment s.processors (s.profile index) with
  | .ok (_, profiler, o) => (profiler, o)
  | .error e => (profiler, profilerFailed o profiler .report e)

/-- Have each profiler of a list report. `index` is the place of the first one. -/
def reportProfiles (s : Surroundings) :
    Nat → List (Profiler α) → Outlet → List (Profiler α) × Outlet
  | _, [], o => ([], o)
  | index, profiler :: rest, o =>
    let (profiler, o) := reportProfile s index profiler o
    let (rest, o) := reportProfiles s (index + 1) rest o
    (profiler :: rest, o)

/-- Report everything. -/
def reportAll (p : Pipeline α) (s : Surroundings) : Pipeline α :=
  let p := ((p.reportSegments s).reportErrors s).reportProcess s
  let (profilers, outlet) := reportProfiles s 0 p.profilers p.outlet
  { p with profilers, outlet }

/-- Change the profiler at a place, together with the outlet. -/
def withProfiler (p : Pipeline α) (index : Nat)
    (f : Profiler α → Outlet → Profiler α × Outlet) : Pipeline α :=
  match p.profilers[index]? with
  | some profiler =>
    let (profiler, outlet) := f profiler p.outlet
    { p with profilers := p.profilers.set index profiler, outlet }
  | none => p

/-- Do what a timer is for. -/
def perform (p : Pipeline α) (reporter : Reporter) (action : Action) (s : Surroundings) :
    Pipeline α :=
  match reporter, action with
  | .segments, _ => p.reportSegments s
  | .errors, _ => p.reportErrors s
  | .process, _ => p.reportProcess s
  | .profiler index, .report => p.withProfiler index (reportProfile s index)
  | .profiler index, .record duration =>
    p.withProfiler index fun profiler o =>
      match profiler.record (s.profile index) with
      | .ok profiler => (profiler, o)
      | .error e => (profiler, profilerFailed o profiler (.record duration) e)

/-- Record the duration of a segment in milliseconds. -/
def recordSegment (p : Pipeline α) (name : String) (duration : α) (slot : Nat) : Pipeline α :=
  let (segments, outlet) := p.segments.record p.outlet name duration slot
  { p with segments, outlet }

/-- Count an error. -/
def recordError (p : Pipeline α) (group message : String) : Pipeline α :=
  { p with errors := p.errors.record group message }

/-- Write down how the last upload of a stop went. -/
def concludeStop (p : Pipeline α) (outcome : Except Delivery.UploadError Nat) : Pipeline α :=
  let outlet :=
    match outcome with
    | .ok _ => p.outlet
    | .error e =>
      p.outlet.error ("Final upload failed, " ++ toString p.outlet.delivery.size
        ++ " messages left unsent: " ++ e.message)
  { p with outlet := outlet.info "Agent stopped" }

end Pipeline

/-- An agent. -/
structure Agent (α : Type) where
  /-- whether a start is under way or has succeeded -/
  latched : Bool := false
  /-- the profilers to be run, in the order of registration -/
  registrations : List (ProfilerSettings α) := []
  /-- what a successful start has built -/
  pipeline : Option (Pipeline α) := none

namespace Agent

variable {α : Type} [Quantity α]

/-- An agent that was told nothing. -/
def create : Agent α := {}

/-- Whether the agent has been started. -/
def isStarted (a : Agent α) : Bool := a.pipeline.isSome

/-- The pipeline while the agent has been started and not stopped. -/
def live? (a : Agent α) : Option (Pipeline α) := a.pipeline.filter fun p => !p.stopped

/-- Whether what the agent is told counts. -/
def isRunning (a : Agent α) : Bool := a.live?.isSome

/-- Add a profiler to be run once the agent starts. -/
def register (a : Agent α) (settings : ProfilerSettings α) : Except AgentError Unit × Agent α :=
  if a.latched then (.error (.registeredAfterStart settings.name), a)
  else
    match settings.check with
    | .error reason => (.error (.invalidProfiler settings.name reason), a)
    | .ok () => (.ok (), { a with registrations := a.registrations ++ [settings] })

/-- Build a pipeline, into which the registered profilers go. `runtime` says whether there is
something that can run its timers. -/
def build (a : Agent α) (config : Config) (host : Host) (runtime : Bool) (moment : Moment) :
    Except AgentError (Pipeline α) × Agent α :=
  if !runtime then (.error .noRuntime, a)
  else
    match config.check with
    | .error reason => (.error (.invalidConfig reason), a)
    | .ok () =>
      (.ok (Pipeline.create config host a.registrations moment), { a with registrations := [] })

/-- Publish a pipeline, unless there is one. -/
def publish (a : Agent α) (built : Pipeline α) : Agent α :=
  let p := a.pipeline.getD built
  let started := "Agent started: app=" ++ p.outlet.config.appName ++ " run="
    ++ p.outlet.delivery.envelope.runId
  { a with pipeline := some { p with outlet := p.outlet.info started } }

/-- Start the agent. Nothing happens behind the latch, which is released if the start fails. -/
def start (a : Agent α) (config : Config) (host : Host) (runtime : Bool) (moment : Moment) :
    Except AgentError Unit × Agent α :=
  if a.latched then (.ok (), a)
  else
    let (built, a) := { a with latched := true }.build config host runtime moment
    match built with
    | .ok p => (.ok (), a.publish p)
    | .error reason => (.error reason, { a with latched := false })

/-- Change the pipeline if the agent is live. -/
def whenLive (a : Agent α) (f : Pipeline α → Pipeline α) : Agent α :=
  match a.live? with
  | some p => { a with pipeline := some (f p) }
  | none => a

/-- Record the duration of a segment in milliseconds. -/
def recordSegment (a : Agent α) (name : String) (duration : α) (slot : Nat) : Agent α :=
  a.whenLive (·.recordSegment name duration slot)

/-- Count an error. -/
def recordError (a : Agent α) (group message : String) : Agent α :=
  a.whenLive (·.recordError group message)

/-- The latest duration of each segment recorded since this was last asked. -/
def takeLatest (a : Agent α) : List (String × α) × Agent α :=
  match a.live? with
  | some p =>
    let (taken, segments) := p.segments.takeLatest
    (taken, { a with pipeline := some { p with segments } })
  | none => ([], a)

/-- Report everything now. -/
def reportNow (a : Agent α) (s : Surroundings) : Agent α :=
  a.whenLive (·.reportAll s)

/-- Close the pipeline: from now on nothing that the agent is told counts. -/
def close (a : Agent α) : Agent α :=
  a.whenLive fun p => { p with stopped := true }

/-- The id of the run, once the agent has been started. -/
def runId? (a : Agent α) : Option String :=
  a.pipeline.map fun p => p.outlet.delivery.envelope.runId

/-- Everything about messages on their way out, once the agent has been started. -/
def delivery? (a : Agent α) : Option Delivery :=
  a.pipeline.map fun p => p.outlet.delivery

omit [Quantity α] in
/-- Do something with the messages on their way out, once the agent has been started. -/
def withDelivery {β : Type} (a : Agent α) (f : Delivery → β × Delivery) : Option β × Agent α :=
  match a.pipeline with
  | none => (none, a)
  | some p =>
    let (b, delivery) := f p.outlet.delivery
    (some b, { a with pipeline := some { p with outlet := { p.outlet with delivery } } })

/-- The timers of an agent that was started just now. -/
def timers (a : Agent α) (now : Instant) : Roster Reporter :=
  match a.pipeline with
  | some p => .concat (p.schedules.map fun (reporter, schedule) =>
      .ofSchedule reporter schedule now)
  | none => { timers := [] }

/-- Write down how the last upload of a stop went. -/
def concludeStop (a : Agent α) (outcome : Except Delivery.UploadError Nat) : Agent α :=
  { a with pipeline := a.pipeline.map (·.concludeStop outcome) }

end Agent

end Telemetry
