import Telemetry.Files
import Telemetry.Json.Parser
import Telemetry.Json.Record
import Telemetry.Text.Blank
import Telemetry.Time

/-!
# Configuration

What an agent is told when it starts: who it reports for, how often, and how talkative it is. Only
the name of the application has to be given; `Config.check` says whether a configuration can be run.

A configuration file is a JSON record in which every part may be left out.
-/

namespace Telemetry

/-- The intervals of an agent's own timers. -/
structure Timings where
  /-- the interval of segment reports, in milliseconds -/
  segmentReport : UInt64 := 60000
  /-- the interval of error reports, in milliseconds -/
  errorReport : UInt64 := 60000
  /-- the interval of process reports, in milliseconds -/
  processReport : UInt64 := 60000
  /-- the interval of flushes, in milliseconds -/
  flush : UInt64 := 1000
  /-- how long a queued message is kept, in seconds -/
  messageExpiry : UInt64 := 600
  deriving DecidableEq, Repr

/-- The address that is given to collectors unless another is configured. -/
def defaultDashboard : String := "http://localhost:8080/metrics"

/-- The configuration of an agent. -/
structure Config where
  agentKey : String := ""
  /-- the application reported for; it must not be blank -/
  appName : String := ""
  appVersion : String := ""
  appEnvironment : String := ""
  /-- the host reported from; if empty it is found out at the start -/
  hostName : String := ""
  dashboardAddress : String := defaultDashboard
  /-- whether the agent keeps a journal -/
  debug : Bool := false
  /-- whether the agent's own frames stay in profiles -/
  profileAgent : Bool := false
  timings : Timings := {}
  deriving DecidableEq, Repr

instance : Inhabited Config := ⟨{}⟩

/-- What can be wrong with a configuration. -/
inductive ConfigError where
  /-- an option that must be given is missing -/
  | missingField (name : String)
  /-- an interval is zero -/
  | zeroInterval (name : String)
  /-- the file cannot be read -/
  | unreadable (reason : FileError)
  /-- the file is no configuration -/
  | malformed
  deriving DecidableEq, Repr

/-- The text that stands for what is wrong inside a malformed file. -/
def ConfigError.malformedReason : String := "not a configuration record"

/-- The text of an error. -/
def ConfigError.message : ConfigError → String
  | missingField name => "Missing required option: " ++ name
  | zeroInterval name => "Interval " ++ name ++ " must be greater than zero"
  | unreadable reason => "Failed to read config file: " ++ reason.message
  | malformed => "Failed to parse config file: " ++ malformedReason

/-- What lies behind an error. -/
def ConfigError.causes : ConfigError → List String
  | unreadable reason => [reason.message]
  | malformed => [malformedReason]
  | missingField _ | zeroInterval _ => []

namespace Timings

/-- The intervals that must not be zero, under their names. -/
def intervals (t : Timings) : List (String × UInt64) :=
  [("segment_report_interval_ms", t.segmentReport), ("error_report_interval_ms", t.errorReport),
    ("process_report_interval_ms", t.processReport), ("flush_interval_ms", t.flush)]

/-- Report the first interval that is zero. -/
def check (t : Timings) : Except ConfigError Unit :=
  match t.intervals.find? (·.2 == 0) with
  | some (name, _) => .error (.zeroInterval name)
  | none => .ok ()

/-- The interval of segment reports. -/
def segmentInterval (t : Timings) : Duration := .ofMillis t.segmentReport.toNat

/-- The interval of error reports. -/
def errorInterval (t : Timings) : Duration := .ofMillis t.errorReport.toNat

/-- The interval of process reports. -/
def processInterval (t : Timings) : Duration := .ofMillis t.processReport.toNat

/-- The interval of flushes. -/
def flushInterval (t : Timings) : Duration := .ofMillis t.flush.toNat

/-- The names of the fields. -/
def fieldNames : List String :=
  ["segment_report_interval_ms", "error_report_interval_ms", "process_report_interval_ms",
    "flush_interval_ms", "message_expiry_secs"]

/-- Timings as an object. -/
def toJson (t : Timings) : Json :=
  .object [("segment_report_interval_ms", .ofNat t.segmentReport.toNat),
    ("error_report_interval_ms", .ofNat t.errorReport.toNat),
    ("process_report_interval_ms", .ofNat t.processReport.toNat),
    ("flush_interval_ms", .ofNat t.flush.toNat),
    ("message_expiry_secs", .ofNat t.messageExpiry.toNat)]

/-- The timings that a value writes. -/
def ofJson? (j : Json) : Option Timings :=
  match Json.partialRecord? fieldNames j with
  | some [segment, error, process, flush, expiry] => do
    let standard : Timings := {}
    let segmentReport ← Json.withDefault Json.uint64? standard.segmentReport segment
    let errorReport ← Json.withDefault Json.uint64? standard.errorReport error
    let processReport ← Json.withDefault Json.uint64? standard.processReport process
    let flush ← Json.withDefault Json.uint64? standard.flush flush
    let messageExpiry ← Json.withDefault Json.uint64? standard.messageExpiry expiry
    return { segmentReport, errorReport, processReport, flush, messageExpiry }
  | _ => none

end Timings

namespace Config

/-- Report the first thing that keeps a configuration from being run. -/
def check (c : Config) : Except ConfigError Unit :=
  if Text.allBlank c.appName then .error (.missingField "app_name") else c.timings.check

/-- The names of the fields. -/
def fieldNames : List String :=
  ["agent_key", "app_name", "app_version", "app_environment", "host_name", "dashboard_address",
    "debug", "profile_agent", "timings"]

/-- A configuration as an object. -/
def toJson (c : Config) : Json :=
  .object [("agent_key", .string c.agentKey), ("app_name", .string c.appName),
    ("app_version", .string c.appVersion), ("app_environment", .string c.appEnvironment),
    ("host_name", .string c.hostName), ("dashboard_address", .string c.dashboardAddress),
    ("debug", .bool c.debug), ("profile_agent", .bool c.profileAgent),
    ("timings", c.timings.toJson)]

/-- The configuration that a value writes. -/
def ofJson? (j : Json) : Option Config :=
  match Json.partialRecord? fieldNames j with
  | some [agentKey, appName, appVersion, appEnvironment, hostName, dashboardAddress, debug,
      profileAgent, timings] => do
    let standard : Config := {}
    let agentKey ← Json.withDefault Json.string? standard.agentKey agentKey
    let appName ← Json.withDefault Json.string? standard.appName appName
    let appVersion ← Json.withDefault Json.string? standard.appVersion appVersion
    let appEnvironment ← Json.withDefault Json.string? standard.appEnvironment appEnvironment
    let hostName ← Json.withDefault Json.string? standard.hostName hostName
    let dashboardAddress ←
      Json.withDefault Json.string? standard.dashboardAddress dashboardAddress
    let debug ← Json.withDefault Json.bool? standard.debug debug
    let profileAgent ← Json.withDefault Json.bool? standard.profileAgent profileAgent
    let timings ← Json.withDefault Timings.ofJson? standard.timings timings
    return { agentKey, appName, appVersion, appEnvironment, hostName, dashboardAddress, debug,
             profileAgent, timings }
  | _ => none

/-- The configuration in a file, given what came of reading the file. -/
def ofFile (content : Except FileError ByteArray) : Except ConfigError Config := do
  let text ← (content.bind textOfFile).mapError .unreadable
  match (Json.parse? text).bind ofJson? with
  | some config => .ok config
  | none => .error .malformed

end Config

/-! ## The host -/

/-- What an agent finds out about the machine and the process it runs in. -/
structure Host where
  /-- the name given by the environment, empty if there is none -/
  environmentName : String
  /-- the name that the kernel has for the machine, if it can be read -/
  kernelName : Option String
  /-- the number of processors -/
  processors : Nat
  /-- the number of the process -/
  processId : String
  /-- what identifies the running program -/
  buildId : String
  deriving DecidableEq, Repr

/-- The name of a host: from the environment, else from the kernel. -/
def Host.name (h : Host) : String :=
  if h.environmentName.isEmpty then
    match h.kernelName with
    | some name => Text.trim name
    | none => "unknown"
  else h.environmentName

/-- Fill in the name of the host if it was left empty. -/
def Config.resolve (c : Config) (host : Host) : Config :=
  if c.hostName.isEmpty then { c with hostName := host.name } else c

end Telemetry
