import Telemetry.Agent
import Telemetry.CommandLine.Args

/-!
# Launching an agent from the command line

The configuration comes from a file, if one is named, and the command line takes precedence over it.
If no agent can be launched, the program says why and ends with a code that tells mistakes in the
configuration from other failures.
-/

namespace Telemetry.CommandLine

/-- What the command line changes in a configuration. -/
def Args.override (args : Args) (config : Config) : Config :=
  let timings :=
    match args.reportEvery with
    | some seconds =>
      let millis := UInt64.ofNat (min (seconds.toNat * 1000) (UInt64.size - 1))
      { config.timings with
        segmentReport := millis, errorReport := millis, processReport := millis }
    | none => config.timings
  { config with
    appName := args.appName.getD config.appName
    debug := config.debug || args.debug
    timings }

/-- Why no agent could be launched. -/
inductive Failure where
  /-- the configuration could not be loaded -/
  | unloadable (path : String) (reason : ConfigError)
  /-- the agent refused -/
  | refused (reason : AgentError)
  deriving DecidableEq, Repr

namespace Failure

/-- A failure and all that lies behind it, each explained by the next. -/
def chain : Failure → List String
  | unloadable path reason =>
    ("Failed to load config from " ++ path) :: reason.message :: reason.causes
  | refused reason => reason.message :: reason.causes

/-- What the program says about a failure. -/
def message (f : Failure) : String :=
  "error: " ++ ": ".intercalate f.chain ++ "\n"

/-- The exit code. -/
def exitCode : Failure → UInt8
  | refused (.invalidConfig _) => 2
  | refused _ | unloadable _ _ => 1

end Failure

/-- The configuration of a launch. `read` reads a file. -/
def Args.loadConfig (args : Args) (read : String → Except FileError ByteArray) :
    Except Failure Config :=
  match args.config with
  | some path =>
    match Config.ofFile (read path) with
    | .ok config => .ok (args.override config)
    | .error reason => .error (.unloadable path reason)
  | none => .ok (args.override {})

/-- An agent that profiles the heap, started. -/
def launch (config : Config) (host : Host) (moment : Moment) : Except Failure (Agent Float) :=
  let (registered, agent) := (Agent.create : Agent Float).register ProfilerSettings.heap
  let (started, agent) := agent.start config host true moment
  match registered, started with
  | .ok (), .ok () => .ok agent
  | .error reason, _ | _, .error reason => .error (.refused reason)

end Telemetry.CommandLine
