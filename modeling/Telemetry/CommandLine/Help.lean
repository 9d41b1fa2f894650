import Telemetry.CommandLine.Args

/-!
# What the program says about its command line

The help, and a line for each reason why a command line is not carried out.
-/

namespace Telemetry.CommandLine

/-- The help. -/
def help : String :=
  "\n".intercalate
    ["Run a synthetic workload with the stackpulse agent attached",
      "",
      "Usage: stackpulse-demo [OPTIONS]",
      "",
      "Options:",
      "      --app-name <NAME>      Application name reported with every metric",
      "  -c, --config <FILE>        JSON agent configuration (command-line flags take precedence)",
      "  -o, --output <FILE>        Append uploads to this file as JSON lines instead of logging "
        ++ "them",
      "      --duration <DURATION>  Stop after N seconds (0 = until Ctrl+C) [default: 0]",
      "      --report-every <SECS>  Report and flush every N seconds instead of the production "
        ++ "intervals",
      "  -d, --debug                Enable agent diagnostics",
      "  -h, --help                 Print help",
      "",
      "EXAMPLES:",
      "    stackpulse-demo --app-name shop                      Log uploads to stderr",
      "    stackpulse-demo --app-name shop --output up.jsonl    Append uploads as JSON lines",
      "    stackpulse-demo --config agent.json --duration 30    Load options from a file",
      ""]

/-- Why a command line is not carried out. -/
def Refusal.reason : Refusal → String
  | displayHelp => "help was asked for"
  | unknownArgument => "unexpected argument found"
  | invalidValue => "a value is required for an argument but none was supplied"
  | valueValidation => "invalid value for an argument"
  | argumentConflict => "an argument cannot be used multiple times"
  | tooManyValues => "unexpected value for an argument found; no more were expected"

/-- What the program says instead of carrying out a command line. -/
def Refusal.message (r : Refusal) : String :=
  match r with
  | displayHelp => help
  | _ =>
    "error: " ++ r.reason ++ "\n\nUsage: stackpulse-demo [OPTIONS]\n\n"
      ++ "For more information, try '--help'.\n"

end Telemetry.CommandLine
