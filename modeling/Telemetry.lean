import Telemetry.Agent
import Telemetry.Breakdown.Entry
import Telemetry.Breakdown.Reservoir
import Telemetry.Breakdown.Store
import Telemetry.Breakdown.Tree
import Telemetry.CommandLine.Args
import Telemetry.CommandLine.Help
import Telemetry.CommandLine.Launch
import Telemetry.CommandLine.Session
import Telemetry.CommandLine.Workload
import Telemetry.Config
import Telemetry.Decimal.Binary64
import Telemetry.Decimal.Layout
import Telemetry.Decimal.Shortest
import Telemetry.Delivery
import Telemetry.Delivery.Backoff
import Telemetry.Delivery.Dispatch
import Telemetry.Delivery.Message
import Telemetry.Delivery.Transport
import Telemetry.Digest
import Telemetry.Digest.Sha256
import Telemetry.Files
import Telemetry.Identity
import Telemetry.Journal
import Telemetry.Json.Basic
import Telemetry.Json.Parser
import Telemetry.Json.Printer
import Telemetry.Json.Record
import Telemetry.Label
import Telemetry.Main
import Telemetry.Metric
import Telemetry.Outlet
import Telemetry.Profile.Basic
import Telemetry.Profile.CallGraph
import Telemetry.Profile.Profiler
import Telemetry.Profile.Settings
import Telemetry.Quantity
import Telemetry.Record
import Telemetry.Reporting.ErrorGroups
import Telemetry.Reporting.ProcessUsage
import Telemetry.Reporting.Segments
import Telemetry.Schedule
import Telemetry.Schedule.Roster
import Telemetry.Simulation.Cadence
import Telemetry.Simulation.Caller
import Telemetry.Simulation.Collector
import Telemetry.Simulation.Courier
import Telemetry.Simulation.Errand
import Telemetry.Simulation.World
import Telemetry.Sorted
import Telemetry.Status
import Telemetry.Text.Blank
import Telemetry.Text.Hex
import Telemetry.Text.Hidden
import Telemetry.Text.Numeral
import Telemetry.Text.Quoted
import Telemetry.Text.Search
import Telemetry.Time
import Telemetry.Proofs.Delivery.Event
import Telemetry.Proofs.Delivery.Ledger
import Telemetry.Proofs.Breakdown.Path
import Telemetry.Proofs.Quantity.Exact
import Telemetry.Proofs.Quantity.Whole
import Telemetry.Proofs.Quantity.Order
import Telemetry.Proofs.Breakdown.Growth
import Telemetry.Proofs.Breakdown.Merge
import Telemetry.Proofs.Breakdown.View
import Telemetry.Proofs.Breakdown.Visit
import Telemetry.Proofs.Breakdown.Sieve
import Telemetry.Proofs.Breakdown.Totals
import Telemetry.Proofs.Breakdown.Percentile
import Telemetry.Proofs.Breakdown.Steps
import Telemetry.Proofs.Breakdown.Evaluation
import Telemetry.Proofs.Profile.Samples
import Telemetry.Proofs.Profile.Folding
import Telemetry.Proofs.Reporting.Queued
import Telemetry.Proofs.Profile.Runs
import Telemetry.Proofs.Profile.Snapshot
import Telemetry.Proofs.Profile.Windows
import Telemetry.Proofs.Reporting.Durations
import Telemetry.Proofs.Reporting.Segments
import Telemetry.Proofs.Reporting.Errors
import Telemetry.Proofs.Json.Canonical
import Telemetry.Proofs.Record.RoundTrip
import Telemetry.Proofs.Agent.Work
import Telemetry.Proofs.Agent.Lifecycle
import Telemetry.Proofs.Agent.Account
import Telemetry.Proofs.Agent.Shutdown
import Telemetry.Proofs.Identity.Hashed
import Telemetry.Proofs.Identity.Labels
import Telemetry.Proofs.Identity.Minted
import Telemetry.Proofs.Delivery.Patience
import Telemetry.Proofs.Delivery.Payload
import Telemetry.Proofs.Reporting.Process
import Telemetry.Proofs.Delivery.Backoff
import Telemetry.Proofs.Delivery.Tick
import Telemetry.Proofs.Profile.Failures
import Telemetry.Proofs.Schedule.Punctual
import Telemetry.Proofs.Agent.Timers
import Telemetry.Proofs.Breakdown.Sampling
import Telemetry.Proofs.Breakdown.Filed
import Telemetry.Proofs.Breakdown.Edits
import Telemetry.Proofs.Breakdown.Branching
import Telemetry.Proofs.Text.Bytes
import Telemetry.Proofs.Breakdown.Picture
import Telemetry.Proofs.Breakdown.Apart
import Telemetry.Proofs.Breakdown.Copy
import Telemetry.Proofs.Reporting.Latest
import Telemetry.Proofs.Text.Lines
import Telemetry.Proofs.Status.Lookup
import Telemetry.Proofs.Delivery.Handover
import Telemetry.Proofs.Reporting.Accounts
import Telemetry.Proofs.Json.Literals
import Telemetry.Proofs.Files.Append
import Telemetry.Proofs.Delivery.Lines
