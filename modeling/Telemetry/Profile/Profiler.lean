import Telemetry.Outlet
import Telemetry.Profile.CallGraph
import Telemetry.Profile.Settings

/-!
# Profilers

A profiler turns profiles into metrics. Windows are folded into one pending tree as they are
recorded; a report takes that tree, or in snapshot mode the call graph of a profile read for it,
finishes it and queues it.

Reading a source is left to whoever runs the profiler. `record` and `report` are given what came of
it, and an operation that fails changes nothing.
-/

namespace Telemetry

/-- A profiler at work. -/
structure Profiler (α : Type) where
  settings : ProfilerSettings α
  metric : Metric α (Tree α)
  /-- the windows recorded since the last report, added up -/
  pending : Tree α
  /-- how many windows these are -/
  windows : UInt32

namespace Profiler

variable {α : Type} [Quantity α]

/-- A profiler that has recorded nothing. -/
def create (o : Outlet) (settings : ProfilerSettings α) : Profiler α :=
  { settings
    metric := o.metric .profile settings.category settings.name settings.unit
    pending := Tree.root, windows := 0 }

/-- The call graph of a profile by the columns of a profiler. -/
def callGraph (p : Profiler α) (reading : Except ProfileError Profile) :
    Except ProfileError (Tree α) :=
  reading.bind fun profile =>
    CallGraph.ofProfile profile p.settings.valueKind p.settings.countKind

/-- Add a window. -/
def record (p : Profiler α) (reading : Except ProfileError Profile) :
    Except ProfileError (Profiler α) :=
  (p.callGraph reading).map fun window =>
    { p with pending := p.pending.merge window, windows := p.windows + 1 }

/-- Convert the values of a tree as the settings say. -/
def convert (s : ProfilerSettings α) (processors : Nat) (t : Tree α) : Tree α :=
  match s.scale, s.mode with
  | .factor f, _ => t.scale f
  | .cpuPercent, .windowed _ duration =>
    let capacity : α := Quantity.ofInt duration.nanos * Quantity.ofInt processors
    if Quantity.isPositive capacity then t.percentOf capacity else t
  | .cpuPercent, .snapshot => t
  | .absolute, _ => t

/-- What is reported of a tree that stands for a number of windows: without the agent's own frames
unless they are wanted, with every node holding the sum of its subtree, averaged over the windows,
converted, and last of all filtered. -/
def finish (s : ProfilerSettings α) (profileAgent : Bool) (processors windows : Nat)
    (t : Tree α) : Tree α :=
  let t := if profileAgent then t else t.filterNames fun label => !isAgentFrame label
  let t := t.rollup
  let t := if 1 < windows then t.average (Quantity.ofInt windows) else t
  let t := convert s processors t
  match s.filter with
  | some f => t.filterValues f
  | none => t

/-- Queue a finished tree. -/
def queueTree (p : Profiler α) (o : Outlet) (moment : Moment) (windows : Nat) (t : Tree α) :
    Bool × Profiler α × Outlet :=
  let duration := UInt64.ofNat p.settings.reportInterval.toSeconds
  let (queued, metric, o) := o.report moment p.metric duration t
  let o := o.info ("Reported " ++ p.settings.name ++ " profile over " ++ toString windows
    ++ " window(s)")
  (queued, { p with metric }, o)

/-- Finish what there is to report and queue it. `reading` is looked at only in snapshot mode.
Returns whether something was queued; there is nothing to queue if no window has been recorded. -/
def report (p : Profiler α) (o : Outlet) (moment : Moment) (processors : Nat)
    (reading : Except ProfileError Profile) :
    Except ProfileError (Bool × Profiler α × Outlet) :=
  let finished := finish p.settings o.config.profileAgent processors
  match p.settings.mode with
  | .snapshot =>
    (p.callGraph reading).map fun t => p.queueTree o moment 1 (finished 1 t)
  | .windowed _ _ =>
    let taken := { p with pending := Tree.root, windows := 0 }
    if p.windows = 0 then .ok (false, taken, o)
    else
      let windows := p.windows.toNat
      .ok (taken.queueTree o moment windows (finished windows p.pending))

end Profiler

end Telemetry
