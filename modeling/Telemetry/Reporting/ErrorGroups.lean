import Telemetry.Outlet

/-!
# Errors

Errors are counted in groups by their message. A report queues one metric for each group seen since
the last report, whose value is the number of errors in the group and whose breakdown splits it by
message.
-/

namespace Telemetry

/-- Errors counted by group and message. -/
structure ErrorGroups (α : Type) where
  /-- the current window: groups below the root, messages below their group -/
  window : Tree α

namespace ErrorGroups

variable {α : Type} [Quantity α]

/-- The name of the schedule of error reports. -/
def scheduleName : String := "errors"

/-- The group of errors that were dealt with. -/
def handledExceptions : String := "Handled exceptions"

/-- The group of panics that were caught. -/
def recoveredPanics : String := "Recovered panics"

/-- The group of panics that were not caught. -/
def unrecoveredPanics : String := "Unrecovered panics"

/-- No errors so far. -/
def empty : ErrorGroups α := ⟨Tree.root⟩

/-- Count an error. -/
def record (e : ErrorGroups α) (group message : String) : ErrorGroups α :=
  ⟨e.window.incrementAt [group, message] (Quantity.ofInt 1) 1⟩

/-- The breakdown reported for a group. -/
def breakdown (group : Tree α) : Tree α :=
  ((Tree.root : Tree α).put group).rollup

/-- Queue the metric of one group. -/
def reportGroup (o : Outlet) (moment : Moment) (group : Tree α) : Bool × Outlet :=
  let metric := o.metric .state .errorProfile group.name .none
  let duration := UInt64.ofNat o.config.timings.errorInterval.toSeconds
  let (queued, _, o) := o.report moment metric duration (breakdown group)
  (queued, o)

/-- Queue the metrics of a list of groups. Returns the number queued. -/
def reportAll (moment : Moment) : List (Tree α) → Outlet → Nat × Outlet
  | [], o => (0, o)
  | group :: rest, o =>
    let (queued, o) := reportGroup o moment group
    let (others, o) := reportAll moment rest o
    ((if queued then 1 else 0) + others, o)

/-- Queue one metric for each group and start a new window. Returns the number queued. -/
def report (e : ErrorGroups α) (o : Outlet) (moment : Moment) : Nat × ErrorGroups α × Outlet :=
  let (emitted, o) := reportAll moment e.window.children o
  let o :=
    if emitted = 0 then o else o.info ("Reported " ++ toString emitted ++ " error groups")
  (emitted, empty, o)

end ErrorGroups

end Telemetry
