import Telemetry.Outlet

/-!
# Segments

A segment is a named stretch of work whose duration is measured each time it runs. Durations are
collected in windows: a report takes the window away and queues one metric for each name in it, with
the percentile of its durations.

Apart from the windows, the latest duration of each name is kept until it is asked for. A duration
that is not a number is as good as none there.

A duration is added in two stages, so that many can be added at a time. `look` changes nothing but
what is there already, and is the end of it if the name has both an entry in the window and a place
for its latest duration. Otherwise `insert` makes what is missing; it is told whether the duration is
in the window already.
-/

namespace Telemetry

/-- The durations of named segments. -/
structure Segments (α : Type) where
  /-- the current window: an entry for each name, in the order of names -/
  window : List (Entry α) := []
  /-- every name ever seen with its latest duration, or nothing once that was asked for -/
  latest : List (String × Option α) := []

namespace Segments

variable {α : Type} [Quantity α]

/-- The name of the schedule of segment reports. -/
def scheduleName : String := "segments"

/-- Add a duration to the entry of a name, which is made if it is missing. `slot` is the place drawn
in the reservoir. -/
def feed (s : Segments α) (name : String) (duration : α) (slot : Nat) : Segments α :=
  { s with
    window := Sorted.amend Entry.name name
      (fun entry => (entry.getD (Entry.fresh name)).observe duration slot) s.window }

omit [Quantity α] in
/-- Keep the latest duration of a name. -/
def remember (s : Segments α) (name : String) (duration : α) : Segments α :=
  { s with latest := Sorted.put Prod.fst (name, some duration) s.latest }

/-- How far a duration has come with what was there already. -/
inductive Look (α : Type) where
  /-- it has been added -/
  | done (s : Segments α)
  /-- something is missing; `fed` says whether the duration is in the window already -/
  | missed (fed : Bool) (s : Segments α)

/-- Add a duration as far as that takes nothing new. -/
def look (s : Segments α) (name : String) (duration : α) (slot : Nat) : Look α :=
  match Sorted.find? Entry.name name s.window with
  | some _ =>
    let fed := s.feed name duration slot
    match Sorted.find? Prod.fst name s.latest with
    | some _ => .done (fed.remember name duration)
    | none => .missed true fed
  | none => .missed false s

/-- Add a duration and make what is missing for that. -/
def insert (s : Segments α) (fed : Bool) (name : String) (duration : α) (slot : Nat) :
    Segments α :=
  let s := if fed then s else s.feed name duration slot
  s.remember name duration

/-- Add a duration in milliseconds to the current window. -/
def add (s : Segments α) (name : String) (duration : α) (slot : Nat) : Segments α :=
  match s.look name duration slot with
  | .done s => s
  | .missed fed s => s.insert fed name duration slot

/-- Record the duration of a segment. A segment without a name is ignored. -/
def record (s : Segments α) (o : Outlet) (name : String) (duration : α) (slot : Nat) :
    Segments α × Outlet :=
  if name.isEmpty then (s, o.info "Ignoring segment with empty name")
  else (s.add name duration slot, o)

/-- How many durations of a segment were recorded in the current window. The next slot is drawn from
these and one more. -/
def offered (s : Segments α) (name : String) : Nat :=
  match Sorted.find? Entry.name name s.window with
  | some entry => entry.reservoir.offered
  | none => 0

/-- The breakdown reported for an entry of a window. -/
def breakdown (entry : Entry α) : Tree α :=
  ((Tree.root : Tree α).put (.node entry [])).evaluate.rollup

/-- Queue the metric of one entry. -/
def reportEntry (o : Outlet) (moment : Moment) (entry : Entry α) : Bool × Outlet :=
  let metric := o.metric .trace .segmentTrace entry.name .millisecond
  let duration := UInt64.ofNat o.config.timings.segmentInterval.toSeconds
  let (queued, _, o) := o.report moment metric duration (breakdown entry)
  (queued, o)

/-- Queue the metrics of a list of entries. Returns the number queued. -/
def reportAll (moment : Moment) : List (Entry α) → Outlet → Nat × Outlet
  | [], o => (0, o)
  | entry :: rest, o =>
    let (queued, o) := reportEntry o moment entry
    let (others, o) := reportAll moment rest o
    ((if queued then 1 else 0) + others, o)

/-- Queue one metric for each name in the window and start a new window. Returns the number queued.
-/
def report (s : Segments α) (o : Outlet) (moment : Moment) : Nat × Segments α × Outlet :=
  let (emitted, o) := reportAll moment s.window o
  let o := o.info ("Reported " ++ toString emitted ++ " segment metrics")
  (emitted, { s with window := [] }, o)

/-- The latest duration of each segment recorded since this was last asked. -/
def takeLatest (s : Segments α) : List (String × α) × Segments α :=
  let taken := s.latest.filterMap fun (name, duration) =>
    match duration with
    | some duration => if Quantity.isNumber duration then some (name, duration) else none
    | none => none
  (taken, { s with latest := s.latest.map fun (name, _) => (name, none) })

end Segments

end Telemetry
