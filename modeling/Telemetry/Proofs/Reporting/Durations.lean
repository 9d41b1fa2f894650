import Telemetry.Reporting.Segments
import Telemetry.Proofs.Breakdown.Path
import Telemetry.Proofs.Breakdown.Percentile
import Telemetry.Proofs.Reporting.Queued

/-!
# Durations of one segment

An entry of a window has been offered the durations of one name, one after the other. However many
these are, the entry counts them all, and there is always a percentile of those it holds
(`isSome_percentile?_offers`). So the metric of an entry is known: the percentile becomes the
measurement of its only child, and the root adds the child to nothing (`shows_breakdown`).
-/

namespace Telemetry

variable {α : Type}

/-- A duration that was recorded. -/
structure Timing (α : Type) where
  /-- the segment it belongs to -/
  name : String
  duration : α
  /-- the place drawn for it in the reservoir -/
  slot : Nat

/-- The segment and the duration, whatever place was drawn. -/
def Timing.call (timing : Timing α) : String × α := (timing.name, timing.duration)

/-! ## Percentiles -/

namespace Reservoir

/-- A reservoir that was offered durations. -/
def offers (timings : List (Timing α)) : Reservoir α :=
  timings.foldl (fun r timing => r.offer timing.duration timing.slot) .empty

/-- An offer leaves something in a reservoir, whatever the draw. -/
theorem size_offer_pos (r : Reservoir α) (value : α) (slot : Nat) :
    0 < (r.offer value slot).size := by
  rw [size_offer]
  by_cases hroom : r.size < capacity
  · rw [if_pos hroom]
    exact Nat.succ_pos _
  · rw [if_neg hroom]
    exact Nat.lt_of_lt_of_le (by decide : 0 < capacity) (Nat.le_of_not_lt hroom)

/-- A segment that was timed has a percentile. -/
theorem size_offers_pos {timings : List (Timing α)} (hne : timings ≠ []) :
    0 < (offers timings).size := by
  -- once something is held, offers never empty the reservoir
  obtain ⟨first, rest, rfl⟩ := List.exists_cons_of_ne_nil hne
  exact List.foldlRecOn (motive := fun r => 0 < r.size) rest _
    (size_offer_pos empty first.duration first.slot)
    fun r _ timing _ => size_offer_pos r timing.duration timing.slot

end Reservoir

/-! ## Entries -/

namespace Entry

variable [Quantity α]

/-- The entry of a name after durations were added to it. -/
def observed (name : String) (timings : List (Timing α)) : Entry α :=
  timings.foldl (fun entry timing => entry.observe timing.duration timing.slot) (fresh name)

theorem observed_append (name : String) (timings : List (Timing α)) (timing : Timing α) :
    observed name (timings ++ [timing])
      = (observed name timings).observe timing.duration timing.slot :=
  List.foldl_append

/-- An entry counts its durations and offers them to its reservoir, and no more. -/
theorem observed_eq (name : String) (timings : List (Timing α)) :
    observed name timings
      = { fresh name with
          sampleCount := Int64.ofNat timings.length
          reservoir := Reservoir.offers timings } := by
  suffices hfrom : ∀ entry : Entry α,
      timings.foldl (fun entry timing => entry.observe timing.duration timing.slot) entry
        = { entry with
            sampleCount := entry.sampleCount + Int64.ofNat timings.length
            reservoir := timings.foldl (fun r timing => r.offer timing.duration timing.slot)
              entry.reservoir } by
    rw [observed, hfrom]
    congr 1
    exact Int64.zero_add _
  induction timings with
  | nil =>
    intro entry
    rw [List.length_nil]
    exact congrArg (fun count => { entry with sampleCount := count }) (Int64.add_zero _).symm
  | cons timing rest ih =>
    intro entry
    rw [List.foldl_cons, ih, List.length_cons, Int64.ofNat_add, Int64.add_comm (Int64.ofNat _),
      ← Int64.add_assoc]
    rfl

/-- Nothing to evaluate leaves a measurement as it is. -/
theorem evaluate_fresh (name : String) : (fresh name : Entry α).evaluate = fresh name := by
  have hnone : (fresh name : Entry α).reservoir.percentile? = none := Reservoir.percentile?_empty
  rw [evaluate, hnone]

end Entry

/-! ## Metrics -/

namespace Segments

variable [Quantity α]

/-- What is reported of an entry that has a percentile. -/
theorem breakdown_eq {entry : Entry α} {value : α}
    (h : entry.reservoir.percentile? = some value) :
    breakdown entry
      = .node ((Entry.fresh Tree.rootName).increment value entry.sampleCount)
          [.node { entry with measurement := value, reservoir := .empty } []] := by
  have hput : (Tree.root : Tree α).put (.node entry [])
      = .node (Entry.fresh Tree.rootName) [.node entry []] := rfl
  rw [breakdown, hput, Tree.evaluate, Tree.map_node, Entry.evaluate_fresh, Tree.rollup_node,
    List.map_singleton, Tree.map_node, Entry.evaluate_of_percentile? h, List.map_nil,
    List.map_singleton, Tree.rollup_node]
  rfl

/-- The picture of some durations of a segment with a percentile: a root with a single child, which
is named after the segment. Both count all durations. The percentile is what the child measures, and
the root adds it to nothing. -/
def picture (name : String) (timings : List (Timing α)) (value : α) : BreakdownRecord α :=
  { name := Tree.rootName
    measurement := 0 + value
    sampleCount := Int64.ofNat timings.length
    children :=
      [{ name, measurement := value, sampleCount := Int64.ofNat timings.length, children := [] }] }

/-- The breakdown of a segment is a root with one child, both showing the percentile. -/
theorem toRecord_breakdown_observed (name : String) {timings : List (Timing α)} {value : α}
    (h : (Reservoir.offers timings).percentile? = some value) :
    (breakdown (Entry.observed name timings)).toRecord = picture name timings value := by
  have hentry : (Entry.observed name timings).reservoir.percentile? = some value := by
    rw [Entry.observed_eq]
    exact h
  rw [breakdown_eq hentry, Tree.toRecord_node, List.map_singleton, Tree.toRecord_node,
    Entry.observed_eq, picture, List.map_nil]
  congr 1
  exact Int64.zero_add _

/-- The record of a metric shows the durations of one segment: the percentile of those that are
held, with the picture that belongs to it. -/
structure Shows (timings : List (Timing α)) (record : MetricRecord α) : Prop where
  kind : record.kind = .trace
  category : record.category = .segmentTrace
  unit : record.unit = .millisecond
  observed : ∃ observation value,
    record.measurement = some observation ∧
    (Reservoir.offers timings).percentile? = some value ∧
    observation.value = 0 + value ∧
    observation.breakdown = some (picture record.name timings value)

/-- The metric of a segment. -/
def metricOf (config : Config) (name : String) : Metric α (Tree α) :=
  Metric.create config .trace .segmentTrace name .millisecond

/-- The length of a window, in seconds. -/
def windowLength (config : Config) : UInt64 :=
  UInt64.ofNat config.timings.segmentInterval.toSeconds

/-- The record queued for an entry. -/
def pictured (config : Config) (moment : Moment) (mint : Mint) (entry : Entry α) :
    MetricRecord α :=
  (metricOf config entry.name).pictured mint moment (windowLength config) (breakdown entry)

/-- What is queued for a segment shows its timings, as there is at least one of them. -/
theorem shows_pictured (config : Config) (moment : Moment) (mint : Mint) (name : String)
    {timings : List (Timing α)} (hne : timings ≠ []) :
    Shows timings (pictured config moment mint (Entry.observed name timings)) := by
  obtain ⟨value, hvalue⟩ := Option.isSome_iff_exists.mp
    (Reservoir.isSome_percentile? (Reservoir.size_offers_pos hne))
  have hpicture := toRecord_breakdown_observed name hvalue
  have hname : (Entry.observed name timings).name = name := by
    rw [Entry.observed_eq]
    rfl
  refine ⟨rfl, rfl, rfl, _, value, rfl, hvalue, ?_, ?_⟩
  · exact (Tree.measurement_toRecord _).symm.trans (congrArg BreakdownRecord.measurement hpicture)
  · exact congrArg some (hpicture.trans (congrArg (picture · timings value) hname.symm))

end Segments

end Telemetry
