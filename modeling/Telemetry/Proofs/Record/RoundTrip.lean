import Mathlib.Data.List.Forall2
import Telemetry.Outlet
import Telemetry.Proofs.Breakdown.Path
import Telemetry.Proofs.Json.Canonical

/-!
# Metrics are read as they were written

A metric goes to the queue as the canonical form of its record, and whoever takes it from there
reads the record back. All parts but the measured numbers always survive that. A number that is
infinite or no number at all becomes `null`, and one such number, however deep in a breakdown, makes
the whole metric unreadable: a measurement may be missing, but not be there and be unreadable.

`ReadsBack` says both halves of that for a value: it is read as it was written if a condition holds,
and else not at all. It goes up from breakdowns, where it takes an induction over the tree, through
measurements to metrics.
-/

namespace Telemetry

/-- A value is read from what was written for it if a condition holds, and else nothing is. -/
structure Json.ReadsBack {β : Type} (read? : Json → Option β) (written : Json) (value : β)
    (condition : Prop) : Prop where
  read : condition → read? written = some value
  refused : ¬ condition → read? written = none

theorem Json.ReadsBack.iff {β : Type} {read? : Json → Option β} {written : Json} {value : β}
    {condition : Prop} (h : ReadsBack read? written value condition) :
    ((read? written).isSome ↔ condition) ∧
      ∀ other, read? written = some other → other = value := by
  by_cases hcondition : condition
  · rw [h.read hcondition]
    exact ⟨iff_of_true rfl hcondition, fun other heq => (Option.some.inj heq).symm⟩
  · rw [h.refused hcondition]
    exact ⟨iff_of_false Bool.false_ne_true hcondition, fun other heq => nomatch heq⟩

/-- Only finite doubles are read back. -/
theorem Json.readsBack_float (x : Float) : ReadsBack float? (ofFloat x) x (x.isFinite = true) := by
  refine ⟨fun h => ?_, fun h => ?_⟩
  · rw [float?_ofFloat, if_pos h]
  · rw [float?_ofFloat, if_neg h]

/-- Where a part may be missing, one that is there has to be readable. -/
theorem Json.readsBack_optional {β : Type} {read? : Json → Option β} {write : β → Json}
    {condition : β → Prop} (hnull : ∀ b, write b ≠ .null)
    (h : ∀ b, ReadsBack read? (write b) b (condition b)) (value : Option β) :
    ReadsBack (fun j => optional read? (some j)) (ofOption write value) value
      (∀ b, value = some b → condition b) := by
  cases value with
  | none => exact ⟨fun _ => rfl, fun hnot => absurd (fun _ heq => nomatch heq) hnot⟩
  | some b =>
    refine ⟨fun hall => ?_, fun hnot => ?_⟩
    · rw [optional_ofOption hnull]
      exact congrArg (Option.map some) ((h b).read (hall b rfl))
    · have hcondition : ¬ condition b := by
        intro hcondition
        refine hnot fun other heq => ?_
        rw [← Option.some.inj heq]
        exact hcondition
      rw [optional_ofOption hnull]
      exact congrArg (Option.map some) ((h b).refused hcondition)

/-! ## Breakdowns -/

namespace BreakdownRecord

/-- Breakdowns are taken apart into a node and its children. -/
theorem induction {α : Type} {motive : BreakdownRecord α → Prop}
    (node : ∀ record, (∀ child ∈ record.children, motive child) → motive record) :
    ∀ record, motive record
  | ⟨name, measurement, sampleCount, children⟩ =>
    node ⟨name, measurement, sampleCount, children⟩ fun child _ => induction node child

/-- The measurement of a node is finite, and so are those of all nodes below it. -/
inductive Finite : BreakdownRecord Float → Prop where
  | node {record : BreakdownRecord Float} (measured : record.measurement.isFinite)
      (deeper : ∀ child ∈ record.children, Finite child) : Finite record

theorem listToJson_eq (records : List (BreakdownRecord Float)) :
    listToJson records = records.map toJson := by
  induction records with
  | nil => rw [listToJson]; rfl
  | cons record rest ih => rw [listToJson, ih, List.map_cons]

theorem toJson_eq (record : BreakdownRecord Float) :
    record.toJson
      = .object [("name", .string record.name), ("measurement", Json.ofFloat record.measurement),
          ("sample_count", .ofInt record.sampleCount.toInt),
          ("children", .array (record.children.map toJson))] := by
  cases record
  rw [toJson, listToJson_eq]
  rfl

theorem sorted_toJson_ne_null (record : BreakdownRecord Float) : record.toJson.sorted ≠ .null := by
  rw [toJson_eq, Json.sorted]
  intro h
  cases h

/-- The parts of a breakdown, in the order in which they are read. -/
theorem record?_toJson (record : BreakdownRecord Float) :
    Json.record? fieldNames record.toJson.sorted
      = some [some (.string record.name), some (Json.ofFloat record.measurement),
          some (.ofInt record.sampleCount.toInt),
          some (.array (record.children.map fun child => child.toJson.sorted))] := by
  rw [toJson_eq]
  refine (Json.record?_sorted (by decide : fieldNames.Nodup) rfl).trans ?_
  simp only [List.map_cons, List.map_nil, Json.sorted_string, Json.sorted_ofFloat,
    Json.sorted_ofInt, Json.sorted_array, List.map_map]
  rfl

/-- How a breakdown is read from its parts. -/
theorem ofJson?_of_record? {j : Json} {name measurement sampleCount : Option Json}
    {elements : List Json}
    (h : Json.record? fieldNames j
      = some [name, measurement, sampleCount, some (.array elements)]) :
    ofJson? j = do
      let name ← Json.required Json.string? name
      let measurement ← Json.required Json.float? measurement
      let sampleCount ← Json.required Json.int64? sampleCount
      let children ← elements.mapM ofJson?
      return { name, measurement, sampleCount, children } := by
  have hattach : (elements.attach.mapM fun element => ofJson? element.1)
      = elements.mapM ofJson? := by
    have hcomp : (fun element : { e // e ∈ elements } => ofJson? element.1)
        = ofJson? ∘ Subtype.val := rfl
    rw [hcomp, ← List.mapM_map, List.attach_map_subtype_val]
  rw [ofJson?, ← hattach]
  split
  · rename_i h'
    rw [h] at h'
    cases h'
    rfl
  · rename_i hother
    exact absurd h (hother name measurement sampleCount elements)

theorem ofJson?_toJson (record : BreakdownRecord Float) :
    ofJson? record.toJson.sorted = do
      let measurement ← Json.float? (Json.ofFloat record.measurement)
      let children ← record.children.mapM fun child => ofJson? child.toJson.sorted
      return { record with measurement, children } := by
  rw [ofJson?_of_record? (record?_toJson record), List.mapM_map]
  simp only [Json.required, Option.bind_some, Json.string?, Json.int64?_ofInt]
  rfl

/-- A breakdown is read as it was written if every number in it is finite. -/
theorem readsBack (record : BreakdownRecord Float) :
    Json.ReadsBack ofJson? record.toJson.sorted record record.Finite := by
  induction record using induction with
  | node record ih =>
    refine ⟨?_, fun hnot => ?_⟩
    · rintro ⟨measured, deeper⟩
      have hchildren : (record.children.mapM fun child => ofJson? child.toJson.sorted)
          = some (record.children.map id) :=
        Json.mapM_eq_some_of_forall fun child hmem => (ih child hmem).read (deeper child hmem)
      rw [ofJson?_toJson, (Json.readsBack_float _).read measured, hchildren, List.map_id]
      cases record
      rfl
    · rw [ofJson?_toJson]
      by_cases measured : record.measurement.isFinite
      · -- then some child is not finite, and its siblings do not help
        have hsome : ¬ ∀ child ∈ record.children, child.Finite := fun hall =>
          hnot (.node measured hall)
        obtain ⟨child, hchild⟩ := Classical.not_forall.mp hsome
        obtain ⟨hmem, hchild⟩ := Classical.not_imp.mp hchild
        rw [(Json.readsBack_float _).read measured,
          Json.mapM_eq_none_of_mem hmem ((ih child hmem).refused hchild)]
        rfl
      · rw [(Json.readsBack_float _).refused measured]
        rfl

end BreakdownRecord

/-! ## Measurements -/

namespace MeasurementRecord

/-- The value is finite, and so is every measurement of the breakdown, if there is one. -/
structure Finite (m : MeasurementRecord Float) : Prop where
  value : m.value.isFinite
  breakdown : ∀ b, m.breakdown = some b → b.Finite

theorem sorted_toJson_ne_null (m : MeasurementRecord Float) : m.toJson.sorted ≠ .null := by
  rw [toJson, Json.sorted]
  intro h
  cases h

theorem record?_toJson (m : MeasurementRecord Float) :
    Json.record? fieldNames m.toJson.sorted
      = some [some (.string m.id), some (.string m.trigger.text), some (Json.ofFloat m.value),
          some (.ofNat m.duration.toNat),
          some (Json.ofOption (fun b => b.toJson.sorted) m.breakdown),
          some (.ofNat m.timestamp.toNat)] := by
  rw [toJson]
  refine (Json.record?_sorted (by decide : fieldNames.Nodup) rfl).trans ?_
  simp only [List.map_cons, List.map_nil, Json.sorted_string, Json.sorted_ofNat,
    Json.sorted_ofOption]
  rw [← Json.sorted_ofFloat]
  rfl

theorem ofJson?_toJson (m : MeasurementRecord Float) :
    ofJson? m.toJson.sorted = do
      let value ← Json.float? (Json.ofFloat m.value)
      let breakdown ← Json.optional BreakdownRecord.ofJson?
        (some (Json.ofOption (fun b => b.toJson.sorted) m.breakdown))
      return { m with value, breakdown } := by
  rw [ofJson?, record?_toJson]
  simp only [Json.required, Option.bind_some, Json.string?, Json.label?, Trigger.ofText?_text,
    Json.uint64?_ofNat]
  rfl

/-- A measurement is read as it was written if every number in it is finite. -/
theorem readsBack (m : MeasurementRecord Float) :
    Json.ReadsBack ofJson? m.toJson.sorted m m.Finite := by
  have hvalue := Json.readsBack_float m.value
  have hbreakdown := Json.readsBack_optional BreakdownRecord.sorted_toJson_ne_null
    BreakdownRecord.readsBack m.breakdown
  refine ⟨?_, fun hnot => ?_⟩
  · rintro ⟨value, breakdown⟩
    rw [ofJson?_toJson, hvalue.read value]
    exact congrArg (Option.bind · _) (hbreakdown.read breakdown)
  · rw [ofJson?_toJson]
    by_cases value : m.value.isFinite
    · rw [hvalue.read value]
      exact congrArg (Option.bind · _)
        (hbreakdown.refused fun breakdown => hnot ⟨value, breakdown⟩)
    · rw [hvalue.refused value]
      rfl

end MeasurementRecord

/-! ## Metrics -/

namespace MetricRecord

/-- There is no measurement, or every number in it is finite. -/
def Finite (r : MetricRecord Float) : Prop := ∀ m, r.measurement = some m → m.Finite

theorem record?_toJson (r : MetricRecord Float) :
    Json.record? fieldNames r.toJson.sorted
      = some [some (.string r.id), some (.string r.kind.text), some (.string r.category.text),
          some (.string r.name), some (.string r.unit.text),
          some (Json.ofOption (fun m => m.toJson.sorted) r.measurement)] := by
  rw [toJson]
  refine (Json.record?_sorted (by decide : fieldNames.Nodup) rfl).trans ?_
  simp only [List.map_cons, List.map_nil, Json.sorted_string, Json.sorted_ofOption]

theorem ofJson?_toJson (r : MetricRecord Float) :
    ofJson? r.toJson.sorted = do
      let measurement ← Json.optional MeasurementRecord.ofJson?
        (some (Json.ofOption (fun m => m.toJson.sorted) r.measurement))
      return { r with measurement } := by
  rw [ofJson?, record?_toJson]
  simp only [Json.required, Option.bind_some, Json.string?, Json.label?, MetricKind.ofText?_text,
    Category.ofText?_text, MeasureUnit.ofText?_text]
  rfl

/-- A metric is read as it was written if every number in it is finite. -/
theorem readsBack (r : MetricRecord Float) :
    Json.ReadsBack ofJson? r.toJson.sorted r r.Finite := by
  have hmeasurement := Json.readsBack_optional MeasurementRecord.sorted_toJson_ne_null
    MeasurementRecord.readsBack r.measurement
  refine ⟨fun finite => ?_, fun hnot => ?_⟩
  · rw [ofJson?_toJson]
    exact congrArg (Option.bind · _) (hmeasurement.read finite)
  · rw [ofJson?_toJson]
    exact congrArg (Option.bind · _) (hmeasurement.refused hnot)

end MetricRecord

/-! ## What a record shows -/

section Shown

variable {α : Type}

/-- A picture shows a tree: each node with all that it holds apart from what it has observed, and the
nodes below it in their order. -/
inductive Tree.ShownBy : Tree α → BreakdownRecord α → Prop where
  | node {entry : Entry α} {children : List (Tree α)} {pictures : List (BreakdownRecord α)}
      (below : List.Forall₂ Tree.ShownBy children pictures) :
    Tree.ShownBy (.node entry children)
      { name := entry.name, measurement := entry.measurement, sampleCount := entry.sampleCount
        children := pictures }

theorem Tree.shownBy_toRecord (t : Tree α) : t.ShownBy t.toRecord := by
  induction t using Tree.induction with
  | node entry children ih =>
    rw [Tree.toRecord_node]
    exact .node (List.forall₂_map_right_iff.mpr (List.forall₂_same.mpr ih))

/-- A record shows an observation, together with its breakdown if there is one. -/
structure Measurement.ShownBy (o : Measurement α (Tree α)) (r : MeasurementRecord α) : Prop where
  id : r.id = o.id.text
  trigger : r.trigger = o.trigger
  value : r.value = o.value
  duration : r.duration = o.duration
  timestamp : r.timestamp = o.timestamp.seconds
  breakdown : Option.Rel Tree.ShownBy o.breakdown r.breakdown

/-- A record shows a metric, together with its latest observation if there is one. -/
structure Metric.ShownBy (m : Metric α (Tree α)) (r : MetricRecord α) : Prop where
  id : r.id = m.id.text
  kind : r.kind = m.kind
  category : r.category = m.category
  name : r.name = m.name
  unit : r.unit = m.unit
  measurement : Option.Rel Measurement.ShownBy m.measurement r.measurement

/-- The record of a metric shows it. -/
theorem Metric.shownBy_toRecord (m : Metric α (Tree α)) :
    m.ShownBy (m.toRecord fun tree => some tree.toRecord) := by
  have hbreakdown (breakdown : Option (Tree α)) :
      Option.Rel Tree.ShownBy breakdown (breakdown.bind fun tree => some tree.toRecord) := by
    cases breakdown with
    | none => exact .none
    | some tree => exact .some tree.shownBy_toRecord
  refine ⟨rfl, rfl, rfl, rfl, rfl, ?_⟩
  rw [toRecord]
  cases m.measurement with
  | none => exact .none
  | some o => exact .some ⟨rfl, rfl, rfl, rfl, rfl, hbreakdown o.breakdown⟩

end Shown

/-! ## The queue -/

namespace Outlet

/-- A metric without a measurement is not queued, and any other is, with no other change. -/
theorem emit_eq {α : Type} [Quantity α] (o : Outlet) (now : UnixTime) (m : Metric α (Tree α)) :
    o.emit now m
      = if m.measurement.isSome then
          (true, { o with
            delivery := o.delivery.enqueue now metricTopic
              (m.toRecord fun tree => some tree.toRecord).toJson })
        else (false, o) := by
  rw [emit]
  cases m.measurement <;> rfl

/-- A metric is queued just if it holds a measurement, as a record that shows it. What is queued for
a record is one message, and nothing else changes. A record can be read from its content just if
there is no measurement in the record or all its numbers are finite, those of the breakdown
included; and then it is the record that was queued. -/
theorem queued_as_observed :
    (∀ (o : Outlet) (now : UnixTime) (m : Metric Float (Tree Float)),
      (m.measurement = none → o.emit now m = (false, o)) ∧
      (m.measurement.isSome →
        let record := m.toRecord fun tree => some tree.toRecord
        m.ShownBy record ∧
          o.emit now m
            = (true, { o with delivery := o.delivery.enqueue now "metric" record.toJson }))) ∧
    ∀ (d : Delivery) (now : UnixTime) (topic : String) (r : MetricRecord Float), ∃ content,
      d.enqueue now topic r.toJson
          = { d with
              dispatch := { d.dispatch with
                queue := d.pending ++ [{ topic, body := .structured content, addedAt := now }] } } ∧
        ((MetricRecord.ofJson? content).isSome ↔ r.Finite) ∧
        ∀ other, MetricRecord.ofJson? content = some other → other = r := by
  refine ⟨fun o now m => ⟨fun hnone => ?_, fun hsome => ?_⟩, fun d now topic r => ?_⟩
  · rw [emit_eq, hnone]
    rfl
  · refine ⟨m.shownBy_toRecord, ?_⟩
    rw [emit_eq, if_pos hsome]
    rfl
  · obtain ⟨hiff, hequal⟩ := (MetricRecord.readsBack r).iff
    exact ⟨r.toJson.sorted, rfl, hiff, hequal⟩

end Outlet

end Telemetry
