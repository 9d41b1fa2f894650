import Telemetry.Json.Record
import Telemetry.Label
import Telemetry.Quantity

/-!
# Records on the wire

The plain data exchanged with a collector: breakdown trees, measurements, metrics, and the upload
that carries a batch of messages. Each record has a `toJson` with its fields in the order in which
they are declared, and a reader `ofJson?` that accepts objects and arrays by the rules of
`Telemetry.Json.Record`.

Metrics are generic in the numbers they measure with; reading is for doubles, which is what
documents hold.
-/

namespace Telemetry

/-- A finished breakdown tree. -/
structure BreakdownRecord (α : Type) where
  name : String
  measurement : α
  sampleCount : Int64
  children : List (BreakdownRecord α)

/-- One observation of a metric. -/
structure MeasurementRecord (α : Type) where
  id : String
  trigger : Trigger
  value : α
  /-- the length of the window observed, in seconds -/
  duration : UInt64
  breakdown : Option (BreakdownRecord α)
  /-- the time of the observation, in seconds -/
  timestamp : UInt64

/-- A metric and its latest observation. -/
structure MetricRecord (α : Type) where
  id : String
  kind : MetricKind
  category : Category
  name : String
  unit : MeasureUnit
  measurement : Option (MeasurementRecord α)

/-- One queued message as it appears in an upload. -/
structure MessageRecord where
  topic : String
  content : Json

/-- A batch of messages. -/
structure Payload where
  messages : List MessageRecord
  /-- the label lists of the flattened messages, one after the other -/
  labels : List String

/-- A batch with the fields that describe the sending process. -/
structure UploadRequest where
  runtimeType : String
  agentVersion : String
  appName : String
  appVersion : String
  appEnvironment : String
  hostName : String
  processId : String
  buildId : String
  runId : String
  runTime : UInt64
  sentAt : UInt64
  payload : Payload

/-! ## Writing -/

section Encoding

variable {α : Type} [Quantity α]

mutual

/-- A breakdown as an object. -/
def BreakdownRecord.toJson : BreakdownRecord α → Json
  | { name, measurement, sampleCount, children } =>
    .object [("name", .string name), ("measurement", Quantity.toJson measurement),
      ("sample_count", .ofInt sampleCount.toInt),
      ("children", .array (BreakdownRecord.listToJson children))]

/-- Breakdowns as objects. -/
def BreakdownRecord.listToJson : List (BreakdownRecord α) → List Json
  | [] => []
  | record :: rest => record.toJson :: BreakdownRecord.listToJson rest

end

/-- A measurement as an object. -/
def MeasurementRecord.toJson (m : MeasurementRecord α) : Json :=
  .object [("id", .string m.id), ("trigger", .string m.trigger.text),
    ("value", Quantity.toJson m.value), ("duration", .ofNat m.duration.toNat),
    ("breakdown", Json.ofOption BreakdownRecord.toJson m.breakdown),
    ("timestamp", .ofNat m.timestamp.toNat)]

/-- A metric as an object. -/
def MetricRecord.toJson (m : MetricRecord α) : Json :=
  .object [("id", .string m.id), ("type", .string m.kind.text),
    ("category", .string m.category.text), ("name", .string m.name),
    ("unit", .string m.unit.text),
    ("measurement", Json.ofOption MeasurementRecord.toJson m.measurement)]

end Encoding

/-- A message as an object. -/
def MessageRecord.toJson (m : MessageRecord) : Json :=
  .object [("topic", .string m.topic), ("content", m.content)]

/-- A payload as an object. -/
def Payload.toJson (p : Payload) : Json :=
  .object [("messages", .array (p.messages.map MessageRecord.toJson)),
    ("labels", .array (p.labels.map .string))]

/-- An upload as an object. -/
def UploadRequest.toJson (r : UploadRequest) : Json :=
  .object [("runtime_type", .string r.runtimeType), ("agent_version", .string r.agentVersion),
    ("app_name", .string r.appName), ("app_version", .string r.appVersion),
    ("app_environment", .string r.appEnvironment), ("host_name", .string r.hostName),
    ("process_id", .string r.processId), ("build_id", .string r.buildId),
    ("run_id", .string r.runId), ("run_ts", .ofNat r.runTime.toNat),
    ("sent_at", .ofNat r.sentAt.toNat), ("payload", r.payload.toJson)]

/-! ## Reading -/

namespace BreakdownRecord

/-- The names of the fields. -/
def fieldNames : List String := ["name", "measurement", "sample_count", "children"]

/-- The breakdown that a value writes. -/
def ofJson? (j : Json) : Option (BreakdownRecord Float) :=
  match h : Json.record? fieldNames j with
  | some [name, measurement, sampleCount, some (.array elements)] => do
    let name ← Json.required Json.string? name
    let measurement ← Json.required Json.float? measurement
    let sampleCount ← Json.required Json.int64? sampleCount
    let children ← elements.attach.mapM fun ⟨element, hmem⟩ =>
      have : sizeOf element < sizeOf j := by
        have hlist := @Json.sizeOf_of_record? _ _ (.array elements) _ h (by simp)
        have helement := List.sizeOf_lt_of_mem hmem
        simp only [Json.array.sizeOf_spec] at hlist
        omega
      ofJson? element
    return { name, measurement, sampleCount, children }
  | _ => none
termination_by sizeOf j

/-- The direct child with a name. -/
def child? {α : Type} (record : BreakdownRecord α) (name : String) : Option (BreakdownRecord α) :=
  record.children.find? (·.name == name)

end BreakdownRecord

/-- The names of the fields of a measurement. -/
def MeasurementRecord.fieldNames : List String :=
  ["id", "trigger", "value", "duration", "breakdown", "timestamp"]

/-- The measurement that a value writes. -/
def MeasurementRecord.ofJson? (j : Json) : Option (MeasurementRecord Float) :=
  match Json.record? fieldNames j with
  | some [id, trigger, value, duration, breakdown, timestamp] => do
    let id ← Json.required Json.string? id
    let trigger ← Json.required (Json.label? Trigger.ofText?) trigger
    let value ← Json.required Json.float? value
    let duration ← Json.required Json.uint64? duration
    let breakdown ← Json.optional BreakdownRecord.ofJson? breakdown
    let timestamp ← Json.required Json.uint64? timestamp
    return { id, trigger, value, duration, breakdown, timestamp }
  | _ => none

/-- The names of the fields of a metric. -/
def MetricRecord.fieldNames : List String :=
  ["id", "type", "category", "name", "unit", "measurement"]

/-- The metric that a value writes. -/
def MetricRecord.ofJson? (j : Json) : Option (MetricRecord Float) :=
  match Json.record? fieldNames j with
  | some [id, kind, category, name, unit, measurement] => do
    let id ← Json.required Json.string? id
    let kind ← Json.required (Json.label? MetricKind.ofText?) kind
    let category ← Json.required (Json.label? Category.ofText?) category
    let name ← Json.required Json.string? name
    let unit ← Json.required (Json.label? MeasureUnit.ofText?) unit
    let measurement ← Json.optional MeasurementRecord.ofJson? measurement
    return { id, kind, category, name, unit, measurement }
  | _ => none

/-- The message that a value writes. Its content is anything readable, kept in canonical form. -/
def MessageRecord.ofJson? (j : Json) : Option MessageRecord :=
  match Json.record? ["topic", "content"] j with
  | some [topic, content] => do
    let topic ← Json.required Json.string? topic
    let content ← Json.required Json.canonical? content
    return { topic, content }
  | _ => none

/-- The payload that a value writes. -/
def Payload.ofJson? (j : Json) : Option Payload :=
  match Json.record? ["messages", "labels"] j with
  | some [messages, labels] => do
    let messages ← Json.required Json.array? messages
    let messages ← messages.mapM MessageRecord.ofJson?
    let labels ← Json.required Json.array? labels
    let labels ← labels.mapM Json.string?
    return { messages, labels }
  | _ => none

/-- The names of the fields of an upload. -/
def UploadRequest.fieldNames : List String :=
  ["runtime_type", "agent_version", "app_name", "app_version", "app_environment", "host_name",
    "process_id", "build_id", "run_id", "run_ts", "sent_at", "payload"]

/-- The upload that a value writes. -/
def UploadRequest.ofJson? (j : Json) : Option UploadRequest :=
  match Json.record? fieldNames j with
  | some [runtimeType, agentVersion, appName, appVersion, appEnvironment, hostName, processId,
      buildId, runId, runTime, sentAt, payload] => do
    let runtimeType ← Json.required Json.string? runtimeType
    let agentVersion ← Json.required Json.string? agentVersion
    let appName ← Json.required Json.string? appName
    let appVersion ← Json.required Json.string? appVersion
    let appEnvironment ← Json.required Json.string? appEnvironment
    let hostName ← Json.required Json.string? hostName
    let processId ← Json.required Json.string? processId
    let buildId ← Json.required Json.string? buildId
    let runId ← Json.required Json.string? runId
    let runTime ← Json.required Json.uint64? runTime
    let sentAt ← Json.required Json.uint64? sentAt
    let payload ← Json.required Payload.ofJson? payload
    return { runtimeType, agentVersion, appName, appVersion, appEnvironment, hostName, processId,
             buildId, runId, runTime, sentAt, payload }
  | _ => none

end Telemetry
