import Mathlib.Data.List.Forall2
import Telemetry.Delivery.Message

/-!
# What an upload carries

What a payload must look like is said by `Payload.Carries`, one record for each message of a batch,
and what a request must say of its sender by `Envelope.Stamps`. Neither mentions how requests are
made. The request made of a batch carries it (`carries_payloadOf`) and is stamped
(`stamps_request`).
-/

namespace Telemetry

open Delivery

namespace Delivery.Message

/-- A record shows a message. -/
inductive ShownBy : Message → MessageRecord → Prop
  /-- structured content goes with its topic -/
  | structured (topic : String) (content : Json) (addedAt : UnixTime) :
    ShownBy { topic, body := .structured content, addedAt } { topic, content }
  /-- of a flattened message only the topic is shown -/
  | flattened (topic : String) (labels : List String) (addedAt : UnixTime) :
    ShownBy { topic, body := .flattened labels, addedAt } { topic, content := .null }

/-- The labels of a flattened message. -/
def flattened? (m : Message) : Option (List String) :=
  match m.body with
  | .structured _ => none
  | .flattened labels => some labels

theorem shownBy_toRecord (m : Message) : m.ShownBy m.toRecord := by
  obtain ⟨topic, body, addedAt⟩ := m
  cases body with
  | structured content => exact .structured topic content addedAt
  | flattened labels => exact .flattened topic labels addedAt

end Delivery.Message

/-- A payload carries a batch: it shows each message, in their order, and has all their labels. -/
structure Payload.Carries (p : Payload) (batch : List Message) : Prop where
  records : List.Forall₂ Message.ShownBy batch p.messages
  labels : p.labels = (batch.filterMap Message.flattened?).flatten

/-- The payload that is made of a batch carries it. -/
theorem carries_payloadOf (batch : List Message) : (payloadOf batch).Carries batch where
  records := by
    rw [payloadOf]
    exact List.forall₂_map_right_iff.mpr (List.forall₂_same.mpr fun m _ => m.shownBy_toRecord)
  labels := by
    show batch.flatMap Message.labels = (batch.filterMap Message.flattened?).flatten
    induction batch with
    | nil => rfl
    | cons m rest ih =>
      obtain ⟨topic, body, addedAt⟩ := m
      cases body with
      | structured content => exact ih
      | flattened labels => exact congrArg (labels ++ ·) ih

/-- A request is stamped with all that an envelope says, and with the time. -/
structure Delivery.Envelope.Stamps (e : Envelope) (now : UnixTime) (r : UploadRequest) : Prop where
  runtimeType : r.runtimeType = "rust"
  agentVersion : r.agentVersion = e.agentVersion
  appName : r.appName = e.appName
  appVersion : r.appVersion = e.appVersion
  appEnvironment : r.appEnvironment = e.appEnvironment
  hostName : r.hostName = e.hostName
  processId : r.processId = e.processId
  buildId : r.buildId = e.buildId
  runId : r.runId = e.runId
  runTime : r.runTime = e.runTime
  sentAt : r.sentAt = now.seconds

/-- Every request of an envelope is stamped. -/
theorem stamps_request (e : Envelope) (now : UnixTime) (batch : List Message) :
    e.Stamps now (e.request now batch) :=
  ⟨rfl, rfl, rfl, rfl, rfl, rfl, rfl, rfl, rfl, rfl, rfl⟩

end Telemetry
