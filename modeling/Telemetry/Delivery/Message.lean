import Telemetry.Record
import Telemetry.Time

/-!
# Messages and uploads

A message has a topic and either structured content or a flat list of labels. A batch of messages is
uploaded as one request, which says in its envelope who sends it.
-/

namespace Telemetry.Delivery

/-- What a message carries. -/
inductive Body where
  /-- content of any form -/
  | structured (content : Json)
  /-- values that were flattened to labels already -/
  | flattened (labels : List String)

/-- A message on its way to the collector. -/
structure Message where
  topic : String
  body : Body
  /-- when it was queued -/
  addedAt : UnixTime

namespace Message

/-- The message as it appears in an upload. Labels are carried elsewhere, so a flattened message has
no content of its own. -/
def toRecord (m : Message) : MessageRecord :=
  match m.body with
  | .structured content => { topic := m.topic, content }
  | .flattened _ => { topic := m.topic, content := .null }

/-- The labels of a flattened message. -/
def labels (m : Message) : List String :=
  match m.body with
  | .structured _ => []
  | .flattened labels => labels

end Message

/-- The payload of a batch: a record for each message, and all labels one after the other. -/
def payloadOf (batch : List Message) : Payload :=
  { messages := batch.map Message.toRecord, labels := batch.flatMap Message.labels }

/-- What every upload of a process says about its sender. -/
structure Envelope where
  agentVersion : String := ""
  appName : String := ""
  appVersion : String := ""
  appEnvironment : String := ""
  hostName : String := ""
  processId : String := ""
  buildId : String := ""
  runId : String := ""
  /-- when the run started, in seconds -/
  runTime : UInt64 := 0
  deriving DecidableEq, Repr, Inhabited

/-- The kind of program that reports. -/
def runtimeType : String := "rust"

/-- The upload of a batch. -/
def Envelope.request (e : Envelope) (now : UnixTime) (batch : List Message) : UploadRequest :=
  { runtimeType
    agentVersion := e.agentVersion, appName := e.appName, appVersion := e.appVersion
    appEnvironment := e.appEnvironment, hostName := e.hostName, processId := e.processId
    buildId := e.buildId, runId := e.runId, runTime := e.runTime, sentAt := now.seconds
    payload := payloadOf batch }

end Telemetry.Delivery
