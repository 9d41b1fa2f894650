import Telemetry.Delivery.Dispatch
import Telemetry.Files
import Telemetry.Json.Printer

/-!
# Transports

Where uploads go when there is no collector to talk to: a line of summary for each upload, or a file
that holds one upload per line as compact JSON.

JSON text holds no line breaks of its own, so the lines of the file are its documents.
-/

namespace Telemetry.Delivery

/-- One line that says what an upload is about. -/
def summary (r : UploadRequest) : String :=
  "upload: app=" ++ r.appName ++ " host=" ++ r.hostName ++ " run=" ++ r.runId
    ++ " messages=" ++ toString r.payload.messages.length
    ++ " labels=" ++ toString r.payload.labels.length

/-- The line of an upload in a file. -/
def documentLine (r : UploadRequest) : String :=
  r.toJson.text ++ "\n"

/-- Write an upload at the end of a file. -/
def appendUpload (d : Directory) (path : String) (r : UploadRequest) :
    Except UploadError Directory :=
  (d.append path (documentLine r).toUTF8).mapError fun reason => .failed reason.message

end Telemetry.Delivery
