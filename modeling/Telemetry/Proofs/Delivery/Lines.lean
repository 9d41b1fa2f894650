import Mathlib.Data.List.Induction
import Telemetry.Delivery.Transport
import Telemetry.Proofs.Files.Append
import Telemetry.Proofs.Json.Literals
import Telemetry.Proofs.Text.Bytes
import Telemetry.Proofs.Text.Lines

/-!
# Uploads that go to a file

Uploads to one file wait for one another, so a run is a list of uploads, each of which either is
written or fails because the file cannot be opened. Between them anything else may happen to the
directory (`Happening`). What the file gains are the documents of the uploads that were written,
each with a line feed behind it (`Filing.kept_after`).

A document holds no line feed of its own, since no text of a value holds a control character
(`Json.Spells.printable`) and a character that is no control has no byte of one
(`Text.le_of_mem_bytes`). So the lines of the file are the documents again (`Text.splitOn_framed`),
and whoever reads their literals gets back every string that was uploaded
(`Filing.uploads_framed`).
-/

namespace Telemetry.Delivery

/-! ## Documents -/

/-- The byte that ends a line. -/
def lineFeed : UInt8 := 10

/-- The bytes of an upload. -/
def document (r : UploadRequest) : List UInt8 := Text.bytes r.toJson.text

/-- What is appended is the document and one feed. -/
theorem bytes_documentLine (r : UploadRequest) :
    (documentLine r).toUTF8.data.toList = document r ++ [lineFeed] := by
  have hfeed : "\n".toList.flatMap String.utf8EncodeChar = [lineFeed] := by decide
  have hline := Text.bytes_eq (documentLine r)
  rw [documentLine, String.toList_append, List.flatMap_append, hfeed, ← Text.bytes_eq] at hline
  exact hline

/-- The feeds inside of strings are escaped, so a document stands on a line of its own. -/
theorem lineFeed_notMem_document (r : UploadRequest) : lineFeed ∉ document r := by
  intro hmem
  have hle := Text.le_of_mem_bytes (Json.spells_text r.toJson).printable lineFeed hmem
  exact absurd hle (by decide)

/-- The strings of a message: its topic and whatever strings and keys there are in its content. -/
def messageStrings (m : MessageRecord) : List String :=
  ["topic", m.topic, "content"] ++ m.content.strings

/-- The strings of an upload, in the order in which its document has them. -/
def requestStrings (r : UploadRequest) : List String :=
  ["runtime_type", r.runtimeType, "agent_version", r.agentVersion, "app_name", r.appName,
    "app_version", r.appVersion, "app_environment", r.appEnvironment, "host_name", r.hostName,
    "process_id", r.processId, "build_id", r.buildId, "run_id", r.runId, "run_ts", "sent_at",
    "payload", "messages"]
  ++ r.payload.messages.flatMap messageStrings
  ++ "labels" :: r.payload.labels

theorem strings_message (m : MessageRecord) : m.toJson.strings = messageStrings m := by
  simp [MessageRecord.toJson, Json.strings, Json.fieldStrings, messageStrings]

/-- A document spells the strings of its request, in the order of the fields. -/
theorem strings_request (r : UploadRequest) : r.toJson.strings = requestStrings r := by
  have hmessages : Json.elementStrings (r.payload.messages.map MessageRecord.toJson)
      = r.payload.messages.flatMap messageStrings := by
    simp only [Json.elementStrings_map, strings_message]
  have hlabels : Json.elementStrings (r.payload.labels.map Json.string) = r.payload.labels := by
    simp only [Json.elementStrings_map, Json.strings, List.flatMap_singleton']
  simp [UploadRequest.toJson, Payload.toJson, Json.ofNat, Json.strings, Json.fieldStrings,
    hmessages, hlabels, requestStrings]

/-! ## Runs -/

/-- Something that happens to a directory: an upload to the file that a path names, or anything
else that spares this file. -/
inductive Happening (path : String) where
  | upload (r : UploadRequest)
  | elsewhere (change : Directory → Directory)
    (spares : ∀ d, (change d).content? (.ofPath path) = d.content? (.ofPath path))

/-- The upload, if one happens. -/
def Happening.upload? {path : String} : Happening path → Option UploadRequest
  | .upload r => some r
  | .elsewhere _ _ => none

/-- A directory, and how the uploads so far were answered. -/
structure Filing where
  directory : Directory
  answers : List (UploadRequest × Except UploadError Unit) := []

namespace Filing

variable {path : String}

/-- The uploads that succeeded. -/
def written (f : Filing) : List UploadRequest :=
  (f.answers.filter (·.2.isOk)).map Prod.fst

/-- What becomes of it. -/
def next (f : Filing) : Happening path → Filing
  | .upload r =>
    match appendUpload f.directory path r with
    | .ok directory => { directory, answers := f.answers ++ [(r, .ok ())] }
    | .error e => { f with answers := f.answers ++ [(r, .error e)] }
  | .elsewhere change _ => { f with directory := change f.directory }

/-- What there is after a run. -/
def after (d : Directory) (run : List (Happening path)) : Filing :=
  run.foldl next { directory := d }

theorem after_concat (d : Directory) (run : List (Happening path)) (e : Happening path) :
    after d (run ++ [e]) = (after d run).next e := by
  rw [after, List.foldl_append, List.foldl_cons, List.foldl_nil, ← after]

/-- The bytes of the file. -/
def bytes (f : Filing) (path : String) : List UInt8 := f.directory.bytesAt (.ofPath path)

/-- An upload that was accepted adds its document at the end; one that was not adds nothing. -/
theorem written_concat (f : Filing) (directory : Directory) (r : UploadRequest)
    (answer : Except UploadError Unit) :
    written { directory, answers := f.answers ++ [(r, answer)] }
      = f.written ++ if answer.isOk then [r] else [] := by
  rw [written, List.filter_append, List.map_append, ← written]
  cases hok : answer.isOk <;> simp [hok]

/-- An upload is added to the file that its path names, or this file cannot be opened. -/
theorem appendUpload_cases (d : Directory) (path : String) (r : UploadRequest) :
    (∃ e, d.opened path = .error e ∧ appendUpload d path r = .error (.failed e.message)) ∨
      ∃ d', d.opened path = .ok (.ofPath path) ∧ appendUpload d path r = .ok d' ∧
        d'.bytesAt (.ofPath path) = d.bytesAt (.ofPath path) ++ Text.framed lineFeed [document r] := by
  rw [appendUpload]
  obtain ⟨e, hopened, happend⟩ | ⟨d', hopened, happend, hgrows⟩ :=
    d.append_cases path (documentLine r).toUTF8
  · rw [happend]
    exact .inl ⟨e, hopened, rfl⟩
  · rw [happend]
    refine .inr ⟨d', hopened, rfl, ?_⟩
    rw [hgrows.bytes, bytes_documentLine, Text.framed, List.flatMap_singleton]

/-- The file holds what it held at first, and the lines of the uploads written since. -/
def Kept (d : Directory) (path : String) (f : Filing) : Prop :=
  f.bytes path = d.bytesAt (.ofPath path) ++ Text.framed lineFeed (f.written.map document)

/-- Whatever happens next, the file holds what it held at first and then the accepted documents. -/
theorem Kept.next {d : Directory} {f : Filing} (h : f.Kept d path) (e : Happening path) :
    (f.next e).Kept d path := by
  cases e with
  | upload r =>
    obtain ⟨e, -, hupload⟩ | ⟨directory, -, hupload, hbytes⟩ :=
      appendUpload_cases f.directory path r
    · rw [Filing.next, hupload, Kept, written_concat, Except.isOk, Except.toBool,
        if_neg Bool.false_ne_true, List.append_nil]
      exact h
    · rw [Filing.next, hupload, Kept, written_concat, Except.isOk, Except.toBool, if_pos rfl, bytes,
        hbytes, ← bytes, h, List.append_assoc, ← Text.framed_append, List.map_append]
      rfl
  | elsewhere change spares =>
    rw [Kept, Filing.next, bytes, Directory.bytesAt, spares]
    exact h

/-- By induction over what happens, from `Kept.next`. -/
theorem kept_after (d : Directory) (run : List (Happening path)) : (after d run).Kept d path := by
  induction run using List.reverseRecOn with
  | nil => exact (List.append_nil _).symm
  | append_singleton run e ih =>
    rw [after_concat]
    exact ih.next e

/-- Every upload is answered once, when it is made. -/
theorem answered_next (f : Filing) (e : Happening path) :
    (f.next e).answers.map Prod.fst = f.answers.map Prod.fst ++ e.upload?.toList := by
  cases e with
  | upload r =>
    rw [next]
    cases appendUpload f.directory path r <;> exact List.map_append
  | elsewhere change spares => exact (List.append_nil _).symm

/-- Every upload is answered, in its turn. -/
theorem answered_after (d : Directory) (run : List (Happening path)) :
    (after d run).answers.map Prod.fst = run.filterMap Happening.upload? := by
  induction run using List.reverseRecOn with
  | nil => rfl
  | append_singleton run e ih =>
    rw [after_concat, answered_next, ih, List.filterMap_append]
    cases e <;> rfl

/-- An upload fails only if the file cannot be opened. -/
theorem appendUpload_eq_error_iff {d : Directory} {r : UploadRequest} {reason : UploadError} :
    appendUpload d path r = .error reason ↔
      ∃ e, d.opened path = .error e ∧ reason = .failed e.message := by
  obtain ⟨e, hopened, hupload⟩ | ⟨d', hopened, hupload, -⟩ := appendUpload_cases d path r
  · rw [hopened, hupload]
    simp [eq_comm]
  · rw [hopened, hupload]
    simp

/-- The file that a path names after a run, and what can be read from it. -/
structure Framed (d : Directory) (path : String) (run : List (Happening path)) (f : Filing) :
    Prop where
  /-- the uploads are answered in the order in which they are made -/
  answered : f.answers.map Prod.fst = run.filterMap Happening.upload?
  /-- an upload fails only if the file cannot be opened -/
  failed : ∀ (d : Directory) (r : UploadRequest) (reason : UploadError),
    appendUpload d path r = .error reason ↔
      ∃ e, d.opened path = .error e ∧ reason = .failed e.message
  /-- those that succeed add their documents in this order, each with a line feed behind it, and
  nothing else is added -/
  content : f.bytes path = d.bytesAt (.ofPath path) ++ Text.framed lineFeed (f.written.map document)
  unbroken : ∀ r, lineFeed ∉ document r
  /-- what was added falls into these documents -/
  cut : (Text.framed lineFeed (f.written.map document)).splitOn lineFeed
    = f.written.map document ++ [[]]
  /-- and so does the file, behind the lines that it had -/
  resumed : ∀ lines, (∀ line ∈ lines, lineFeed ∉ line) →
    d.bytesAt (.ofPath path) = Text.framed lineFeed lines →
    (f.bytes path).splitOn lineFeed = lines ++ f.written.map document ++ [[]]
  /-- the literals of a document give back the strings of the upload -/
  read : ∀ r : UploadRequest, Json.literals? r.toJson.text.toList = some (requestStrings r)

/-- Whatever uploads hold, and whichever of them fail, the lines of the file are the documents of
those that succeeded. -/
theorem uploads_framed (d : Directory) (path : String) (run : List (Happening path)) :
    Framed d path run (after d run) := by
  have hunbroken : ∀ line ∈ (after d run).written.map document, lineFeed ∉ line := by
    intro line hmem
    obtain ⟨r, -, rfl⟩ := List.mem_map.mp hmem
    exact lineFeed_notMem_document r
  refine ⟨answered_after d run, fun _ _ _ => appendUpload_eq_error_iff, kept_after d run,
    lineFeed_notMem_document, Text.splitOn_framed hunbroken, fun lines hlines hfile => ?_,
    fun r => ?_⟩
  · rw [kept_after d run, hfile, ← Text.framed_append]
    exact Text.splitOn_framed (List.forall_mem_append.mpr ⟨hlines, hunbroken⟩)
  · rw [(Json.spells_text r.toJson).literals?_eq, strings_request]

end Filing

end Telemetry.Delivery
