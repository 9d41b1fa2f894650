import Telemetry.Delivery.Dispatch
import Telemetry.Journal

/-!
# Delivery

The way out of an agent: the dispatch of its messages, the envelope they are sent in, how long they
are kept, and the journal in which all that is written down.

Every operation that depends on a clock is given its reading. Where an operation starts an upload it
returns the request; the outcome is handed in later by `settle`.
-/

namespace Telemetry

open Delivery

/-- Everything about messages on their way out. -/
structure Delivery where
  dispatch : Dispatch := {}
  envelope : Envelope
  /-- how long a message is kept, in seconds -/
  expiry : UInt64
  journal : Journal

namespace Delivery

/-- A delivery that has nothing to deliver. -/
def create (envelope : Envelope) (expiry : UInt64) (debug : Bool) : Delivery :=
  { envelope, expiry, journal := { isOpen := debug } }

/-- The messages that wait, oldest first. -/
def pending (d : Delivery) : List Message := d.dispatch.queue

/-- The number of messages that wait. -/
def size (d : Delivery) : Nat := d.pending.length

/-- Change the journal. -/
def withJournal (d : Delivery) (f : Journal → Journal) : Delivery :=
  { d with journal := f d.journal }

/-- Queue a message. -/
def push (d : Delivery) (m : Message) : Delivery :=
  { d with dispatch := d.dispatch.push m }

/-- Queue content. It is kept in canonical form. -/
def enqueue (d : Delivery) (now : UnixTime) (topic : String) (content : Json) : Delivery :=
  d.push { topic, body := .structured content.sorted, addedAt := now }

/-- Queue values that were flattened to labels. -/
def enqueueFlat (d : Delivery) (now : UnixTime) (topic : String) (labels : List String) :
    Delivery :=
  d.push { topic, body := .flattened labels, addedAt := now }

/-- Drop the messages that are older than they may be. Returns their number. -/
def expire (d : Delivery) (now : UnixTime) : Nat × Delivery :=
  let (dropped, dispatch) := d.dispatch.expire (now.minusSeconds d.expiry)
  let journal :=
    if dropped = 0 then d.journal
    else d.journal.info ("Dropped " ++ toString dropped ++ " expired messages")
  (dropped, { d with dispatch, journal })

/-! ## Flushes -/

/-- What becomes of a flush when it gets its turn. -/
inductive Progress where
  /-- no flush can start now -/
  | idle
  /-- a flush is done without an upload -/
  | done (flush : FlushId)
  /-- a flush has a request to upload -/
  | uploading (flush : FlushId) (request : UploadRequest)

/-- A flush asks for its turn. -/
def ask (d : Delivery) (flush : FlushId) : Delivery :=
  { d with dispatch := d.dispatch.ask flush }

/-- The flush whose turn it is starts. -/
def start (d : Delivery) (wall : UnixTime) (steady : Instant) : Progress × Delivery :=
  let (start, dispatch) := d.dispatch.start steady
  let progress :=
    match start with
    | .idle => .idle
    | .nothing flush => .done flush
    | .upload flush batch => .uploading flush (d.envelope.request wall batch)
  (progress, { d with dispatch })

/-- The upload of a flush has ended. Returns what the flush reports: the number of messages
delivered, or the error. -/
def settle (d : Delivery) (outcome : Except UploadError Unit) :
    Except UploadError Nat × Delivery :=
  match outcome with
  | .ok () =>
    let delivered := d.dispatch.inFlight.length
    (.ok delivered,
      { d with
        dispatch := d.dispatch.settle true
        journal := d.journal.info ("Uploaded " ++ toString delivered ++ " messages") })
  | .error error =>
    let dispatch := d.dispatch.settle false
    let wait := toString dispatch.backoff.wait.toSeconds
    (.error error,
      { d with
        dispatch
        journal := d.journal.error
          ("Upload failed, retrying in " ++ wait ++ "s: " ++ error.message) })

/-- A flush is given up. -/
def cancel (d : Delivery) (flush : FlushId) : Delivery :=
  { d with dispatch := d.dispatch.cancel flush }

/-- Whether the backoff is over. -/
def isReady (d : Delivery) (steady : Instant) : Bool := d.dispatch.backoff.isOver steady

/-- A timer asks for a flush. Unless something is queued and the backoff is over nothing happens;
otherwise old messages are dropped first. Returns whether a flush was asked for. -/
def tick (d : Delivery) (flush : FlushId) (wall : UnixTime) (steady : Instant) :
    Bool × Delivery :=
  if d.dispatch.isDue steady then (true, (d.expire wall).2.ask flush) else (false, d)

end Delivery

end Telemetry
