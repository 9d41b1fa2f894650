import Telemetry.Delivery.Backoff
import Telemetry.Delivery.Message

/-!
# Dispatch

Messages wait in a queue until a flush takes all of them out and uploads them as one batch. Any
number of flushes can be under way, but only one of them has the turn; the others wait in line. A
flush whose turn it is

* starts: it takes the whole queue as its batch, and is done at once if that is empty;
* settles: if the upload succeeded the batch is gone, and otherwise it goes back to the front of the
  queue, before everything that was queued meanwhile;
* or is cancelled, which puts the batch back in the same way.

Whichever way it ends, the turn goes to the first flush in line. Each of these is a step of its own,
so that anything can happen between two of them, and a run is a list of steps.

Two clocks are involved: wall-clock time stamps messages and decides which are expired, a steady
clock measures the backoff.
-/

namespace Telemetry.Delivery

/-- Why an upload failed. -/
inductive UploadError where
  /-- the collector did not accept it -/
  | rejected (reason : String)
  /-- it could not be sent or written -/
  | failed (reason : String)
  /-- it could not be encoded -/
  | unencodable (reason : String)
  deriving DecidableEq, Repr

/-- The text of an error. -/
def UploadError.message : UploadError → String
  | rejected reason => "Collector rejected upload: " ++ reason
  | failed reason => reason
  | unencodable reason => reason

/-- What tells flushes apart. -/
abbrev FlushId := Nat

/-- The flush whose turn it is. -/
structure Turn where
  flush : FlushId
  /-- the messages being uploaded, once it has started -/
  batch : Option (List Message)

/-- The queue and the flushes that work on it. -/
structure Dispatch where
  /-- the messages that wait, oldest first -/
  queue : List Message := []
  backoff : Backoff := {}
  /-- the flush whose turn it is -/
  turn : Option Turn := none
  /-- the flushes in line for their turn -/
  waiting : List FlushId := []

/-- How a flush starts when it gets its turn. -/
inductive Start where
  /-- there is nothing to start: it is no one's turn, or the upload has started already -/
  | idle
  /-- there was nothing to upload, and the flush is done -/
  | nothing (flush : FlushId)
  /-- the batch is to be uploaded -/
  | upload (flush : FlushId) (batch : List Message)

namespace Dispatch

/-- Queue a message. -/
def push (d : Dispatch) (m : Message) : Dispatch :=
  { d with queue := d.queue ++ [m] }

/-- The messages being uploaded. -/
def inFlight (d : Dispatch) : List Message :=
  match d.turn with
  | some { batch := some batch, .. } => batch
  | _ => []

/-- Whether a flush has the turn or is in line for it. -/
def involves (d : Dispatch) (flush : FlushId) : Bool :=
  d.turn.any (·.flush == flush) || d.waiting.contains flush

/-- Drop every message added before a time. Returns the number dropped. -/
def expire (d : Dispatch) (cutoff : UnixTime) : Nat × Dispatch :=
  let kept := d.queue.filter fun m => decide (cutoff.seconds ≤ m.addedAt.seconds)
  (d.queue.length - kept.length, { d with queue := kept })

/-- Give the turn to the first flush in line. -/
def pass (d : Dispatch) : Dispatch :=
  match d.waiting with
  | [] => { d with turn := none }
  | next :: rest => { d with turn := some { flush := next, batch := none }, waiting := rest }

/-- A flush asks for its turn. It gets it at once if no other has it. -/
def ask (d : Dispatch) (flush : FlushId) : Dispatch :=
  match d.turn with
  | none => { d with turn := some { flush, batch := none } }
  | some _ => { d with waiting := d.waiting ++ [flush] }

/-- The flush whose turn it is starts. -/
def start (d : Dispatch) (now : Instant) : Start × Dispatch :=
  match d.turn with
  | some { flush, batch := none } =>
    match d.queue with
    | [] => (.nothing flush, d.pass)
    | batch =>
      (.upload flush batch,
        { d with queue := [], turn := some { flush, batch := some batch }
                 backoff := d.backoff.attempt now })
  | _ => (.idle, d)

/-- The upload of a batch has ended. -/
def settle (d : Dispatch) (succeeded : Bool) : Dispatch :=
  match d.turn with
  | some { batch := some batch, .. } =>
    if succeeded then { d with backoff := d.backoff.succeed }.pass
    else { d with queue := batch ++ d.queue, backoff := d.backoff.fail }.pass
  | _ => d

/-- A flush is given up, whether it has its turn or is still in line. -/
def cancel (d : Dispatch) (flush : FlushId) : Dispatch :=
  match d.turn with
  | some turn =>
    if turn.flush = flush then { d with queue := d.inFlight ++ d.queue }.pass
    else { d with waiting := d.waiting.erase flush }
  | none => d

/-- Whether a timer may flush: something is queued and the backoff is over. -/
def isDue (d : Dispatch) (now : Instant) : Bool :=
  !d.queue.isEmpty && d.backoff.isOver now

/-! ## Steps -/

/-- A step of a run. -/
inductive Step where
  /-- a message is queued -/
  | push (m : Message)
  /-- messages added before a time are dropped -/
  | expire (cutoff : UnixTime)
  /-- a flush asks for its turn -/
  | ask (flush : FlushId)
  /-- the flush whose turn it is starts -/
  | start (now : Instant)
  /-- its upload ends -/
  | settle (succeeded : Bool)
  /-- a flush is given up -/
  | cancel (flush : FlushId)

/-- What a step does. -/
def apply (d : Dispatch) : Step → Dispatch
  | .push m => d.push m
  | .expire cutoff => (d.expire cutoff).2
  | .ask flush => d.ask flush
  | .start now => (d.start now).2
  | .settle succeeded => d.settle succeeded
  | .cancel flush => d.cancel flush

/-- The messages that a step reports as delivered. -/
def acknowledgedBy (d : Dispatch) : Step → List Message
  | .settle true => d.inFlight
  | _ => []

end Dispatch

end Telemetry.Delivery
