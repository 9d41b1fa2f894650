import Telemetry.Delivery

/-!
# What can happen to a delivery

A run of a delivery is a list of events: messages are queued, old ones are dropped, flushes ask for
their turn, start, end and are given up. They may come in any order, and any number of flushes may
be under way at a time.

On the dispatch inside, each event is one step (`dispatch_after`), so what holds of all steps of a
dispatch holds of all events. What a step can do depends on who has the turn and on whether its
upload has started; the first section says it once for each step (`start_cases`, `settle_cases`,
`cancel_cases`).
-/

namespace Telemetry.Delivery

/-! ## What a step can do -/

namespace Dispatch

/-- A start takes the whole queue, or ends a flush that finds it empty, or finds nothing to start. -/
theorem start_cases (d : Dispatch) (now : Instant) :
    (∃ flush, d.turn = some { flush, batch := none } ∧ d.queue ≠ [] ∧
      d.start now = (.upload flush d.queue,
        { d with queue := [], turn := some { flush, batch := some d.queue }
                 backoff := d.backoff.attempt now })) ∨
    (∃ flush, d.turn = some { flush, batch := none } ∧ d.queue = [] ∧
      d.start now = (.nothing flush, d.pass)) ∨
    ((∀ flush, d.turn ≠ some { flush, batch := none }) ∧ d.start now = (.idle, d)) := by
  rw [start]
  split
  · rename_i flush hturn
    cases hqueue : d.queue with
    | nil => exact .inr (.inl ⟨flush, hturn, rfl, rfl⟩)
    | cons m rest => exact .inl ⟨flush, hturn, List.cons_ne_nil m rest, rfl⟩
  · rename_i hturn
    exact .inr (.inr ⟨fun flush h => hturn flush h, rfl⟩)

/-- An upload that ends leaves the batch behind or puts it back in front, and passes the turn on. -/
theorem settle_cases (d : Dispatch) (succeeded : Bool) :
    (∃ flush batch, d.turn = some { flush, batch := some batch } ∧
      d.settle succeeded
        = if succeeded then { d with backoff := d.backoff.succeed }.pass
          else { d with queue := batch ++ d.queue, backoff := d.backoff.fail }.pass) ∨
    (d.inFlight = [] ∧ d.settle succeeded = d) := by
  rw [settle, inFlight]
  split
  · rename_i flush batch hturn
    exact .inl ⟨flush, batch, hturn, rfl⟩
  · exact .inr ⟨rfl, rfl⟩

/-- A flush that has the turn gives back its batch and passes the turn on; any other just leaves the
line. -/
theorem cancel_cases (d : Dispatch) (flush : FlushId) :
    (d.turn.any (·.flush = flush) ∧
      d.cancel flush = { d with queue := d.inFlight ++ d.queue }.pass) ∨
    (d.turn.any (·.flush = flush) = false ∧
      ∃ waiting, d.cancel flush = { d with waiting }) := by
  rw [cancel]
  split
  · rename_i turn hturn
    rw [hturn]
    by_cases hflush : turn.flush = flush
    · exact .inl ⟨by simp [hflush], by rw [if_pos hflush]⟩
    · exact .inr ⟨by simp [hflush], d.waiting.erase flush, by rw [if_neg hflush]⟩
  · rename_i hturn
    exact .inr ⟨by rw [hturn]; rfl, d.waiting, rfl⟩

@[simp] theorem queue_pass (d : Dispatch) : d.pass.queue = d.queue := by
  rw [pass]
  split <;> rfl

/-- Whoever gets the turn holds no batch yet. -/
@[simp] theorem inFlight_pass (d : Dispatch) : d.pass.inFlight = [] := by
  rw [pass]
  split <;> rfl

end Dispatch

/-! ## Events -/

/-- Something that happens to a delivery. -/
inductive Event where
  /-- a message is queued -/
  | push (m : Message)
  /-- content is queued -/
  | enqueue (now : UnixTime) (topic : String) (content : Json)
  /-- labels are queued -/
  | enqueueFlat (now : UnixTime) (topic : String) (labels : List String)
  /-- messages that are too old by now are dropped -/
  | expire (now : UnixTime)
  /-- a flush asks for its turn -/
  | ask (flush : FlushId)
  /-- the flush whose turn it is takes the queue -/
  | start (wall : UnixTime) (steady : Instant)
  /-- its upload ends, well or with an error -/
  | settle (outcome : Except UploadError Unit)
  /-- a flush is given up -/
  | cancel (flush : FlushId)

/-- The messages that an event adds to the queue. -/
def Event.pushed : Event → List Message
  | .push m => [m]
  | .enqueue now topic content => [{ topic, body := .structured content.sorted, addedAt := now }]
  | .enqueueFlat now topic labels => [{ topic, body := .flattened labels, addedAt := now }]
  | .expire _ | .ask _ | .start _ _ | .settle _ | .cancel _ => []

/-- What an event does to a delivery. -/
def after (d : Delivery) : Event → Delivery
  | .push m => d.push m
  | .enqueue now topic content => d.enqueue now topic content
  | .enqueueFlat now topic labels => d.enqueueFlat now topic labels
  | .expire now => (d.expire now).2
  | .ask flush => d.ask flush
  | .start wall steady => (d.start wall steady).2
  | .settle outcome => (d.settle outcome).2
  | .cancel flush => d.cancel flush

/-- The step that an event is for the dispatch, given how long messages are kept. -/
def Event.step (expiry : UInt64) : Event → Dispatch.Step
  | .push m => .push m
  | .enqueue now topic content =>
    .push { topic, body := .structured content.sorted, addedAt := now }
  | .enqueueFlat now topic labels => .push { topic, body := .flattened labels, addedAt := now }
  | .expire now => .expire (now.minusSeconds expiry)
  | .ask flush => .ask flush
  | .start _ steady => .start steady
  | .settle outcome => .settle outcome.isOk
  | .cancel flush => .cancel flush

@[simp] theorem expiry_after (d : Delivery) (e : Event) : (d.after e).expiry = d.expiry := by
  cases e with
  | settle outcome => cases outcome <;> rfl
  | _ => rfl

/-- An event does to the dispatch what its step does. -/
theorem dispatch_after (d : Delivery) (e : Event) :
    (d.after e).dispatch = d.dispatch.apply (e.step d.expiry) := by
  cases e with
  | settle outcome => cases outcome <;> rfl
  | _ => rfl

/-- Messages that are queued one after the other stand at the end of the queue. -/
theorem foldl_push (d : Delivery) (messages : List Message) :
    messages.foldl push d
      = { d with dispatch := { d.dispatch with queue := d.pending ++ messages } } := by
  induction messages generalizing d with
  | nil =>
    rw [List.append_nil]
    rfl
  | cons m rest ih =>
    rw [List.foldl_cons, ih]
    simp [push, Dispatch.push, pending]

end Telemetry.Delivery
