import Telemetry.Proofs.Delivery.Tick

/-!
# What the transport is handed

A flush that does not have to wait hands its whole batch over at once, in one request, or has
nothing to hand over (`flush?_of_pending_eq_nil`, `flush?_of_pending_ne_nil`). The request carries
the batch, and is stamped by the envelope of the delivery.

After a failed upload the queue is what it was before, apart from what was queued meanwhile. So
however often an upload fails, as long as nothing is queued, the next one carries the same payload
(`payloads_of_failed`).
-/

namespace Telemetry

open Delivery

namespace Delivery

/-! ## One flush -/

/-- How a flush has ended. -/
structure Flushed where
  /-- the requests handed over to the transport -/
  sent : List UploadRequest
  /-- what the flush returns -/
  result : Except UploadError Nat
  /-- what it leaves behind -/
  left : Delivery

/-- A flush, from its request for the turn to its end. Of a round it needs only what belongs to the
upload. There is no end to be seen if the flush has to wait for its turn. -/
def flush? (d : Delivery) (r : Round) : Option Flushed :=
  match (d.ask r.flush).start r.sent r.started with
  | (.idle, _) => none
  | (.done _, d) => some { sent := [], result := .ok 0, left := d }
  | (.uploading _ request, d) =>
    let (result, left) := (r.meanwhile.foldl push d).settle r.outcome
    some { sent := [request], result, left }

variable {d : Delivery}

theorem flush?_of_pending_eq_nil (hfree : d.dispatch.IsFree) (hpending : d.pending = [])
    (r : Round) : d.flush? r = some { sent := [], result := .ok 0, left := d } := by
  have hstart := hfree.start_nothing hpending r.flush r.started
  simp only [flush?, ask, start, hstart]

/-- The number of messages is counted while they are in flight. -/
theorem settle_fst (d : Delivery) (outcome : Except UploadError Unit) :
    (d.settle outcome).1 = outcome.map fun _ => d.dispatch.inFlight.length := by
  cases outcome <;> rfl

theorem envelope_settle (d : Delivery) (outcome : Except UploadError Unit) :
    (d.settle outcome).2.envelope = d.envelope := by
  cases outcome <;> rfl

/-- A flush hands over the whole queue, returns what the transport answers, and leaves behind what
an upload leaves. -/
theorem flush?_of_pending_ne_nil (hfree : d.dispatch.IsFree) (hpending : d.pending ≠ [])
    (r : Round) :
    ∃ left, d.flush? r
        = some
          { sent := [d.envelope.request r.sent d.pending]
            result := r.outcome.map fun _ => d.pending.length
            left } ∧
      left.envelope = d.envelope ∧ left.dispatch = ((d.ask r.flush).upload r).2.dispatch := by
  have hstart := hfree.start_upload hpending r.flush r.started
  simp only [flush?, upload, ask, start, hstart, foldl_push, settle_fst]
  exact ⟨_, rfl, envelope_settle _ _, rfl⟩

/-! ## Flushes one after the other -/

/-- Flushes of which none has to wait. -/
def flushes? (d : Delivery) : List Round → Option (List Flushed)
  | [] => some []
  | r :: rest => do
    let first ← d.flush? r
    let others ← first.left.flushes? rest
    return first :: others

/-- An upload that failed, while nothing was queued. -/
def Round.IsFruitless (r : Round) : Prop := r.outcome.isOk = false ∧ r.meanwhile = []

/-- Such an upload leaves the queue as it was. -/
theorem exists_flush?_of_isFruitless (hfree : d.dispatch.IsFree) (hpending : d.pending ≠ [])
    {r : Round} (h : r.IsFruitless) :
    ∃ flushed, d.flush? r = some flushed ∧
      flushed.sent.map UploadRequest.payload = [payloadOf d.pending] ∧
      flushed.left.dispatch.IsFree ∧ flushed.left.pending = d.pending := by
  obtain ⟨hfailed, hmeanwhile⟩ := h
  obtain ⟨left, hflush, -, hleft⟩ := flush?_of_pending_ne_nil hfree hpending r
  obtain ⟨-, hdispatch⟩ := upload_of_pending_ne_nil hfree hpending r
  rw [hdispatch, hfailed, hmeanwhile, List.append_nil, if_neg Bool.false_ne_true] at hleft
  have hstill : left.dispatch.IsFree := by
    rw [hleft]
    exact ⟨rfl, rfl⟩
  have hqueue : left.pending = d.pending := by
    rw [pending, hleft]
  exact ⟨_, hflush, rfl, hstill, hqueue⟩

/-- The payload stays the same until an upload succeeds. -/
theorem payloads_of_failed (hfree : d.dispatch.IsFree) (hpending : d.pending ≠ [])
    {failed : List Round} (h : ∀ r ∈ failed, r.IsFruitless) (last : Round) :
    ∃ flushes, d.flushes? (failed ++ [last]) = some flushes ∧
      flushes.flatMap (·.sent.map UploadRequest.payload)
        = List.replicate (failed.length + 1) (payloadOf d.pending) := by
  induction failed generalizing d with
  | nil =>
    obtain ⟨left, hflush, -⟩ := flush?_of_pending_ne_nil hfree hpending last
    have hflushes : d.flushes? [last]
        = some [{ sent := [d.envelope.request last.sent d.pending]
                  result := last.outcome.map fun _ => d.pending.length
                  left }] := by
      simp [flushes?, hflush]
    exact ⟨_, hflushes, rfl⟩
  | cons r rest ih =>
    obtain ⟨flushed, hflush, hpayload, hstill, hqueue⟩ :=
      exists_flush?_of_isFruitless hfree hpending (h r List.mem_cons_self)
    obtain ⟨others, hothers, hpayloads⟩ :=
      ih hstill (hqueue ▸ hpending) fun r hmem => h r (List.mem_cons_of_mem _ hmem)
    refine ⟨flushed :: others, ?_, ?_⟩
    · simp [flushes?, hflush, hothers]
    · rw [List.flatMap_cons, hpayload, hpayloads, hqueue, List.length_cons, List.replicate_succ]
      rfl

/-- What becomes of the queue when it is flushed, for any messages in it. -/
structure HandsOver (d : Delivery) : Prop where
  /-- if the queue is empty, nothing is handed over, and nothing changes -/
  nothing : d.pending = [] → ∀ r, d.flush? r = some { sent := [], result := .ok 0, left := d }
  /-- otherwise there is one request, which carries all messages, and the flush returns their number
  or the error of the transport -/
  once : d.pending ≠ [] → ∀ r, ∃ request left,
    d.flush? r
      = some { sent := [request], result := r.outcome.map fun _ => d.pending.length, left } ∧
    d.envelope.Stamps r.sent request ∧ request.payload.Carries d.pending
  /-- after failed uploads, while nothing is queued, all the requests have carried one payload -/
  again : d.pending ≠ [] → ∃ payload : Payload, payload.Carries d.pending ∧
    ∀ failed last, (∀ r ∈ failed, r.outcome.isOk = false ∧ r.meanwhile = []) →
      ∃ flushes, d.flushes? (failed ++ [last]) = some flushes ∧
        flushes.flatMap (·.sent.map UploadRequest.payload)
          = List.replicate (failed.length + 1) payload

/-- While no other flush is under way, a flush hands over what is queued as one request that shows
every message in its place, and as long as uploads fail and nothing is queued, the same again. -/
theorem handed_over (d : Delivery) (hfree : d.dispatch.IsFree) : d.HandsOver where
  nothing hpending r := flush?_of_pending_eq_nil hfree hpending r
  once hpending r := by
    obtain ⟨left, hflush, -⟩ := flush?_of_pending_ne_nil hfree hpending r
    exact ⟨_, left, hflush, stamps_request _ _ _, carries_payloadOf d.pending⟩
  again hpending :=
    ⟨payloadOf d.pending, carries_payloadOf d.pending,
      fun _ last h => payloads_of_failed hfree hpending h last⟩

/-- A queue that holds content between labels, under several topics. -/
def assorted : Delivery :=
  let message (topic : String) (body : Body) : Message := { topic, body, addedAt := ⟨0⟩ }
  { create { appName := "shop", runId := "r1" } 600 false with
    dispatch := { queue := [message "labels" (.flattened ["a=1", "b=2"]),
      message "metric" (.structured (.ofInt 7)), message "labels" (.flattened []),
      message "tags" (.flattened ["c=3"])] } }

/-- Labels before, between and behind content are handed over in their order. -/
theorem handed_over_assorted :
    assorted.dispatch.IsFree ∧ assorted.pending ≠ [] ∧
      (payloadOf assorted.pending).labels = ["a=1", "b=2", "c=3"] ∧
      (payloadOf assorted.pending).messages.map (·.topic) = ["labels", "metric", "labels", "tags"] ∧
      assorted.HandsOver := by
  have hfree : assorted.dispatch.IsFree := ⟨rfl, rfl⟩
  exact ⟨hfree, List.cons_ne_nil _ _, rfl, rfl, handed_over assorted hfree⟩

end Delivery

end Telemetry
