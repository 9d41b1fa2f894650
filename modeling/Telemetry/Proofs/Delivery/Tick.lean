import Telemetry.Proofs.Delivery.Event
import Telemetry.Proofs.Delivery.Payload

/-!
# One tick of a flush loop

When the timer of a flush loop ticks, the loop looks first. With nothing to flush, or while the
backoff is running, that is all. Otherwise it drops what is too old, and flushes. While no other
flush is under way, its flush has the turn at once. It takes whatever is left as one batch, and when
its upload ends, the queue holds what was queued meanwhile, behind the batch if that is back.

Which messages are too old is said in numbers without bounds (`Message.isStale`). The cutoff that the
delivery works with cannot lie before the start of all time, and does not have to
(`Message.cutoff_le_iff`).
-/

namespace Telemetry.Delivery

/-! ## What is too old -/

/-- Whether a message was queued longer ago than messages are kept. -/
def Message.isStale (expiry : UInt64) (now : UnixTime) (m : Message) : Bool :=
  decide (m.addedAt.seconds.toNat + expiry.toNat < now.seconds.toNat)

/-- What is dropped is what is too old. -/
theorem Message.cutoff_le_iff {expiry : UInt64} {now : UnixTime} {m : Message} :
    (now.minusSeconds expiry).seconds ≤ m.addedAt.seconds ↔ m.isStale expiry now = false := by
  rw [UInt64.le_iff_toNat_le, UnixTime.toNat_minusSeconds, isStale, decide_eq_false_iff_not]
  omega

/-- What is too old remains so. -/
theorem Message.isStale_mono {expiry : UInt64} {earlier now : UnixTime}
    (hle : earlier.seconds ≤ now.seconds) {m : Message} (h : m.isStale expiry now = false) :
    m.isStale expiry earlier = false := by
  rw [UInt64.le_iff_toNat_le] at hle
  rw [isStale, decide_eq_false_iff_not] at h ⊢
  omega

/-- The messages that are not too old. -/
def kept (d : Delivery) (now : UnixTime) : List Message :=
  d.pending.filter fun m => !m.isStale d.expiry now

/-- The number of messages that are too old. -/
def staleCount (d : Delivery) (now : UnixTime) : Nat :=
  d.pending.countP (·.isStale d.expiry now)

theorem length_pending (d : Delivery) (now : UnixTime) :
    d.pending.length = d.staleCount now + (d.kept now).length := by
  rw [kept, ← List.countP_eq_length_filter, staleCount,
    List.length_eq_countP_add_countP (·.isStale d.expiry now)]
  simp

/-- What is too old is dropped and counted, wherever it stands, and all else keeps its place. -/
theorem expire_eq (d : Delivery) (now : UnixTime) :
    d.expire now
      = (d.staleCount now,
          { d with
            dispatch := { d.dispatch with queue := d.kept now }
            journal :=
              if d.staleCount now = 0 then d.journal
              else d.journal.info
                ("Dropped " ++ toString (d.staleCount now) ++ " expired messages") }) := by
  have hfilter : (d.dispatch.queue.filter fun m =>
      decide ((now.minusSeconds d.expiry).seconds ≤ m.addedAt.seconds)) = d.kept now := by
    refine List.filter_congr fun m _ => ?_
    rw [Bool.eq_iff_iff, decide_eq_true_eq, Message.cutoff_le_iff, Bool.not_eq_true']
  have hdropped : d.dispatch.queue.length - (d.kept now).length = d.staleCount now := by
    have hlength : d.dispatch.queue.length = d.staleCount now + (d.kept now).length :=
      d.length_pending now
    omega
  have hdispatch : d.dispatch.expire (now.minusSeconds d.expiry)
      = (d.staleCount now, { d.dispatch with queue := d.kept now }) := by
    rw [Dispatch.expire, hfilter, hdropped]
  simp only [expire, hdispatch]

/-- If nothing is too old, nothing is done. -/
theorem expire_eq_self {d : Delivery} {now : UnixTime}
    (h : ∀ m ∈ d.pending, m.isStale d.expiry now = false) : d.expire now = (0, d) := by
  have hnone : d.staleCount now = 0 := by
    rw [staleCount, List.countP_eq_zero]
    intro m hmem
    simp [h m hmem]
  have hkept : d.kept now = d.dispatch.queue := by
    refine List.filter_eq_self.mpr fun m hmem => ?_
    simp [h m hmem]
  rw [expire_eq, hnone, hkept, if_pos rfl]

/-- What was kept once is kept again, unless time has gone by. -/
theorem expire_expire (d : Delivery) {earlier now : UnixTime}
    (hle : earlier.seconds ≤ now.seconds) :
    (d.expire now).2.expire earlier = (0, (d.expire now).2) := by
  refine expire_eq_self fun m hmem => ?_
  rw [expire_eq] at hmem ⊢
  obtain ⟨-, hkept⟩ := List.mem_filter.mp hmem
  exact Message.isStale_mono hle (by simpa using hkept)

/-! ## Flushes that do not have to wait -/

/-- No flush is under way: none has the turn, and none is in line for it. -/
def Dispatch.IsFree (d : Dispatch) : Prop := d.turn = none ∧ d.waiting = []

namespace Dispatch

variable {d : Dispatch}

/-- A flush that finds nothing leaves no trace. -/
theorem IsFree.start_nothing (h : d.IsFree) (hqueue : d.queue = []) (flush : FlushId)
    (now : Instant) : (d.ask flush).start now = (.nothing flush, d) := by
  obtain ⟨queue, backoff, turn, waiting⟩ := d
  obtain ⟨rfl, rfl⟩ := h
  obtain rfl := hqueue
  rfl

/-- A flush takes the whole queue. -/
theorem IsFree.start_upload (h : d.IsFree) (hqueue : d.queue ≠ []) (flush : FlushId)
    (now : Instant) :
    (d.ask flush).start now
      = (.upload flush d.queue,
          { queue := [], backoff := d.backoff.attempt now
            turn := some { flush, batch := some d.queue } }) := by
  obtain ⟨queue, backoff, turn, waiting⟩ := d
  obtain ⟨rfl, rfl⟩ := h
  cases queue with
  | nil => exact absurd rfl hqueue
  | cons m rest => rfl

end Dispatch

/-- What a tick meets. -/
structure Round where
  flush : FlushId
  /-- the wall clock when old messages are dropped -/
  wall : UnixTime
  /-- the steady clock when the loop looks -/
  looked : Instant
  /-- both clocks when the upload starts, if there is one -/
  sent : UnixTime
  started : Instant
  /-- what is queued during the upload -/
  meanwhile : List Message
  /-- how the upload ends -/
  outcome : Except UploadError Unit

/-- The flush that has the turn starts, and its upload ends. Returns the uploads made. -/
def upload (d : Delivery) (r : Round) : List UploadRequest × Delivery :=
  match d.start r.sent r.started with
  | (.uploading _ request, d) => ([request], ((r.meanwhile.foldl push d).settle r.outcome).2)
  | (.idle, d) | (.done _, d) => ([], d)

theorem upload_of_pending_eq_nil {d : Delivery} (hfree : d.dispatch.IsFree)
    (hpending : d.pending = []) (r : Round) : (d.ask r.flush).upload r = ([], d) := by
  have hstart := hfree.start_nothing hpending r.flush r.started
  simp only [upload, ask, start, hstart]

theorem upload_of_pending_ne_nil {d : Delivery} (hfree : d.dispatch.IsFree)
    (hpending : d.pending ≠ []) (r : Round) :
    ((d.ask r.flush).upload r).1 = [d.envelope.request r.sent d.pending] ∧
      ((d.ask r.flush).upload r).2.dispatch
        = if r.outcome.isOk then
            { queue := r.meanwhile, backoff := (d.dispatch.backoff.attempt r.started).succeed }
          else
            { queue := d.pending ++ r.meanwhile
              backoff := (d.dispatch.backoff.attempt r.started).fail } := by
  have hstart := hfree.start_upload hpending r.flush r.started
  simp only [upload, ask, start, hstart, foldl_push]
  refine ⟨rfl, (dispatch_after _ (.settle r.outcome)).trans ?_⟩
  rw [Event.step, Dispatch.apply, Dispatch.settle]
  cases r.outcome.isOk <;> rfl

/-! ## Ticks -/

/-- A tick together with the flush that it may ask for. Returns the uploads made. -/
def round (d : Delivery) (r : Round) : List UploadRequest × Delivery :=
  match d.tick r.flush r.wall r.looked with
  | (false, d) => ([], d)
  | (true, d) => d.upload r

theorem isDue_iff {d : Delivery} {now : Instant} :
    d.dispatch.isDue now = true ↔ d.pending ≠ [] ∧ d.isReady now = true := by
  rw [Dispatch.isDue, Bool.and_eq_true, Bool.not_eq_true', List.isEmpty_eq_false_iff]
  rfl

theorem round_of_not_isDue {d : Delivery} {r : Round} (h : ¬ d.dispatch.isDue r.looked = true) :
    d.round r = ([], d) := by
  rw [round, tick, if_neg h]

theorem round_of_isDue {d : Delivery} {r : Round} (h : d.dispatch.isDue r.looked = true) :
    d.round r = ((d.expire r.wall).2.ask r.flush).upload r := by
  rw [round, tick, if_pos h]

/-- What one tick does, for any messages in the queue. -/
structure Round.Tidy (d : Delivery) (r : Round) : Prop where
  /-- with nothing in the queue, or while the backoff is running, nothing happens -/
  idle : d.pending = [] ∨ d.isReady r.looked = false → d.round r = ([], d)
  /-- if everything is too old, it is dropped, and nothing else happens -/
  spent : d.pending ≠ [] → d.isReady r.looked = true → d.kept r.wall = [] →
    d.round r = ([], (d.expire r.wall).2)
  /-- otherwise there is one upload, and it carries all that is not too old, in its order -/
  sent : d.pending ≠ [] → d.isReady r.looked = true → d.kept r.wall ≠ [] →
    ∃ request, (d.round r).1 = [request] ∧
      d.envelope.Stamps r.sent request ∧ request.payload.Carries (d.kept r.wall)
  /-- then the queue holds what was queued meanwhile, behind the batch if the upload failed -/
  left : d.pending ≠ [] → d.isReady r.looked = true → d.kept r.wall ≠ [] →
    (d.round r).2.dispatch
      = if r.outcome.isOk then
          { queue := r.meanwhile, backoff := (d.dispatch.backoff.attempt r.started).succeed }
        else
          { queue := d.kept r.wall ++ r.meanwhile
            backoff := (d.dispatch.backoff.attempt r.started).fail }

/-- While no other flush is under way, a tick does nothing, or it drops what is too old and uploads
what is left. To drop what is too old is to count it, and there is nothing to be dropped a second time
unless time has gone by. -/
theorem tick_tidy (d : Delivery) (hfree : d.dispatch.IsFree) (r : Round) :
    r.Tidy d ∧
      ∀ now, (d.expire now).1 = d.pending.countP (·.isStale d.expiry now) ∧
        (d.expire now).2.pending = d.pending.filter (fun m => !m.isStale d.expiry now) ∧
        ∀ earlier : UnixTime, earlier.seconds ≤ now.seconds →
          (d.expire now).2.expire earlier = (0, (d.expire now).2) := by
  have hexpired : (d.expire r.wall).2.dispatch = { d.dispatch with queue := d.kept r.wall } := by
    rw [expire_eq]
  have hpending : (d.expire r.wall).2.pending = d.kept r.wall := congrArg Dispatch.queue hexpired
  have henvelope : (d.expire r.wall).2.envelope = d.envelope := by
    rw [expire_eq]
  have hstill : (d.expire r.wall).2.dispatch.IsFree := by
    rw [hexpired]
    exact hfree
  refine ⟨⟨?idle, ?spent, ?sent, ?left⟩, fun now => ?expire⟩
  case idle =>
    rintro hidle
    refine round_of_not_isDue fun hdue => ?_
    obtain ⟨hsome, hready⟩ := isDue_iff.mp hdue
    rcases hidle with hnone | hwaiting
    · exact hsome hnone
    · rw [hready] at hwaiting
      cases hwaiting
  case spent =>
    intro hsome hready hkept
    rw [round_of_isDue (isDue_iff.mpr ⟨hsome, hready⟩)]
    exact upload_of_pending_eq_nil hstill (hpending.trans hkept) r
  case sent =>
    intro hsome hready hkept
    obtain ⟨hsent, -⟩ := upload_of_pending_ne_nil hstill (by rwa [hpending]) r
    rw [hpending, henvelope] at hsent
    rw [round_of_isDue (isDue_iff.mpr ⟨hsome, hready⟩), hsent]
    exact ⟨_, rfl, stamps_request _ _ _, carries_payloadOf _⟩
  case left =>
    intro hsome hready hkept
    obtain ⟨-, hleft⟩ := upload_of_pending_ne_nil hstill (by rwa [hpending]) r
    rw [round_of_isDue (isDue_iff.mpr ⟨hsome, hready⟩), hleft, hpending, hexpired]
  case expire =>
    refine ⟨?_, ?_, fun earlier hle => d.expire_expire hle⟩
    · rw [expire_eq]
      rfl
    · rw [expire_eq]
      rfl

/-- A queue in which what is too old stands between what is not, one message of which is from the
future and one just as old as a message may be. -/
def mixed : Delivery :=
  let message (seconds : UInt64) (body : Body) : Message :=
    { topic := "at " ++ toString seconds.toNat, body, addedAt := ⟨seconds⟩ }
  { create { appName := "shop" } 600 false with
    dispatch := { queue := [message 5000 (.structured (.ofInt 7)), message 399 (.flattened ["a=1"]),
      message 400 (.flattened ["b=2"]), message 0 (.structured .null)] } }

/-- A tick at which the upload fails while a message is queued. -/
def rejected : Round :=
  { flush := 0, wall := ⟨1000⟩, looked := ⟨0⟩, sent := ⟨1000⟩, started := ⟨0⟩
    meanwhile := mixed.pending.take 1, outcome := .error (.rejected "503") }

theorem tick_tidy_mixed :
    mixed.dispatch.IsFree ∧ (mixed.kept ⟨1000⟩).map (·.addedAt.seconds) = [5000, 400] ∧
      (∃ request, (mixed.round rejected).1 = [request] ∧ request.appName = "shop" ∧
        request.payload.messages.map (·.topic) = ["at 5000", "at 400"] ∧
        request.payload.labels = ["b=2"] ∧ request.payload.Carries (mixed.kept ⟨1000⟩)) ∧
      (mixed.round rejected).2.pending.map (·.addedAt.seconds) = [5000, 400, 5000] ∧
      rejected.Tidy mixed := by
  have hfree : mixed.dispatch.IsFree := ⟨rfl, rfl⟩
  obtain ⟨htidy, -⟩ := tick_tidy mixed hfree rejected
  obtain ⟨request, hsent, hstamps, hcarries⟩ :=
    htidy.sent (List.cons_ne_nil _ _) rfl (List.ne_nil_of_length_pos (by decide))
  refine ⟨hfree, by decide, ⟨request, hsent, hstamps.appName, ?_, hcarries.labels, hcarries⟩,
    by decide, htidy⟩
  obtain rfl := List.singleton_inj.mp hsent
  decide

end Telemetry.Delivery
