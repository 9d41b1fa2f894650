import Telemetry.Proofs.Delivery.Event

/-!
# No message is lost, doubled or overtaken

A ledger lists every message that a dispatch was ever given, in the order in which they came, each
with what has become of it: it waits, it is being uploaded, it was delivered, or it was dropped
because it was too old. A message has its place in the ledger for good, so two messages that look
the same are still two, and nothing but its fate ever changes.

The invariant (`Balanced`) says that the dispatch holds exactly what its ledger says it holds, and
that among the messages not dropped the delivered ones come first, then those being uploaded, then
those that wait. The second part is what makes a batch that goes back to the queue fit in front of
the messages that were queued meanwhile. Each step of a dispatch keeps the invariant
(`Balanced.apply`), and so does each run (`History.balanced_of`).
-/

namespace Telemetry.Delivery

/-- What has become of a message. -/
inductive Fate where
  /-- it was uploaded, and the upload succeeded -/
  | delivered
  /-- it is part of the batch being uploaded -/
  | uploading
  /-- it is in the queue -/
  | waiting
  /-- it was dropped -/
  | dropped
  deriving DecidableEq, Repr

/-- How far a message has come, counted from the front. -/
def Fate.rank : Fate → Nat
  | .delivered => 0
  | .uploading => 1
  | .waiting => 2
  | .dropped => 3

/-- Whether a message with the first fate may stand before one with the second. Where dropped
messages stand does not matter. -/
def Fate.Before (first second : Fate) : Prop :=
  first = .dropped ∨ second = .dropped ∨ first.rank ≤ second.rank

instance (first second : Fate) : Decidable (first.Before second) :=
  inferInstanceAs (Decidable (_ ∨ _ ∨ _))

theorem Fate.before_waiting (fate : Fate) : fate.Before .waiting := by
  cases fate <;> decide

/-- All messages ever queued, oldest first, each with its fate. -/
abbrev Ledger := List (Message × Fate)

namespace Ledger

/-- The messages whose entries pass a test. -/
def pick (p : Message × Fate → Bool) (l : Ledger) : List Message :=
  (l.filter p).map Prod.fst

/-- The messages with a fate. -/
def having (fate : Fate) (l : Ledger) : List Message := l.pick fun entry => entry.2 = fate

/-- The messages that were not dropped. -/
def kept (l : Ledger) : List Message := l.pick fun entry => entry.2 ≠ .dropped

/-- Change fates. -/
def revise (f : Message → Fate → Fate) (l : Ledger) : Ledger :=
  l.map fun entry => (entry.1, f entry.1 entry.2)

/-- The messages that wait are taken for an upload. -/
def detach (l : Ledger) : Ledger :=
  l.revise fun _ fate => if fate = .waiting then .uploading else fate

/-- It is decided what becomes of the messages being uploaded. -/
def resolve (outcome : Fate) (l : Ledger) : Ledger :=
  l.revise fun _ fate => if fate = .uploading then outcome else fate

/-- The messages that wait and were added before a time are dropped. -/
def expire (cutoff : UnixTime) (l : Ledger) : Ledger :=
  l.revise fun m fate =>
    if fate = .waiting ∧ m.addedAt.seconds < cutoff.seconds then .dropped else fate

/-- Enter how a flush started. -/
def enterStart (l : Ledger) : Start → Ledger
  | .upload _ _ => l.detach
  | .idle | .nothing _ => l

/-- Enter what a step does to the messages of a dispatch. -/
def enter (d : Dispatch) (l : Ledger) : Dispatch.Step → Ledger
  | .push m => l ++ [(m, .waiting)]
  | .expire cutoff => l.expire cutoff
  | .ask _ => l
  | .start now => l.enterStart (d.start now).1
  | .settle true => l.resolve .delivered
  | .settle false => l.resolve .waiting
  | .cancel flush =>
    if d.turn.any (·.flush = flush) then l.resolve .waiting else l

/-- The messages not dropped are in the order of their fates. -/
def InOrder (l : Ledger) : Prop :=
  l.Pairwise fun first second => first.2.Before second.2

/-! ## What is picked -/

@[simp] theorem pick_append (p : Message × Fate → Bool) (l l' : Ledger) :
    (l ++ l').pick p = l.pick p ++ l'.pick p := by
  simp [pick]

theorem pick_revise (p : Message × Fate → Bool) (f : Message → Fate → Fate) (l : Ledger) :
    (l.revise f).pick p = l.pick fun entry => p (entry.1, f entry.1 entry.2) := by
  simp [pick, revise, List.filter_map, Function.comp_def]

/-- The messages of a ledger, in the order in which they came. -/
def messages (l : Ledger) : List Message := l.map Prod.fst

@[simp] theorem messages_revise (f : Message → Fate → Fate) (l : Ledger) :
    (l.revise f).messages = l.messages := by
  simp [messages, revise, Function.comp_def]

@[simp] theorem messages_detach (l : Ledger) : l.detach.messages = l.messages :=
  messages_revise _ l

@[simp] theorem messages_resolve (outcome : Fate) (l : Ledger) :
    (l.resolve outcome).messages = l.messages :=
  messages_revise _ l

@[simp] theorem messages_expire (cutoff : UnixTime) (l : Ledger) :
    (l.expire cutoff).messages = l.messages :=
  messages_revise _ l

theorem pick_filter (p : Message × Fate → Bool) (q : Message → Bool) (l : Ledger) :
    (l.pick p).filter q = l.pick fun entry => p entry && q entry.1 := by
  simp [pick, List.filter_map, Function.comp_def, List.filter_filter, Bool.and_comm]

/-- What passes one of two tests is what passes the first and then what passes the second, if no
entry that passes the second stands before one that passes the first. -/
theorem pick_or {p q : Message × Fate → Bool} {l : Ledger}
    (hdisj : ∀ entry, p entry → q entry → False)
    (hord : l.Pairwise fun first second => q first → p second → False) :
    (l.pick fun entry => p entry || q entry) = l.pick p ++ l.pick q := by
  induction l with
  | nil => rfl
  | cons entry l ih =>
    obtain ⟨hfirst, hrest⟩ := List.pairwise_cons.mp hord
    have ih := ih hrest
    simp only [pick] at ih ⊢
    cases hp : p entry with
    | true =>
      have hq : q entry = false := by
        cases hq : q entry with
        | false => rfl
        | true => exact (hdisj entry hp hq).elim
      simp [hp, hq, ih]
    | false =>
      cases hq : q entry with
      | false => simp [hp, hq, ih]
      | true =>
        -- the first entry passes the second test, so nothing behind it passes the first
        have hnone : l.filter p = [] := by
          rw [List.filter_eq_nil_iff]
          intro other hmem hpo
          exact hfirst other hmem hq hpo
        simp [hp, hq, hnone] at ih ⊢
        exact ih

/-! ## What is in order -/

/-- Messages that have come further stand in front of the others. -/
theorem InOrder.pick_or {l : Ledger} (h : l.InOrder) {first second : Fate}
    (hlt : ¬ second.Before first) :
    (l.pick fun entry => entry.2 = first || entry.2 = second)
      = l.having first ++ l.having second := by
  refine Ledger.pick_or ?_ ?_
  · intro entry hfirst hsecond
    rw [of_decide_eq_true hfirst] at hsecond
    rw [of_decide_eq_true hsecond] at hlt
    exact hlt (.inr (.inr (Nat.le_refl _)))
  · refine h.imp fun {a b} hab hsecond hfirst => ?_
    rw [of_decide_eq_true hsecond, of_decide_eq_true hfirst] at hab
    exact hlt hab

/-- In a ledger in order the messages not dropped are the delivered ones, then those being uploaded,
then those that wait. -/
theorem InOrder.kept_eq {l : Ledger} (h : l.InOrder) :
    l.kept = l.having .delivered ++ l.having .uploading ++ l.having .waiting := by
  have hlate : (l.pick fun entry => entry.2 = .uploading || entry.2 = .waiting)
      = l.having .uploading ++ l.having .waiting := h.pick_or (by decide)
  have hkept : l.kept = l.pick fun entry =>
      decide (entry.2 = .delivered) || (entry.2 = .uploading || entry.2 = .waiting) := by
    rw [kept]
    congr 1
    funext ⟨m, fate⟩
    cases fate <;> rfl
  rw [hkept, List.append_assoc, ← hlate]
  refine Ledger.pick_or ?_ ?_
  · rintro ⟨m, fate⟩ hfirst hsecond
    cases fate <;> simp_all
  · refine h.imp fun {a b} hab hsecond hfirst => ?_
    rw [of_decide_eq_true hfirst] at hab
    simp only [Bool.or_eq_true, decide_eq_true_eq] at hsecond
    rcases hsecond with hsecond | hsecond <;> rw [hsecond] at hab <;> revert hab <;> decide

/-- A change of fates that keeps their order keeps a ledger in order. -/
theorem InOrder.revise {l : Ledger} (h : l.InOrder) {f : Message → Fate → Fate}
    (hf : ∀ (m m' : Message) (first second : Fate),
      first.Before second → (f m first).Before (f m' second)) :
    (l.revise f).InOrder := by
  rw [InOrder, Ledger.revise, List.pairwise_map]
  exact h.imp fun {a b} hab => hf a.1 b.1 a.2 b.2 hab

theorem InOrder.detach {l : Ledger} (h : l.InOrder) : l.detach.InOrder := by
  -- what waits moves up by one rank at a time, so nothing overtakes it
  refine h.revise fun _ _ first second hbefore => ?_
  cases first <;> cases second <;> revert hbefore <;> decide

/-- A batch may be delivered, or go back to those that wait. -/
theorem InOrder.resolve {l : Ledger} (h : l.InOrder) {outcome : Fate}
    (ho : outcome = .delivered ∨ outcome = .waiting) : (l.resolve outcome).InOrder := by
  refine h.revise fun _ _ first second hbefore => ?_
  rcases ho with rfl | rfl <;> cases first <;> cases second <;> revert hbefore <;> decide

theorem InOrder.expire {l : Ledger} (h : l.InOrder) (cutoff : UnixTime) :
    (l.expire cutoff).InOrder := by
  refine h.revise fun m m' first second hbefore => ?_
  -- a dropped message may stand anywhere, and the others keep their fates
  by_cases hfirst : first = .waiting ∧ m.addedAt.seconds < cutoff.seconds
  · rw [if_pos hfirst]
    exact .inl rfl
  · rw [if_neg hfirst]
    by_cases hsecond : second = .waiting ∧ m'.addedAt.seconds < cutoff.seconds
    · rw [if_pos hsecond]
      exact .inr (.inl rfl)
    · rw [if_neg hsecond]
      exact hbefore

theorem InOrder.push {l : Ledger} (h : l.InOrder) (m : Message) :
    InOrder (l ++ [(m, .waiting)]) := by
  refine List.pairwise_append.mpr ⟨h, List.pairwise_singleton _ _, ?_⟩
  rintro ⟨m', fate⟩ - entry hentry
  obtain rfl := List.mem_singleton.mp hentry
  exact fate.before_waiting

/-! ## What revisions do to the messages of a fate -/

@[simp] theorem having_push (fate : Fate) (l : Ledger) (m : Message) :
    having fate (l ++ [(m, .waiting)]) = l.having fate ++ if fate = .waiting then [m] else [] := by
  simp only [having]
  rw [pick_append]
  by_cases h : fate = .waiting
  · subst h
    simp [pick]
  · simp [pick, h, Ne.symm h]

/-- A revision that neither gives a fate nor takes it leaves its messages alone. -/
theorem having_revise_congr {f : Message → Fate → Fate} {fate : Fate} (l : Ledger)
    (hf : ∀ m old, f m old = fate ↔ old = fate) : (l.revise f).having fate = l.having fate := by
  rw [having, pick_revise, having]
  congr 1
  funext entry
  exact decide_eq_decide.mpr (hf entry.1 entry.2)

/-- No message has a fate that a revision never gives. -/
theorem having_revise_eq_nil {f : Message → Fate → Fate} {fate : Fate} (l : Ledger)
    (hf : ∀ m old, f m old ≠ fate) : (l.revise f).having fate = [] := by
  rw [having, pick_revise, pick, List.map_eq_nil_iff, List.filter_eq_nil_iff]
  intro entry _ hfate
  exact hf entry.1 entry.2 (of_decide_eq_true hfate)

/-- Messages that are neither being uploaded nor get the fate decided are left alone. -/
theorem having_resolve_of_ne {outcome fate : Fate} (l : Ledger) (hu : fate ≠ .uploading)
    (ho : fate ≠ outcome) : (l.resolve outcome).having fate = l.having fate := by
  refine l.having_revise_congr fun _ old => ?_
  by_cases h : old = .uploading <;> simp [h, Ne.symm hu, Ne.symm ho]

theorem having_uploading_resolve {outcome : Fate} (l : Ledger) (ho : outcome ≠ .uploading) :
    (l.resolve outcome).having .uploading = [] := by
  refine l.having_revise_eq_nil fun _ old => ?_
  by_cases h : old = .uploading <;> simp [h, ho]

theorem pick_resolve_self {outcome : Fate} (l : Ledger) :
    (l.resolve outcome).having outcome
      = l.pick fun entry => entry.2 = .uploading || entry.2 = outcome := by
  rw [having, resolve, pick_revise]
  congr 1
  funext ⟨m, old⟩
  by_cases h : old = .uploading <;> simp [h]

theorem InOrder.having_resolve_waiting {l : Ledger} (h : l.InOrder) :
    (l.resolve .waiting).having .waiting = l.having .uploading ++ l.having .waiting := by
  rw [pick_resolve_self]
  exact h.pick_or (by decide)

theorem InOrder.having_resolve_delivered {l : Ledger} (h : l.InOrder) :
    (l.resolve .delivered).having .delivered = l.having .delivered ++ l.having .uploading := by
  rw [pick_resolve_self, ← h.pick_or (by decide)]
  congr 1
  funext entry
  exact Bool.or_comm _ _

theorem having_detach_of_ne {fate : Fate} (l : Ledger) (hu : fate ≠ .uploading)
    (hw : fate ≠ .waiting) : l.detach.having fate = l.having fate := by
  refine l.having_revise_congr fun _ old => ?_
  by_cases h : old = .waiting <;> simp [h, Ne.symm hu, Ne.symm hw]

theorem having_waiting_detach (l : Ledger) : l.detach.having .waiting = [] := by
  refine l.having_revise_eq_nil fun _ old => ?_
  by_cases h : old = .waiting <;> simp [h]

theorem InOrder.having_uploading_detach {l : Ledger} (h : l.InOrder) :
    l.detach.having .uploading = l.having .uploading ++ l.having .waiting := by
  rw [← h.pick_or (by decide), having, Ledger.detach, pick_revise]
  congr 1
  funext ⟨m, old⟩
  by_cases hw : old = .waiting <;> simp [hw]

theorem having_expire_of_ne {fate : Fate} (l : Ledger) (cutoff : UnixTime) (hw : fate ≠ .waiting)
    (hd : fate ≠ .dropped) : (l.expire cutoff).having fate = l.having fate := by
  refine l.having_revise_congr fun m old => ?_
  by_cases h : old = .waiting ∧ m.addedAt.seconds < cutoff.seconds
  · simp [h, Ne.symm hd, Ne.symm hw]
  · simp [h]

theorem having_waiting_expire (l : Ledger) (cutoff : UnixTime) :
    (l.expire cutoff).having .waiting
      = (l.having .waiting).filter fun m => decide (cutoff.seconds ≤ m.addedAt.seconds) := by
  simp only [having, expire]
  rw [pick_revise, pick_filter]
  congr 1
  funext ⟨m, old⟩
  by_cases hw : old = .waiting
  · by_cases ho : m.addedAt.seconds < cutoff.seconds
    · simp [hw, ho, UInt64.not_le]
    · simp [hw, ho, UInt64.not_lt.mp ho]
  · simp [hw]

/-- Messages that are dropped waited before. -/
theorem length_having_dropped_expire (l : Ledger) (cutoff : UnixTime) :
    ((l.expire cutoff).having .dropped).length + ((l.expire cutoff).having .waiting).length
      = (l.having .dropped).length + (l.having .waiting).length := by
  induction l with
  | nil => rfl
  | cons entry l ih =>
    obtain ⟨m, fate⟩ := entry
    simp only [having, pick, expire, revise, List.length_map, List.map_cons] at ih ⊢
    -- an entry that changes is taken from one count and added to the other
    by_cases ho : m.addedAt.seconds < cutoff.seconds
    · cases fate <;> simp [ho] at ih ⊢ <;> omega
    · cases fate <;> simp [ho] at ih ⊢ <;> omega

end Ledger

/-! ## The invariant -/

/-- A dispatch holds what its ledger says, and `acknowledged` is what the ledger has as delivered. -/
structure Balanced (acknowledged : List Message) (l : Ledger) (d : Dispatch) : Prop where
  delivered : l.having .delivered = acknowledged
  inFlight : l.having .uploading = d.inFlight
  queue : l.having .waiting = d.queue
  inOrder : l.InOrder

namespace Balanced

variable {acknowledged : List Message} {l : Ledger} {d : Dispatch}

theorem start : Balanced [] [] {} :=
  ⟨rfl, rfl, rfl, List.Pairwise.nil⟩

/-- What was acknowledged, what is being uploaded and what waits is all that was not dropped, in the
order in which it came. -/
theorem kept_eq (h : Balanced acknowledged l d) : acknowledged ++ d.inFlight ++ d.queue = l.kept := by
  rw [h.inOrder.kept_eq, h.delivered, h.inFlight, h.queue]

/-- Who has the turn next does not matter to the messages, once no batch is held any more. -/
theorem pass (hd : l.having .delivered = acknowledged) (hu : l.having .uploading = [])
    (hq : l.having .waiting = d.queue) (ho : l.InOrder) : Balanced acknowledged l d.pass :=
  ⟨hd, by rw [hu, Dispatch.inFlight_pass], by rw [hq, Dispatch.queue_pass], ho⟩

theorem push (h : Balanced acknowledged l d) (m : Message) :
    Balanced acknowledged (l ++ [(m, .waiting)]) (d.push m) := by
  refine ⟨?_, ?_, ?_, h.inOrder.push m⟩
  · rw [Ledger.having_push, h.delivered, if_neg (by decide), List.append_nil]
  · rw [Ledger.having_push, h.inFlight, if_neg (by decide), List.append_nil]
    rfl
  · rw [Ledger.having_push, h.queue, if_pos rfl]
    rfl

theorem expire (h : Balanced acknowledged l d) (cutoff : UnixTime) :
    Balanced acknowledged (l.expire cutoff) (d.expire cutoff).2 := by
  refine ⟨?_, ?_, ?_, h.inOrder.expire cutoff⟩
  · rw [Ledger.having_expire_of_ne l cutoff (by decide) (by decide), h.delivered]
  · rw [Ledger.having_expire_of_ne l cutoff (by decide) (by decide), h.inFlight]
    rfl
  · rw [Ledger.having_waiting_expire, h.queue]
    rfl

theorem ask (h : Balanced acknowledged l d) (flush : FlushId) :
    Balanced acknowledged l (d.ask flush) := by
  refine ⟨h.delivered, ?_, ?_, h.inOrder⟩
  · rw [h.inFlight, Dispatch.ask, Dispatch.inFlight]
    cases d.turn <;> rfl
  · rw [h.queue, Dispatch.ask]
    cases d.turn <;> rfl

/-- The whole queue becomes the batch of a flush that holds none yet. -/
theorem take (h : Balanced acknowledged l d) {flush : FlushId}
    (hturn : d.turn = some { flush, batch := none }) (backoff : Backoff) :
    Balanced acknowledged l.detach
      { d with queue := [], turn := some { flush, batch := some d.queue }, backoff } := by
  have hnone : l.having .uploading = [] := by rw [h.inFlight, Dispatch.inFlight, hturn]
  refine ⟨?_, ?_, l.having_waiting_detach, h.inOrder.detach⟩
  · rw [Ledger.having_detach_of_ne l (by decide) (by decide), h.delivered]
  · rw [h.inOrder.having_uploading_detach, hnone, h.queue]
    rfl

theorem begin (h : Balanced acknowledged l d) (now : Instant) :
    Balanced acknowledged (l.enter d (.start now)) (d.start now).2 := by
  change Balanced acknowledged (l.enterStart (d.start now).1) (d.start now).2
  rcases d.start_cases now with ⟨flush, hturn, -, hstart⟩ | ⟨flush, hturn, -, hstart⟩ | ⟨-, hstart⟩
  · rw [hstart]
    exact h.take hturn (d.backoff.attempt now)
  · have hnone : l.having .uploading = [] := by rw [h.inFlight, Dispatch.inFlight, hturn]
    rw [hstart]
    exact pass h.delivered hnone h.queue h.inOrder
  · rw [hstart]
    exact h

/-- The batch is delivered. -/
theorem deliver (h : Balanced acknowledged l d) (backoff : Backoff) :
    Balanced (acknowledged ++ d.inFlight) (l.resolve .delivered) { d with backoff }.pass := by
  refine pass ?_ (l.having_uploading_resolve (by decide)) ?_ (h.inOrder.resolve (.inl rfl))
  · rw [h.inOrder.having_resolve_delivered, h.delivered, h.inFlight]
  · rw [Ledger.having_resolve_of_ne l (by decide) (by decide), h.queue]

/-- The batch goes back in front of what was queued meanwhile. -/
theorem putBack (h : Balanced acknowledged l d) (backoff : Backoff) :
    Balanced acknowledged (l.resolve .waiting)
      { d with queue := d.inFlight ++ d.queue, backoff }.pass := by
  -- the messages of the batch are older than all that wait, so the front is where they belong
  refine pass ?_ (l.having_uploading_resolve (by decide)) ?_ (h.inOrder.resolve (.inr rfl))
  · rw [Ledger.having_resolve_of_ne l (by decide) (by decide), h.delivered]
  · rw [h.inOrder.having_resolve_waiting, h.inFlight, h.queue]

/-- Without a batch there is nothing to decide. -/
theorem resolve_of_idle (h : Balanced acknowledged l d) (hidle : d.inFlight = []) (outcome : Fate) :
    l.resolve outcome = l := by
  have hnone : l.having .uploading = [] := by rw [h.inFlight, hidle]
  simp only [Ledger.having, Ledger.pick, List.map_eq_nil_iff, List.filter_eq_nil_iff,
    decide_eq_true_eq] at hnone
  refine (List.map_congr_left fun entry hmem => ?_).trans (List.map_id l)
  have hfate : entry.2 ≠ .uploading := hnone entry hmem
  simp [hfate]

theorem settle (h : Balanced acknowledged l d) (succeeded : Bool) :
    Balanced (acknowledged ++ d.acknowledgedBy (.settle succeeded)) (l.enter d (.settle succeeded))
      (d.settle succeeded) := by
  rcases d.settle_cases succeeded with ⟨flush, batch, hturn, hsettle⟩ | ⟨hidle, hsettle⟩
  · have hbatch : batch = d.inFlight := by rw [Dispatch.inFlight, hturn]
    rw [hsettle, hbatch]
    cases succeeded with
    | true => exact h.deliver d.backoff.succeed
    | false =>
      -- nothing is acknowledged by an upload that failed
      rw [Dispatch.acknowledgedBy, List.append_nil]
      · exact h.putBack d.backoff.fail
      · intro heq
        cases heq
  · rw [hsettle]
    cases succeeded with
    | true =>
      rw [Dispatch.acknowledgedBy, hidle, List.append_nil, Ledger.enter, h.resolve_of_idle hidle]
      exact h
    | false =>
      rw [Dispatch.acknowledgedBy, List.append_nil, Ledger.enter, h.resolve_of_idle hidle]
      · exact h
      · intro heq
        cases heq

theorem cancel (h : Balanced acknowledged l d) (flush : FlushId) :
    Balanced acknowledged (l.enter d (.cancel flush)) (d.cancel flush) := by
  rw [Ledger.enter]
  rcases d.cancel_cases flush with ⟨hturn, hcancel⟩ | ⟨hturn, waiting, hcancel⟩
  · rw [if_pos hturn, hcancel]
    exact h.putBack d.backoff
  · rw [hturn, if_neg (by decide), hcancel]
    exact ⟨h.delivered, h.inFlight, h.queue, h.inOrder⟩

/-- A step that acknowledges nothing. -/
theorem quiet (h : Balanced acknowledged l d) : Balanced (acknowledged ++ []) l d := by
  rw [List.append_nil]
  exact h

/-- Every step keeps the books balanced. -/
theorem apply (h : Balanced acknowledged l d) (step : Dispatch.Step) :
    Balanced (acknowledged ++ d.acknowledgedBy step) (l.enter d step) (d.apply step) := by
  cases step with
  | push m => exact (h.push m).quiet
  | expire cutoff => exact (h.expire cutoff).quiet
  | ask flush => exact (h.ask flush).quiet
  | start now => exact (h.begin now).quiet
  | settle succeeded => exact h.settle succeeded
  | cancel flush => exact (h.cancel flush).quiet

end Balanced

/-! ## Runs -/

/-- A delivery with the books of its run. -/
structure History where
  delivery : Delivery
  /-- every message pushed so far and what has become of it -/
  ledger : Ledger := []
  /-- the messages of the acknowledged batches, in the order of acknowledgement -/
  acknowledged : List Message := []
  /-- how many messages were reported as dropped -/
  dropped : Nat := 0

namespace History

/-- The number of messages that an event reports as dropped. -/
def droppedBy (d : Delivery) : Event → Nat
  | .expire now => (d.expire now).1
  | _ => 0

/-- The next event of a run. -/
def next (h : History) (e : Event) : History :=
  let step := e.step h.delivery.expiry
  { delivery := h.delivery.after e
    ledger := h.ledger.enter h.delivery.dispatch step
    acknowledged := h.acknowledged ++ h.delivery.dispatch.acknowledgedBy step
    dropped := h.dropped + droppedBy h.delivery e }

/-- A run from the start of a delivery. -/
def of (envelope : Envelope) (expiry : UInt64) (debug : Bool) (events : List Event) : History :=
  events.foldl next { delivery := Delivery.create envelope expiry debug }

theorem balanced_next {h : History}
    (hb : Balanced h.acknowledged h.ledger h.delivery.dispatch) (e : Event) :
    Balanced (h.next e).acknowledged (h.next e).ledger (h.next e).delivery.dispatch := by
  have hstep := hb.apply (e.step h.delivery.expiry)
  rw [← dispatch_after] at hstep
  exact hstep

theorem messages_next (h : History) (e : Event) :
    (h.next e).ledger.messages = h.ledger.messages ++ e.pushed := by
  rw [next]
  cases e with
  | push m => simp [Ledger.enter, Event.step, Event.pushed, Ledger.messages]
  | enqueue now topic content => simp [Ledger.enter, Event.step, Event.pushed, Ledger.messages]
  | enqueueFlat now topic labels => simp [Ledger.enter, Event.step, Event.pushed, Ledger.messages]
  | expire now => simp [Ledger.enter, Event.step, Event.pushed]
  | ask flush => simp [Ledger.enter, Event.step, Event.pushed]
  | start wall steady =>
    simp only [Event.step, Event.pushed, Ledger.enter, List.append_nil]
    cases (h.delivery.dispatch.start steady).1 <;> simp [Ledger.enterStart]
  | settle outcome =>
    simp only [Event.step, Event.pushed, List.append_nil]
    cases outcome.isOk <;> simp [Ledger.enter]
  | cancel flush =>
    simp only [Event.step, Event.pushed, Ledger.enter, List.append_nil]
    split <;> simp

/-- What an event reports as dropped is what the ledger has as dropped by it. -/
theorem length_having_dropped_next {h : History}
    (hb : Balanced h.acknowledged h.ledger h.delivery.dispatch) (e : Event) :
    ((h.next e).ledger.having .dropped).length
      = (h.ledger.having .dropped).length + droppedBy h.delivery e := by
  rw [next]
  cases e with
  | push m => simp [Ledger.enter, Event.step, droppedBy]
  | enqueue now topic content => simp [Ledger.enter, Event.step, droppedBy]
  | enqueueFlat now topic labels => simp [Ledger.enter, Event.step, droppedBy]
  | expire now =>
    have htotal := h.ledger.length_having_dropped_expire (now.minusSeconds h.delivery.expiry)
    rw [Ledger.having_waiting_expire, hb.queue] at htotal
    have hle := List.length_filter_le
      (fun m : Message => decide ((now.minusSeconds h.delivery.expiry).seconds ≤ m.addedAt.seconds))
      h.delivery.dispatch.queue
    simp only [Ledger.enter, Event.step, droppedBy, Delivery.expire, Dispatch.expire]
    omega
  | ask flush => simp [Ledger.enter, Event.step, droppedBy]
  | start wall steady =>
    simp only [Event.step, droppedBy, Ledger.enter, Nat.add_zero]
    cases (h.delivery.dispatch.start steady).1 with
    | upload flush batch =>
      rw [Ledger.enterStart, Ledger.having_detach_of_ne _ (by decide) (by decide)]
    | idle => rfl
    | nothing flush => rfl
  | settle outcome =>
    simp only [Event.step, droppedBy, Nat.add_zero]
    cases outcome.isOk <;>
      rw [Ledger.enter, Ledger.having_resolve_of_ne _ (by decide) (by decide)]
  | cancel flush =>
    simp only [Event.step, droppedBy, Ledger.enter, Nat.add_zero]
    split
    · rw [Ledger.having_resolve_of_ne _ (by decide) (by decide)]
    · rfl

/-- What holds throughout a run: the books are balanced, they list what was pushed, and what they
have as dropped was reported. -/
structure Kept (h : History) (pushed : List Message) : Prop where
  balanced : Balanced h.acknowledged h.ledger h.delivery.dispatch
  messages : h.ledger.messages = pushed
  dropped : (h.ledger.having .dropped).length = h.dropped

theorem Kept.next {h : History} {pushed : List Message} (hk : h.Kept pushed) (e : Event) :
    (h.next e).Kept (pushed ++ e.pushed) := by
  refine ⟨balanced_next hk.balanced e, ?_, ?_⟩
  · rw [messages_next, hk.messages]
  · rw [length_having_dropped_next hk.balanced, hk.dropped]
    rfl

theorem Kept.foldl {h : History} {pushed : List Message} (hk : h.Kept pushed)
    (events : List Event) :
    (events.foldl History.next h).Kept (pushed ++ events.flatMap Event.pushed) := by
  induction events generalizing h pushed with
  | nil => simpa using hk
  | cons e rest ih => simpa [List.flatMap_cons, List.append_assoc] using ih (hk.next e)

theorem kept_of (envelope : Envelope) (expiry : UInt64) (debug : Bool) (events : List Event) :
    (of envelope expiry debug events).Kept (events.flatMap Event.pushed) :=
  Kept.foldl ⟨Balanced.start, rfl, rfl⟩ events

/-- In every run a delivery neither loses nor doubles nor reorders messages: those acknowledged,
those being uploaded and those in the queue, one after the other, are the messages pushed in the
order in which they were pushed, without those dropped for their age. -/
theorem accounted_for (envelope : Envelope) (expiry : UInt64) (debug : Bool)
    (events : List Event) :
    let h := of envelope expiry debug events
    h.acknowledged ++ h.delivery.dispatch.inFlight ++ h.delivery.pending = h.ledger.kept
      ∧ h.ledger.messages = events.flatMap Event.pushed
      ∧ (h.ledger.having .dropped).length = h.dropped := by
  have hk := kept_of envelope expiry debug events
  exact ⟨hk.balanced.kept_eq, hk.messages, hk.dropped⟩

end History

end Telemetry.Delivery
