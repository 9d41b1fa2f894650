import Mathlib.Algebra.Ring.Nat
import Mathlib.Data.List.Induction
import Telemetry.Proofs.Delivery.Patience

/-!
# The wait is known from the answers

All that counts for the backoff is how uploads have ended, and of that only how many have failed
since the last one that succeeded. After the first failure the wait is ten seconds, and it doubles
with every further one until it is forty; there it stays, for eighty would be past the limit
(`Backoff.longer_waitAfter`).

An upload ends when a flush hears from the transport. Whatever else happens to a delivery is no
answer: messages are queued or dropped, and flushes ask for their turn, find an empty queue, or are
given up. None of that changes the wait or the number of failures (`wait_after`), so in every run
the wait is the one after the failures counted from its answers (`wait_of_answers`).
-/

namespace Telemetry.Delivery

/-! ## Waits after failures -/

namespace Backoff

/-- The wait after so many failures in a row. -/
def waitAfter : Nat → Duration
  | 0 => .zero
  | failures + 1 => .ofSeconds (min (10 * 2 ^ failures) 40)

/-- From the third failure on the wait is forty seconds. -/
theorem waitAfter_of_two_lt {failures : Nat} (h : 2 < failures) :
    waitAfter failures = .ofSeconds 40 := by
  obtain ⟨more, rfl⟩ := Nat.exists_eq_add_of_lt h
  have hlarge : 40 ≤ 10 * 2 ^ (2 + more) := by
    have hpos : 0 < 2 ^ more := Nat.two_pow_pos more
    rw [Nat.pow_add]
    omega
  rw [waitAfter, Nat.min_eq_right hlarge]

/-- One more failure. -/
theorem longer_waitAfter (failures : Nat) : longer (waitAfter failures) = waitAfter (failures + 1) := by
  match failures with
  | 0 => decide
  | 1 => decide
  | 2 => decide
  | more + 3 =>
    -- twice forty seconds are past the limit
    rw [waitAfter_of_two_lt (by omega), waitAfter_of_two_lt (by omega)]
    decide

theorem waitAfter_lt_limit (failures : Nat) : waitAfter failures < limit := by
  match failures with
  | 0 => decide
  | 1 => decide
  | 2 => decide
  | more + 3 =>
    rw [waitAfter_of_two_lt (by omega)]
    decide

/-- The wait does not become shorter by a failure. -/
theorem le_longer (wait : Duration) : wait ≤ longer wait := by
  change wait.nanos ≤ (longer wait).nanos
  rw [longer]
  split
  · rename_i hzero
    have hnone : wait.nanos = 0 := beq_iff_eq.mp hzero
    omega
  · split
    · change wait.nanos ≤ 2 * wait.nanos
      omega
    · exact Nat.le_refl _

end Backoff

/-! ## Answers -/

/-- The answer that an event brings to an upload, which is at most one: whether the upload succeeded.
Only a flush whose upload is under way hears an answer. -/
def answered (d : Delivery) : Event → List Bool
  | .settle outcome => if d.dispatch.isUploading then [outcome.isOk] else []
  | .push _ | .enqueue _ _ _ | .enqueueFlat _ _ _ | .expire _ | .ask _ | .start _ _ | .cancel _ => []

/-- The answers in a run, oldest first. -/
def answers (d : Delivery) : List Event → List Bool
  | [] => []
  | e :: rest => d.answered e ++ answers (d.after e) rest

/-- How many of the last answers say that an upload failed. -/
def failuresAtEnd (answers : List Bool) : Nat := (answers.reverse.takeWhile (!·)).length

theorem failuresAtEnd_concat (answers : List Bool) (succeeded : Bool) :
    failuresAtEnd (answers ++ [succeeded])
      = if succeeded then 0 else failuresAtEnd answers + 1 := by
  cases succeeded <;> simp [failuresAtEnd]

theorem answers_concat (d : Delivery) (events : List Event) (e : Event) :
    d.answers (events ++ [e]) = d.answers events ++ (events.foldl after d).answered e := by
  induction events generalizing d with
  | nil => simp [answers]
  | cons first rest ih =>
    rw [List.cons_append, answers, ih, answers, List.foldl_cons, List.append_assoc]

/-! ## What an event does to the wait -/

/-- How long to wait after the last attempt. -/
def wait (d : Delivery) : Duration := d.dispatch.backoff.wait

/-- The wait after an answer. -/
def heard (wait : Duration) (succeeded : Bool) : Duration :=
  if succeeded then .zero else Backoff.longer wait

theorem Dispatch.isUploading_eq_true_iff {d : Dispatch} :
    d.isUploading = true ↔ ∃ flush batch, d.turn = some { flush, batch := some batch } := by
  rw [isUploading]
  rcases d.turn with _ | ⟨flush, _ | batch⟩ <;> simp

/-- Without an upload under way, the end of one is no event. -/
theorem Dispatch.settle_of_not_isUploading {d : Dispatch} (h : ¬ d.isUploading = true)
    (succeeded : Bool) : d.settle succeeded = d := by
  rcases d.settle_cases succeeded with ⟨flush, batch, hturn, -⟩ | ⟨-, hsettle⟩
  · exact absurd (isUploading_eq_true_iff.mpr ⟨flush, batch, hturn⟩) h
  · exact hsettle

theorem Dispatch.wait_settle {d : Dispatch} (h : d.isUploading = true) (succeeded : Bool) :
    (d.settle succeeded).backoff.wait = heard d.backoff.wait succeeded := by
  obtain ⟨flush, batch, hturn⟩ := isUploading_eq_true_iff.mp h
  simp only [settle, hturn]
  cases succeeded with
  | true =>
    rw [if_pos rfl, backoff_pass]
    rfl
  | false =>
    rw [if_neg (by decide), backoff_pass]
    rfl

theorem Dispatch.wait_start (d : Dispatch) (now : Instant) :
    (d.start now).2.backoff.wait = d.backoff.wait := by
  rcases d.start_cases now with ⟨flush, -, -, hstart⟩ | ⟨flush, -, -, hstart⟩ | ⟨-, hstart⟩
  · -- an attempt is no answer
    rw [hstart]
    rfl
  · rw [hstart, backoff_pass]
  · rw [hstart]

/-- The wait changes with an answer, and with nothing else. -/
theorem wait_after (d : Delivery) (e : Event) :
    (d.after e).wait = (d.answered e).foldl heard d.wait := by
  rw [wait, dispatch_after]
  cases e with
  | push m => rfl
  | enqueue now topic content => rfl
  | enqueueFlat now topic labels => rfl
  | expire now => rfl
  | ask flush => exact congrArg Backoff.wait (d.dispatch.backoff_ask flush)
  | start wall steady => exact d.dispatch.wait_start steady
  | cancel flush => exact congrArg Backoff.wait (d.dispatch.backoff_cancel flush)
  | settle outcome =>
    rw [answered]
    by_cases huploading : d.dispatch.isUploading = true
    · rw [if_pos huploading]
      exact Dispatch.wait_settle huploading outcome.isOk
    · rw [if_neg huploading]
      exact congrArg (·.backoff.wait) (Dispatch.settle_of_not_isUploading huploading outcome.isOk)

/-- A wait that belongs to a number of failures still does after an answer. -/
theorem heard_waitAfter (answers : List Bool) (succeeded : Bool) :
    heard (Backoff.waitAfter (failuresAtEnd answers)) succeeded
      = Backoff.waitAfter (failuresAtEnd (answers ++ [succeeded])) := by
  rw [failuresAtEnd_concat]
  cases succeeded with
  | true => rfl
  | false => exact Backoff.longer_waitAfter (failuresAtEnd answers)

/-! ## Runs -/

theorem answered_cases (d : Delivery) (e : Event) :
    d.answered e = [] ∨ ∃ outcome, e = .settle outcome ∧ d.answered e = [outcome.isOk] := by
  cases e with
  | settle outcome =>
    rw [answered]
    by_cases huploading : d.dispatch.isUploading = true
    · exact .inr ⟨outcome, rfl, if_pos huploading⟩
    · exact .inl (if_neg huploading)
  | _ => exact .inl rfl

/-- The wait after a run, if there was none before. -/
theorem wait_run {d : Delivery} (hd : d.wait = .zero) (events : List Event) :
    (events.foldl after d).wait = Backoff.waitAfter (failuresAtEnd (d.answers events)) := by
  induction events using List.reverseRecOn with
  | nil => exact hd
  | append_singleton events e ih =>
    rw [List.foldl_append, List.foldl_cons, List.foldl_nil, wait_after, answers_concat, ih]
    rcases answered_cases (events.foldl after d) e with hnone | ⟨outcome, -, hone⟩
    · rw [hnone, List.append_nil]
      rfl
    · rw [hone]
      exact heard_waitAfter (d.answers events) outcome.isOk

/-- An event makes the wait longer, leaves it, or ends it. -/
theorem wait_le_after_or_zero (d : Delivery) (e : Event) :
    d.wait ≤ (d.after e).wait ∨ (d.after e).wait = .zero := by
  rw [wait_after]
  rcases answered_cases d e with hnone | ⟨outcome, -, hone⟩
  · rw [hnone]
    exact .inl (Nat.le_refl d.wait.nanos)
  · rw [hone]
    cases hok : outcome.isOk with
    | true => exact .inr rfl
    | false => exact .inl (Backoff.le_longer d.wait)

/-- In every run the wait is known from the answers: it is the one after the failures since the last
success. So it never comes to the limit. Nothing but the end of an upload changes it or the number of
failures, and it never becomes shorter except that it ends. -/
theorem wait_of_answers (envelope : Envelope) (expiry : UInt64) (debug : Bool)
    (events : List Event) :
    let created := create envelope expiry debug
    let d := events.foldl after created
    let failures := failuresAtEnd (created.answers events)
    d.wait = Backoff.waitAfter failures ∧ d.wait < Backoff.limit ∧
      ∀ e,
        ((∀ outcome, e ≠ .settle outcome) → (d.after e).wait = d.wait ∧
          failuresAtEnd (created.answers (events ++ [e])) = failures) ∧
        (d.wait ≤ (d.after e).wait ∨ (d.after e).wait = .zero) := by
  intro created d failures
  have hwait : d.wait = Backoff.waitAfter failures := wait_run rfl events
  refine ⟨hwait, ?_, fun e => ⟨fun hquiet => ?_, wait_le_after_or_zero d e⟩⟩
  · rw [hwait]
    exact Backoff.waitAfter_lt_limit failures
  · have hnone : d.answered e = [] := by
      rcases answered_cases d e with hnone | ⟨outcome, hsettle, -⟩
      · exact hnone
      · exact absurd hsettle (hquiet outcome)
    rw [wait_after, answers_concat, hnone, List.append_nil]
    exact ⟨rfl, rfl⟩

/-- An upload that fails, one that is given up, and another that fails. -/
example :
    let events : List Event :=
      [.push LoopUpload.blank, .ask 0, .start ⟨0⟩ ⟨0⟩, .settle (.error (.rejected "503")),
        .ask 1, .start ⟨0⟩ ⟨0⟩, .cancel 1, .ask 2, .start ⟨0⟩ ⟨0⟩, .settle (.error (.failed "gone"))]
    let created := create {} 600 false
    created.answers events = [false, false] ∧
      (events.foldl after created).wait = .ofSeconds 20 := by
  exact ⟨rfl, rfl⟩

end Telemetry.Delivery
