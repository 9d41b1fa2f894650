import Telemetry.Proofs.Delivery.Event

/-!
# How patient flush loops are

A flush loop looks whether the backoff is over, and only then asks for its turn. It may have to wait
for that turn, and when it gets it, it does not look again. So the question is how long what it saw
remains true. Time alone does not change it, and an upload that succeeds meanwhile ends the backoff
anyway. But an upload that fails meanwhile makes the backoff longer, and after one that began
meanwhile and was given up the backoff counts from a later start. `Prospect` follows this from one
step to the next.

If nothing of that kind has happened between the look of a loop and the start of its upload, then the
backoff is over at that start (`patient_unless_spoiled`). This is so whenever a loop does not have to
wait behind another flush (`patient_of_quiet`). Otherwise it may well upload while the backoff is
running (`impatient`).
-/

namespace Telemetry.Delivery

namespace Backoff

variable {b : Backoff} {now later : Instant}

theorem isOver_iff :
    b.isOver now ↔ ∀ attempt, b.lastAttempt = some attempt → b.wait ≤ now.since attempt := by
  rw [isOver]
  cases b.lastAttempt <;> simp

/-- A backoff that is over remains over as time goes by. -/
theorem isOver_of_le (h : b.isOver now) (hle : now ≤ later) : b.isOver later := by
  rw [isOver_iff] at h ⊢
  intro attempt hattempt
  exact Nat.le_trans (h attempt hattempt) (Nat.sub_le_sub_right hle attempt.nanos)

/-- After a success there is nothing to wait for. -/
theorem isOver_succeed (b : Backoff) (now : Instant) : b.succeed.isOver now :=
  isOver_iff.mpr fun attempt _ => Nat.zero_le (now.since attempt).nanos

end Backoff

namespace Dispatch

variable {d : Dispatch} {looked : Instant}

/-- Whether a batch is being uploaded. -/
def isUploading (d : Dispatch) : Bool := d.turn.any (·.batch.isSome)

@[simp] theorem backoff_pass (d : Dispatch) : d.pass.backoff = d.backoff := by
  rw [pass]
  split <;> rfl

@[simp] theorem backoff_ask (d : Dispatch) (flush : FlushId) :
    (d.ask flush).backoff = d.backoff := by
  rw [ask]
  split <;> rfl

@[simp] theorem isUploading_ask (d : Dispatch) (flush : FlushId) :
    (d.ask flush).isUploading = d.isUploading := by
  rw [ask]
  split
  · rename_i hturn
    rw [isUploading, isUploading, hturn]
    rfl
  · rfl

theorem backoff_cancel (d : Dispatch) (flush : FlushId) :
    (d.cancel flush).backoff = d.backoff := by
  rcases d.cancel_cases flush with ⟨-, hcancel⟩ | ⟨-, waiting, hcancel⟩
  · rw [hcancel, backoff_pass]
  · rw [hcancel]

/-! ## Attempts -/

/-- When the upload that a step attempts is started. -/
def attempted (d : Dispatch) : Step → List Instant
  | .start now =>
    match (d.start now).1 with
    | .upload _ _ => [now]
    | .idle | .nothing _ => []
  | .push _ | .expire _ | .ask _ | .settle _ | .cancel _ => []

/-- When the uploads of a run are started. -/
def attempts (d : Dispatch) : List Step → List Instant
  | [] => []
  | s :: rest => d.attempted s ++ attempts (d.apply s) rest

theorem lastAttempt_apply (d : Dispatch) (s : Step) :
    (d.apply s).backoff.lastAttempt = (d.attempted s).getLast?.or d.backoff.lastAttempt := by
  cases s with
  | push m => rfl
  | expire cutoff => rfl
  | ask flush => exact congrArg Backoff.lastAttempt (d.backoff_ask flush)
  | start now =>
    rw [apply, attempted]
    rcases d.start_cases now with ⟨flush, -, -, hstart⟩ | ⟨flush, -, -, hstart⟩ | ⟨-, hstart⟩ <;>
      rw [hstart]
    · rfl
    · exact congrArg Backoff.lastAttempt d.backoff_pass
    · rfl
  | settle succeeded =>
    rw [apply]
    rcases d.settle_cases succeeded with ⟨flush, batch, -, hsettle⟩ | ⟨-, hsettle⟩ <;> rw [hsettle]
    · cases succeeded with
      | true =>
        rw [if_pos rfl, backoff_pass]
        rfl
      | false =>
        rw [if_neg (by decide), backoff_pass]
        rfl
    · rfl
  | cancel flush => exact congrArg Backoff.lastAttempt (d.backoff_cancel flush)

/-- What the backoff has as the last attempt is the last attempt of the run, whoever made it. -/
theorem lastAttempt_run (d : Dispatch) (steps : List Step) :
    (steps.foldl apply d).backoff.lastAttempt
      = (d.attempts steps).getLast?.or d.backoff.lastAttempt := by
  induction steps generalizing d with
  | nil => rfl
  | cons s rest ih =>
    rw [List.foldl_cons, ih, lastAttempt_apply, attempts, List.getLast?_append, Option.or_assoc]

/-! ## What a look is worth -/

/-- What has become of a look at which the backoff was over. -/
inductive Prospect where
  /-- the backoff is over still -/
  | clear
  /-- an upload has begun since the look and goes on -/
  | overtaken
  /-- an upload has failed since the look, or one that had begun since was given up -/
  | spoiled
  deriving DecidableEq, Repr

/-- What becomes of a look by a step. -/
def Prospect.next (d : Dispatch) (p : Prospect) : Step → Prospect
  | .push _ | .expire _ | .ask _ => p
  | .start now =>
    match (d.start now).1 with
    | .upload _ _ => if p = .clear then .overtaken else p
    | .idle | .nothing _ => p
  | .settle succeeded =>
    if d.isUploading then
      if succeeded then .clear else .spoiled
    else p
  | .cancel flush => if p = .overtaken ∧ d.turn.any (·.flush = flush) then .spoiled else p

/-- What becomes of a look by the steps after it. -/
def prospect (d : Dispatch) (p : Prospect) : List Step → Prospect
  | [] => p
  | s :: rest => prospect (d.apply s) (p.next d s) rest

/-- What a look tells about a dispatch. -/
def Prospect.Holds (looked : Instant) (d : Dispatch) : Prospect → Prop
  | clear => d.backoff.isOver looked
  | overtaken => d.isUploading
  | spoiled => True

namespace Prospect

variable {p : Prospect}

/-- What a look tells depends on the backoff and on whether there is an upload. -/
theorem Holds.congr {d' : Dispatch} (h : p.Holds looked d) (hbackoff : d'.backoff = d.backoff)
    (huploading : d'.isUploading = d.isUploading) : p.Holds looked d' := by
  cases p with
  | clear =>
    rw [Holds, hbackoff]
    exact h
  | overtaken =>
    rw [Holds, huploading]
    exact h
  | spoiled => trivial

/-- If no upload is under way, an upload that has begun since the look is none. -/
theorem Holds.pass (h : p.Holds looked d) (hidle : d.isUploading = false) :
    p.Holds looked d.pass := by
  cases p with
  | clear =>
    rw [Holds, backoff_pass]
    exact h
  | overtaken =>
    rw [Holds, hidle] at h
    cases h
  | spoiled => trivial

theorem Holds.start (h : p.Holds looked d) (now : Instant) :
    (p.next d (.start now)).Holds looked (d.start now).2 := by
  rw [next]
  rcases d.start_cases now with ⟨flush, hturn, -, hstart⟩ | ⟨flush, hturn, -, hstart⟩ | ⟨-, hstart⟩
  · rw [hstart]
    -- whatever the look was worth, an upload is under way now
    cases p with
    | clear => rfl
    | overtaken => rfl
    | spoiled => trivial
  · rw [hstart]
    exact h.pass (by rw [isUploading, hturn]; rfl)
  · rw [hstart]
    exact h

theorem Holds.settle (h : p.Holds looked d) (succeeded : Bool) :
    (p.next d (.settle succeeded)).Holds looked (d.settle succeeded) := by
  rw [next, Dispatch.settle]
  split
  · rename_i flush batch hturn
    have huploading : d.isUploading := by rw [isUploading, hturn]; rfl
    rw [if_pos huploading]
    cases succeeded with
    | true =>
      rw [if_pos rfl, if_pos rfl, Holds, backoff_pass]
      exact d.backoff.isOver_succeed looked
    | false => trivial
  · rename_i hturn
    have hidle : d.isUploading = false := by
      rw [isUploading]
      cases hother : d.turn with
      | none => rfl
      | some turn =>
        obtain ⟨flush, batch⟩ := turn
        cases batch with
        | none => rfl
        | some batch => exact absurd hother (hturn flush batch)
    rw [hidle]
    exact h

theorem Holds.cancel (h : p.Holds looked d) (flush : FlushId) :
    (p.next d (.cancel flush)).Holds looked (d.cancel flush) := by
  rw [next]
  rcases d.cancel_cases flush with ⟨hturn, hcancel⟩ | ⟨hturn, waiting, hcancel⟩
  · cases p with
    | clear =>
      rw [if_neg (by simp), Holds, backoff_cancel]
      exact h
    | overtaken =>
      rw [if_pos ⟨rfl, hturn⟩]
      trivial
    | spoiled => trivial
  · rw [if_neg (by simp [hturn]), hcancel]
    exact h.congr rfl rfl

/-- What a look tells holds after every step. -/
theorem Holds.apply (h : p.Holds looked d) (s : Step) : (p.next d s).Holds looked (d.apply s) := by
  cases s with
  | push m => exact h.congr rfl rfl
  | expire cutoff => exact h.congr rfl rfl
  | ask flush => exact h.congr (d.backoff_ask flush) (d.isUploading_ask flush)
  | start now => exact h.start now
  | settle succeeded => exact h.settle succeeded
  | cancel flush => exact h.cancel flush

theorem Holds.run (h : p.Holds looked d) (steps : List Step) :
    (d.prospect p steps).Holds looked (steps.foldl Dispatch.apply d) := by
  induction steps generalizing d p with
  | nil => exact h
  | cons s rest ih => exact ih (h.apply s)

end Prospect

/-- Whoever starts an upload after a look at which the backoff was over finds it over too, unless the
look was spoiled. -/
theorem isOver_or_spoiled {steps : List Step} {started : Instant} {flush : FlushId}
    {batch : List Message} (hover : d.backoff.isOver looked) (hclock : looked ≤ started)
    (hstart : ((steps.foldl apply d).start started).1 = .upload flush batch) :
    (steps.foldl apply d).backoff.isOver started ∨ d.prospect .clear steps = .spoiled := by
  have hclear : Prospect.clear.Holds looked d := hover
  have hholds := hclear.run steps
  cases hprospect : d.prospect .clear steps with
  | clear =>
    rw [hprospect] at hholds
    exact .inl (Backoff.isOver_of_le hholds hclock)
  | overtaken =>
    -- no upload starts while another one goes on
    rw [hprospect, Prospect.Holds, isUploading] at hholds
    rcases (steps.foldl apply d).start_cases started with
      ⟨_, hturn, -, -⟩ | ⟨_, hturn, -, -⟩ | ⟨-, hidle⟩
    · rw [hturn] at hholds
      cases hholds
    · rw [hturn] at hholds
      cases hholds
    · rw [hidle] at hstart
      cases hstart
  | spoiled => exact .inr rfl

/-- Whether a step has nothing to do with the uploads of other flushes. -/
def Step.isQuiet : Step → Bool
  | .push _ | .expire _ | .ask _ => true
  | .start _ | .settle _ | .cancel _ => false

theorem prospect_of_quiet {steps : List Step} (h : ∀ s ∈ steps, s.isQuiet) (d : Dispatch)
    (p : Prospect) : d.prospect p steps = p := by
  induction steps generalizing d with
  | nil => rfl
  | cons s rest ih =>
    obtain ⟨hs, hrest⟩ := List.forall_mem_cons.mp h
    have hnext : p.next d s = p := by
      cases s with
      | push m => rfl
      | expire cutoff => rfl
      | ask flush => rfl
      | start now => cases hs
      | settle succeeded => cases hs
      | cancel flush => cases hs
    rw [prospect, hnext, ih hrest]

/-! ## Loops -/

/-- A dispatch after some steps. -/
def of (steps : List Step) : Dispatch := steps.foldl apply {}

/-- When an upload was last attempted is when the last upload of the run was started. -/
theorem lastAttempt_of (steps : List Step) :
    (of steps).backoff.lastAttempt = (attempts {} steps).getLast? := by
  rw [of, lastAttempt_run]
  exact Option.or_none

end Dispatch

open Dispatch

/-- An upload of a flush loop in a run: the loop looked and found that a flush was due, its flush
asked for the turn, and the upload started some time later. Anything else may have happened before
and in between. -/
structure LoopUpload where
  before : List Step
  /-- when the loop looked -/
  looked : Instant
  between : List Step
  started : Instant
  flush : FlushId
  batch : List Message
  due : (of before).isDue looked
  asked : .ask flush ∈ between
  clock : looked ≤ started
  starts : ((of (before ++ between)).start started).1 = .upload flush batch

namespace LoopUpload

/-- All steps before the upload. -/
def steps (u : LoopUpload) : List Step := u.before ++ u.between

/-- The backoff in force had passed since the last attempt of anyone when the upload started. -/
def Patient (u : LoopUpload) : Prop :=
  ∀ attempt, (attempts {} u.steps).getLast? = some attempt →
    (of u.steps).backoff.wait ≤ u.started.since attempt

/-- After the look another upload failed, or began and was given up, and none has succeeded since. -/
def Spoiled (u : LoopUpload) : Prop := (of u.before).prospect .clear u.between = .spoiled

theorem patient_iff (u : LoopUpload) :
    u.Patient ↔ (of u.steps).backoff.isOver u.started := by
  rw [Backoff.isOver_iff, lastAttempt_of]
  rfl

theorem isOver_look (u : LoopUpload) : (of u.before).backoff.isOver u.looked :=
  (Bool.and_eq_true_iff.mp u.due).2

theorem patient_or_spoiled (u : LoopUpload) : u.Patient ∨ u.Spoiled := by
  have hsteps : of u.steps = u.between.foldl apply (of u.before) := List.foldl_append
  have hstarts := u.starts
  rw [← steps, hsteps] at hstarts
  rw [patient_iff, hsteps]
  exact isOver_or_spoiled u.isOver_look u.clock hstarts

/-- A loop that does not have to wait behind another flush does not upload while the backoff is
running. -/
theorem patient_of_quiet (u : LoopUpload) (h : ∀ s ∈ u.between, s.isQuiet) : u.Patient := by
  rcases u.patient_or_spoiled with hpatient | hspoiled
  · exact hpatient
  · rw [Spoiled, prospect_of_quiet h] at hspoiled
    cases hspoiled

/-- A flush loop does not upload while the backoff is running, unless after its look another upload
failed, or began and was given up. In particular it does not if it did not have to wait behind another
flush. -/
theorem patient_unless_spoiled (u : LoopUpload) :
    (¬ u.Spoiled → u.Patient) ∧ ((∀ s ∈ u.between, s.isQuiet) → u.Patient) :=
  ⟨fun h => u.patient_or_spoiled.resolve_right h, u.patient_of_quiet⟩

/-- A message of no content. -/
def blank : Message := { topic := "metric", body := .structured .null, addedAt := ⟨0⟩ }

/-- A direct flush uploads from the start of the clock on. A tenth of a second later a loop looks: no
upload has failed so far, so it asks for its turn. The upload fails, and at half a second the loop
has its turn. -/
def hasty : LoopUpload where
  before := [.push blank, .ask 0, .start ⟨0⟩, .push blank]
  looked := ⟨100000000⟩
  between := [.expire ⟨0⟩, .ask 1, .settle false]
  started := ⟨500000000⟩
  flush := 1
  batch := [blank, blank]
  due := rfl
  asked := by simp
  clock := by decide
  starts := rfl

/-- The backoff is ten seconds, and the loop uploads half a second after the attempt before. -/
theorem impatient :
    attempts {} hasty.steps = [⟨0⟩] ∧ (of hasty.steps).backoff.wait = .ofSeconds 10 ∧
      hasty.started.since ⟨0⟩ = .ofMillis 500 ∧ ¬ hasty.Patient := by
  refine ⟨rfl, rfl, rfl, fun h => ?_⟩
  exact absurd (h ⟨0⟩ rfl) (by decide)

/-- A direct flush has failed at the start of the clock. Five seconds later another one asks for its
turn but is given up before it has begun, and at ten seconds the loop looks, drops what is too old,
and uploads. -/
def persistent : LoopUpload where
  before := [.push blank, .ask 0, .start ⟨0⟩, .settle false, .ask 1, .cancel 1]
  looked := ⟨10000000000⟩
  between := [.expire ⟨0⟩, .ask 2]
  started := ⟨10000000000⟩
  flush := 2
  batch := [blank]
  due := rfl
  asked := by simp
  clock := by decide
  starts := rfl

/-- Nothing has spoiled the look of the loop, and it has waited for just as long as it must. -/
theorem patient_after_failure :
    attempts {} persistent.steps = [⟨0⟩] ∧
      (of persistent.steps).backoff.wait = .ofSeconds 10 ∧
      persistent.started.since ⟨0⟩ = .ofSeconds 10 ∧
      ¬ persistent.Spoiled ∧ persistent.Patient := by
  have hclean : ¬ persistent.Spoiled := by
    rw [Spoiled]
    decide
  exact ⟨rfl, rfl, rfl, hclean, (patient_unless_spoiled persistent).1 hclean⟩

end LoopUpload

/-- When a timer ticks, it looks; if a flush is due, old messages are dropped and the flush asks for
its turn. -/
theorem tick_eq (d : Delivery) (flush : FlushId) (wall : UnixTime) (steady : Instant) :
    d.tick flush wall steady
      = if d.dispatch.isDue steady then (true, (d.after (.expire wall)).after (.ask flush))
        else (false, d) := rfl

end Telemetry.Delivery
