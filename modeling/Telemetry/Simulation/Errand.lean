import Telemetry.Simulation.Courier

/-!
# The errands of the caller

What the caller of a courier can ask for: to wait for a while, to flush, to flush twice at the same
time, to flush and give that up, and to give up all loops. Each of these ends as soon as the caller
has what it wants, and loops that may go on by then have to wait for its next errand.

Where the caller waits, `run` lets everyone act in the order of the courier and moves the clock.
-/

namespace Telemetry.Simulation

open Delivery (FlushId UploadError)

namespace Courier

/-! ## The caller acts -/

/-- How a flush that the caller waits for has ended. -/
def result? (c : Courier) (flush : FlushId) : Option (Except UploadError Nat) :=
  (c.caller.results.find? (·.1 == flush)).map (·.2)

/-- Whether the caller has what it waits for. -/
def isOver (c : Courier) : Bool :=
  match c.caller.loop with
  | some i => c.hasEnded i
  | none =>
    !c.caller.flushes.isEmpty && c.caller.flushes.all fun flush => (c.result? flush).isSome

/-- The caller looks at the flushes it waits for. The next time it begins with the second. -/
def look (c : Courier) : Courier :=
  let flushes := c.caller.flushes
  let c := flushes.foldl (fun c flush =>
    if (c.result? flush).isSome then c else c.proceed flush) c
  { c with caller.flushes := flushes.drop 1 ++ flushes.take 1 }

/-- The caller acts, and is not tired, if it has been called. -/
def respond (c : Courier) : Courier :=
  if c.caller.called then { c with caller.called := false, caller.gains := 0 }.look else c

/-- A tired caller lets the others act. -/
def rest (c : Courier) : Courier :=
  if c.caller.isTired then { c with caller.called := true }.workOff.respond else c

/-- The caller gets something else than a flush. -/
def obtain (c : Courier) : Courier := { c with caller := c.caller.gain }

/-! ## Everyone acts -/

/-- Let everything happen before a time, or until the caller has what it waits for. -/
def run (limit : Option Instant) : Nat → Courier → Courier
  | 0, c => c
  | fuel + 1, c =>
    let c := c.workOff
    let time := c.wakesAt?.filter fun t => limit.all (t < ·)
    let next := if c.isQuiet then time.map c.moveTo else some c
    match next.map respond with
    | none => c
    | some c => if c.isOver then c else run limit fuel c

/-- How often an upload that is under way still lets the others act first. -/
def pendingYields (c : Courier) : Nat :=
  match c.upload with
  | some { stage := .yielding times, .. } => times + 1
  | _ => 0

/-- A bound on how often the line is worked off within a span: in each millisecond it is once for
everything that the loops can do, twice for every flush that the caller waits for, twice for
nothing, and once whenever an upload lets the others act. -/
def steps (c : Courier) (span : Duration) : Nat :=
  (span.toMillis + 2) * (c.actions + 2 * c.caller.flushes.length + 2)
    + c.pendingYields + c.collector.yields

/-- The longest that uploads already begun or still in the script can take. -/
def patience (c : Courier) : Duration :=
  match c.upload with
  | some upload => ⟨c.collector.duration.nanos + upload.reply.delay.nanos⟩
  | none => c.collector.duration

/-- Let everything happen before a time, while the caller waits for nothing else. -/
def runUntil (c : Courier) (limit : Instant) : Courier :=
  run (some limit) (c.steps (limit.since c.now)) c

/-- The clock has come to the time for which the caller waits, so the caller is not tired. -/
def arrive (c : Courier) (now : Instant) : Courier :=
  { c.moveTo now with caller.gains := 0 }.obtain

/-! ## Errands -/

/-- Let everything happen that may happen now. -/
def settleDown (c : Courier) : Courier := (c.runUntil c.now).arrive c.now

/-- Wait for a while. The caller goes on first when the time has come, so what else is due then is
still to be done. Without a wait nothing happens, unless the caller is tired. -/
def advance (c : Courier) (span : Duration) : Courier :=
  let c := c.rest
  if span.isZero then c.obtain
  else
    let limit := c.now.plus span
    (c.runUntil limit).arrive limit

/-- The caller begins to wait for flushes. -/
def beginToAwait (c : Courier) (flushes : List FlushId) : Courier :=
  { c with caller.flushes := flushes, caller.results := [] }.look

/-- The caller waits for flushes no longer. -/
def forget (c : Courier) : Courier := { c with caller.flushes := [] }

/-- Wait until flushes have ended. They have no results if they never do. -/
def await (c : Courier) (flushes : List FlushId) : Courier :=
  let c := c.beginToAwait flushes
  (if c.isOver then c else run none (c.steps c.patience) c).forget

/-- Flush and wait for the end. -/
def flush (c : Courier) : Option (Except UploadError Nat) × Courier :=
  let (id, c) := c.newFlush
  let c := c.await [id]
  (c.result? id, c)

/-- Two flushes at the same time, of which the first asks first. -/
def flushTwice (c : Courier) :
    (Option (Except UploadError Nat) × Option (Except UploadError Nat)) × Courier :=
  let (first, c) := c.newFlush
  let (second, c) := c.newFlush
  let c := c.await [first, second]
  ((c.result? first, c.result? second), c)

/-- A flush whose upload would never end is given up after `meanwhile` has been queued. What is left
of the script goes first, and is forgotten afterwards. Returns the result, if the flush had one, and
the number of messages that waited when it had gone on as far as it could. -/
def flushCancelled (c : Courier) (during meanwhile : List Json) :
    (Option (Except UploadError Nat) × Nat) × Courier :=
  let stalled : Reply := { meanwhile := during, answer := .stall }
  let script := c.collector.script ++ [stalled]
  let (id, c) := { c with collector.script := script }.newFlush
  let c := c.beginToAwait [id]
  let size := c.delivery.size
  let result := c.result? id
  let c := c.enqueueAll meanwhile
  let c := if result.isSome then c else c.cancel id
  ((result, size), { c.forget with collector.script := [] })

/-- Give up a loop and wait for its end. -/
def abort (c : Courier) (i : LoopId) : Courier :=
  let c := (c.giveUp i).rest
  let c := { c with caller.loop := some i }
  let c := if c.isOver then c else run none (c.steps .zero) c
  { c with caller.loop := none }.obtain

/-- Give up all loops, one after the other. -/
def abortLoops (c : Courier) : Courier :=
  { (List.range c.loops.length).foldl abort c with loops := [] }

end Courier

end Telemetry.Simulation
