import Telemetry.Schedule
import Telemetry.Simulation.Caller
import Telemetry.Simulation.Collector

/-!
# A courier on virtual time

A courier runs the flushes of a delivery against a scripted collector. Flushes are wanted by flush
loops and by a caller from outside, and only one of these acts at a time. Who acts goes on until it
has to wait: a loop for its deadline, whoever flushes for its turn or for the end of its upload, and
the caller also for the end of a loop.

The order in which they act is fixed.

* Loops that may go on stand in line. One joins the line when it is started or given up, when the
  turn comes to its flush, or when the time comes for which it waits. Of loops that wait for the
  same time, the one that has waited longer joins first.
* The caller is called when the turn comes to one of its flushes, when the upload of one of them may
  go on, or when the loop for which it waits has ended. It acts once the line has been worked off or
  a full shift of loops has acted. As soon as it has what it waits for it goes on with other things,
  so that loops which may go on have to wait until it waits again.
* A caller that always gets at once what it wants grows tired. It then lets the others act before it
  gets anything more.
* An upload can let all others act first. Its flush goes on when the line has been worked off.
* Where the clock has just moved, the caller acts before the loops do.

The clock stands still as long as anyone may go on, and then jumps to the next time for which anyone
waits. The wall clock and the steady clock that measures the backoff do not follow it: a simulation
takes no time.

This module holds what loops and uploads do, and `Simulation.Errand` what the caller does.
-/

namespace Telemetry.Simulation

open Delivery (FlushId UploadError)

/-- How far a loop is. -/
inductive LoopState where
  | running
  /-- it was given up; when it next acts it lets go of its flush, and ends -/
  | doomed
  /-- it never acts again -/
  | ended
  deriving DecidableEq, Repr

/-- A timer that flushes. At its deadline it flushes if there is something to flush, and it looks
for its next deadline only when that flush has ended. -/
structure FlushLoop where
  /-- its deadlines; a loop without them ends when it first acts -/
  ticker : Option Ticker
  /-- its flush that is under way -/
  flush : Option FlushId := none
  state : LoopState := .running

/-- A bound on the deadlines that a loop can see at one time: those within the tolerance, one that
is long past, and one to come. -/
def FlushLoop.deadlines (l : FlushLoop) : Nat :=
  match l.ticker with
  | some ticker => Ticker.tolerance.nanos / ticker.period.nanos + 3
  | none => 1

/-- A loop that waits for a time. -/
structure Sleeper where
  loop : LoopId
  wakesAt : Instant

/-- How far an upload is. -/
inductive Stage where
  /-- all others act so many times before it goes on -/
  | yielding (times : Nat)
  /-- it takes until a time -/
  | lasting (ends : Instant)
  /-- it never ends -/
  | stalled

/-- An upload that has begun. -/
structure Upload where
  flush : FlushId
  request : UploadRequest
  reply : Reply
  stage : Stage

/-- A delivery with all that works on it. -/
structure Courier where
  delivery : Delivery
  collector : Collector := {}
  /-- the virtual clock -/
  now : Instant := .start
  /-- the wall clock -/
  wall : UnixTime
  /-- the clock that measures the backoff -/
  steady : Instant := .start
  loops : List FlushLoop := []
  upload : Option Upload := none
  nextFlush : FlushId := 0
  /-- the loops that may go on, in line -/
  line : List LoopId := []
  /-- the loops that let all others act first -/
  aside : List LoopId := []
  /-- the loops that wait for a time; who waits longest comes first -/
  asleep : List Sleeper := []
  caller : Caller := {}

namespace Courier

/-- The topic of what is queued during an upload. -/
def topic : String := "metric"

/-- How many loops act before the caller can act again. -/
def shift : Nat := 61

/-- Change the delivery. -/
def deliver (c : Courier) (f : Delivery → Delivery) : Courier :=
  { c with delivery := f c.delivery }

/-- Queue content. -/
def enqueueAll (c : Courier) (content : List Json) : Courier :=
  c.deliver fun d => content.foldl (fun d content => d.enqueue c.wall topic content) d

/-! ## The line -/

/-- A loop may go on. -/
def rouse (c : Courier) (i : LoopId) : Courier :=
  if c.line.contains i then c else { c with line := c.line ++ [i] }

/-- A loop waits for a time. -/
def sleep (c : Courier) (loop : LoopId) (wakesAt : Instant) : Courier :=
  { c with asleep := c.asleep ++ [{ loop, wakesAt }] }

/-- The flush that may start: it has the turn, and has not started. -/
def nextUp? (c : Courier) : Option FlushId :=
  match c.delivery.dispatch.turn with
  | some { flush, batch := none } => some flush
  | _ => none

/-- Whether the caller waits for a flush. -/
def isAwaited (c : Courier) (flush : FlushId) : Bool := c.caller.flushes.contains flush

/-- The caller is called if it waits for a flush. -/
def call (c : Courier) (flush : FlushId) : Courier :=
  if c.isAwaited flush then { c with caller.called := true } else c

/-- Whether a flush is looked at by a caller who is too tired for it. -/
def isPutOff (c : Courier) (flush : FlushId) : Bool := c.isAwaited flush && c.caller.isTired

/-- Whoever looks at a flush gets what it wants. -/
def gain (c : Courier) (flush : FlushId) : Courier :=
  if c.isAwaited flush then { c with caller := c.caller.gain } else c

/-- The turn may have come to another flush. If that belongs to a loop, the loop may go on, and
otherwise the caller is called. -/
def handOver (c : Courier) : Courier :=
  match c.nextUp? with
  | none => c
  | some flush =>
    match c.loops.findIdx? fun l => l.flush == some flush with
    | some i => c.rouse i
    | none => c.call flush

/-! ## Flushes -/

/-- A new flush, which has not asked for its turn. -/
def newFlush (c : Courier) : FlushId × Courier :=
  (c.nextFlush, { c with nextFlush := c.nextFlush + 1 })

/-- A flush is over, and with it the turn that it may have had. -/
def release (c : Courier) (flush : FlushId) : Courier :=
  let loops := c.loops.map fun l => if l.flush == some flush then { l with flush := none } else l
  { c with loops }.handOver

/-- A flush has ended. -/
def conclude (c : Courier) (flush : FlushId) (result : Except UploadError Nat) : Courier :=
  if c.isAwaited flush then
    { c with caller.results := (flush, result) :: c.caller.results }.release flush
  else c.release flush

/-- The collector answers. -/
def answer (c : Courier) (upload : Upload) : Courier :=
  match upload.reply.outcome? with
  | none => { c with upload := some { upload with stage := .stalled } }
  | some outcome =>
    let (result, delivery) := c.delivery.settle outcome
    let collector :=
      match outcome with
      | .ok () => c.collector.keep upload.request
      | .error _ => c.collector
    { c with delivery, collector, upload := none }.conclude upload.flush result

/-- An upload goes on as far as it can. -/
def pursue (c : Courier) (upload : Upload) : Courier :=
  match upload.stage with
  | .yielding (times + 1) =>
    { c with upload := some { upload with stage := .yielding times } }.call upload.flush
  | .yielding 0 =>
    if upload.reply.delay.isZero then c.answer upload
    else if c.isPutOff upload.flush then c.call upload.flush
    else
      let ends := c.now.plus upload.reply.delay
      { c with upload := some { upload with stage := .lasting ends } }
  | .lasting ends =>
    if c.isPutOff upload.flush then c.call upload.flush
    else if ends ≤ c.now then (c.gain upload.flush).answer upload
    else c
  | .stalled => c

/-- The flush that has the turn starts. -/
def begin (c : Courier) : Courier :=
  let (progress, delivery) := c.delivery.start c.wall c.steady
  let c := { c with delivery }
  match progress with
  | .idle => c
  | .done flush => c.conclude flush (.ok 0)
  | .uploading flush request =>
    let (reply, collector) := c.collector.begin
    let upload := { flush, request, reply, stage := .yielding reply.yields }
    ({ c with collector, upload := some upload }.enqueueAll reply.meanwhile).pursue upload

/-- A flush asks for its turn, unless it has done so before. -/
def ask (c : Courier) (flush : FlushId) : Courier :=
  if c.delivery.dispatch.involves flush then c else c.deliver (·.ask flush)

/-- A flush goes on as far as it can. -/
def proceed (c : Courier) (flush : FlushId) : Courier :=
  match c.upload.filter (·.flush == flush) with
  | some upload => c.pursue upload
  | none =>
    if c.isPutOff flush then c.call flush
    else
      let c := c.ask flush
      if c.nextUp? == some flush then (c.gain flush).begin else c

/-- A flush is given up, and with it its upload. -/
def cancel (c : Courier) (flush : FlushId) : Courier :=
  let upload := c.upload.filter (·.flush != flush)
  ({ c with upload }.deliver (·.cancel flush)).release flush

/-! ## Loops -/

/-- A loop sees its deadline. -/
def tick (c : Courier) (i : LoopId) : Courier :=
  let (flush, c) := c.newFlush
  let (asked, delivery) := c.delivery.tick flush c.wall c.steady
  let loops := c.loops.modify i fun l =>
    { l with ticker := l.ticker.map (·.fire c.now), flush := if asked then some flush else none }
  { c with delivery, loops }

/-- A loop waits for its flush to go on. -/
def attend (c : Courier) (i : LoopId) (flush : FlushId) : Courier :=
  match c.upload.filter (·.flush == flush) with
  | some { stage := .yielding _, .. } => { c with aside := c.aside ++ [i] }
  | some { stage := .lasting ends, .. } => c.sleep i ends
  | _ => c

/-- A loop ends. The caller is called if it waits for that. -/
def finish (c : Courier) (i : LoopId) : Courier :=
  let loops := c.loops.modify i fun l => { l with state := .ended }
  let called := c.caller.called || c.caller.loop == some i
  { c with loops, caller.called := called }

/-- Whether a loop has ended. -/
def hasEnded (c : Courier) (i : LoopId) : Bool :=
  c.loops[i]?.all (·.state == .ended)

/-- A loop goes on as far as it can. -/
def act (i : LoopId) : Nat → Courier → Courier
  | 0, c => c
  | fuel + 1, c =>
    match c.loops[i]? with
    | none | some { state := .ended, .. } => c
    | some { state := .doomed, flush := some flush, .. } => (c.cancel flush).finish i
    | some { state := .doomed, flush := none, .. } => c.finish i
    | some { state := .running, flush := none, ticker := none } => c.finish i
    | some { state := .running, flush := none, ticker := some ticker } =>
      if ticker.deadline ≤ c.now then act i fuel (c.tick i) else c.sleep i ticker.deadline
    | some { state := .running, flush := some flush, .. } =>
      let c := c.proceed flush
      match c.loops[i]?.bind (·.flush) with
      | none => act i fuel c
      | some flush => c.attend i flush

/-- A bound on what the loops can do at one time: each sees its deadlines, and flushes at each. -/
def actions (c : Courier) : Nat :=
  c.loops.foldl (fun n l => n + 2 * l.deadlines) (c.delivery.dispatch.waiting.length + 2)

/-- Let so many loops in line act, one after the other. -/
def drain : Nat → Courier → Courier
  | 0, c => c
  | loops + 1, c =>
    match c.line with
    | [] => c
    | i :: rest => drain loops (act i c.actions { c with line := rest })

/-- Work off the line, or as much of it as one shift can. Those who stood aside may go on then. -/
def workOff (c : Courier) : Courier :=
  let c := c.drain shift
  { c with line := c.line ++ c.aside, aside := [] }

/-- Whether nobody may go on before the clock moves. -/
def isQuiet (c : Courier) : Bool := c.line.isEmpty && !c.caller.called

/-- Start a loop that flushes once in every period. -/
def startLoop (c : Courier) (period : Duration) : Courier :=
  let loop : FlushLoop := { ticker := Ticker.start? c.now period }
  rouse { c with loops := c.loops ++ [loop] } c.loops.length

/-- Give up a loop. -/
def giveUp (c : Courier) (i : LoopId) : Courier :=
  if c.hasEnded i then c
  else
    let loops := c.loops.modify i fun l => { l with state := .doomed }
    let asleep := c.asleep.filter (·.loop != i)
    rouse { c with loops, asleep, aside := c.aside.erase i } i

/-! ## Time -/

/-- The next time for which anyone waits. -/
def wakesAt? (c : Courier) : Option Instant :=
  let ending : List Instant :=
    match c.upload with
    | some { stage := .lasting ends, .. } => [ends]
    | _ => []
  (ending ++ c.asleep.map (·.wakesAt)).foldl (fun earliest t =>
    match earliest with
    | some e => if t < e then some t else earliest
    | none => some t) none

/-- The clock jumps to a time. The loops that wait for it may go on, and the caller is called if it
waits for an upload that ends. -/
def moveTo (c : Courier) (now : Instant) : Courier :=
  let (due, asleep) := c.asleep.partition fun s => decide (s.wakesAt ≤ now)
  let c := due.foldl (fun c s => c.rouse s.loop) { c with now, asleep }
  match c.upload with
  | some { stage := .lasting ends, flush, .. } => if ends ≤ now then c.call flush else c
  | _ => c

end Courier

end Telemetry.Simulation
