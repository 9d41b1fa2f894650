import Telemetry.Agent
import Telemetry.Simulation.Errand

/-!
# An agent on virtual time

A world is an agent with everything around it: the sources of its profilers, the readings of its
process, its timers, and the courier that carries its messages. Whatever is due at a time is done at
that time, one thing after the other, the courier first.
-/

namespace Telemetry.Simulation

/-- A source that gives one profile after the other, and the last one for ever. -/
structure Source where
  reads : List (Except ProfileError Profile)

namespace Source

/-- What is read next. -/
def peek (s : Source) : Except ProfileError Profile :=
  s.reads.head?.getD (.error (.sourceFailed "no profile"))

/-- The source after a read. -/
def advance (s : Source) : Source :=
  match s.reads with
  | _ :: next :: rest => { reads := next :: rest }
  | _ => s

end Source

/-- An agent and everything around it. -/
structure World (α : Type) where
  agent : Agent α := {}
  /-- the sources of the profilers, in the order of registration -/
  sources : List Source := []
  /-- who carries the messages; between operations its delivery is that of the agent -/
  courier : Courier
  roster : Roster Reporter := { timers := [] }
  host : Host
  moment : Moment
  /-- what is read about the process at the `n`-th report -/
  readings : Nat → ProcessReadings
  /-- how often the process has been read -/
  reads : Nat := 0

namespace World

variable {α : Type} [Quantity α]

/-- What reports need to know about the outside now. -/
def surroundings (w : World α) : Surroundings :=
  { moment := w.moment, processors := w.host.processors, readings := w.readings w.reads
    profile := fun i => (w.sources[i]?.map Source.peek).getD (.error (.sourceFailed "no source")) }

omit [Quantity α] in
/-- Some profilers have read their sources. -/
def advanceSources (w : World α) (reads : Nat → Bool) : World α :=
  { w with
    sources := w.sources.mapIdx fun i source => if reads i then source.advance else source }

omit [Quantity α] in
/-- Whether a profiler reads its source when it reports. -/
def readsAtReport (w : World α) (i : Nat) : Bool :=
  match w.agent.pipeline.bind (·.profilers[i]?) with
  | some profiler => profiler.settings.mode == .snapshot
  | none => false

/-- Have the courier do something with the messages of the agent, if it has been started. -/
def withCourier {β : Type} (w : World α) (f : Courier → β × Courier) : Option β × World α :=
  let (result, agent) := w.agent.withDelivery fun delivery =>
    let (b, courier) := f { w.courier with delivery }
    ((b, courier), courier.delivery)
  match result with
  | some (b, courier) => (some b, { w with courier, agent })
  | none => (none, w)

/-- Have the courier do something of which the result does not matter. -/
def courierDoes (w : World α) (f : Courier → Courier) : World α :=
  (w.withCourier fun c => ((), f c)).2

/-- Register a profiler with its source. -/
def register (w : World α) (settings : ProfilerSettings α) (source : Source) :
    Except AgentError Unit × World α :=
  let (result, agent) := w.agent.register settings
  let sources := if result.isOk then w.sources ++ [source] else w.sources
  (result, { w with agent, sources })

/-- Start the agent, and its timers with it. -/
def start (w : World α) (config : Config) (runtime : Bool) : Except AgentError Unit × World α :=
  let (result, agent) := w.agent.start config w.host runtime w.moment
  let started := { w with agent, roster := agent.timers w.courier.now }
  if agent.isStarted && !w.agent.isStarted then
    (result, started.courierDoes (·.startLoop config.timings.flushInterval))
  else (result, { w with agent })

/-- Report everything. Whatever may happen now happens first. -/
def reportNow (w : World α) : World α :=
  if w.agent.isRunning then
    let w := w.courierDoes (·.settleDown)
    { w with agent := w.agent.reportNow w.surroundings, reads := w.reads + 1 }.advanceSources
      w.readsAtReport
  else w

/-- Do what a timer is for. -/
def perform (w : World α) (reporter : Reporter) (action : Action) : World α :=
  let agent := w.agent.whenLive (·.perform reporter action w.surroundings)
  let acted := { w with agent }
  match reporter, action with
  | .process, _ => { acted with reads := w.reads + 1 }
  | .profiler i, .record _ => acted.advanceSources (· == i)
  | .profiler i, .report => acted.advanceSources fun j => j == i && w.readsAtReport j
  | _, _ => acted

/-! ## Time -/

/-- Whether a timer wants to be woken now. -/
def isTimerDue (w : World α) : Bool :=
  w.roster.wakesAt?.any fun t => decide (t ≤ w.courier.now)

/-- Wake the first timer that wants to be woken now. -/
def wakeTimer (w : World α) : World α :=
  let (due, roster) := w.roster.wake w.courier.now .zero
  let w := { w with roster }
  match due with
  | some (reporter, action) => w.perform reporter action
  | none => w

/-- The next time at which something happens. -/
def wakesAt? (w : World α) : Option Instant :=
  match w.courier.wakesAt?, w.roster.wakesAt? with
  | some t, some s => some (if t ≤ s then t else s)
  | some t, none => some t
  | none, s => s

/-- Let everything happen before a time, or until the flush that is waited for has ended. -/
def run (limit : Option Instant) : Nat → World α → World α
  | 0, w => w
  | fuel + 1, w =>
    let w := w.courierDoes (·.workOff)
    let time := w.wakesAt?.filter fun t => limit.all (t < ·)
    let next :=
      if !w.courier.isQuiet then some w
      else if w.isTimerDue then some w.wakeTimer
      else time.map fun t => w.courierDoes (·.moveTo t)
    match next.map fun w => w.courierDoes (·.respond) with
    | none => w
    | some w => if w.courier.isOver then w else run limit fuel w

/-- A bound on what happens within a span. -/
def steps (w : World α) (span : Duration) : Nat :=
  w.courier.steps span + w.roster.steps span

/-- A tired caller lets everything happen that may happen now. -/
def rest (w : World α) : World α :=
  if w.courier.caller.isTired then
    run (some w.courier.now) (w.steps .zero) { w with courier.caller.called := true }
  else w

/-- Wait for a while. What else is due when the time has come is still to be done then. -/
def advance (w : World α) (span : Duration) : World α :=
  let w := w.rest
  if span.isZero then { w with courier := w.courier.obtain }
  else
    let limit := w.courier.now.plus span
    let w := run (some limit) (w.steps span) w
    { w with courier := w.courier.arrive limit }

/-- Flush and wait for the end. There is no result before the agent is started, or if the upload
never ends. -/
def flush (w : World α) : Option (Except Delivery.UploadError Nat) × World α :=
  match w.withCourier Courier.newFlush with
  | (none, w) => (none, w)
  | (some flush, w) =>
    let w := w.courierDoes (·.beginToAwait [flush])
    let w := if w.courier.isOver then w else run none (w.steps w.courier.patience) w
    (w.courier.result? flush, { w with courier := w.courier.forget })

/-- Stop the agent: cancel its timers, report everything once more, close it, and upload what is
queued. -/
def stop (w : World α) : World α :=
  if w.agent.isRunning then
    let w := { w with roster := { timers := [] } }.courierDoes fun c => c.abortLoops
    let w := w.reportNow
    let w := { w with agent := w.agent.close }
    let (result, w) := w.flush
    match result with
    | some outcome => { w with agent := w.agent.concludeStop outcome }
    | none => w
  else w

end World

end Telemetry.Simulation
