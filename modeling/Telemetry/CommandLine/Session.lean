import Telemetry.CommandLine.Workload

/-!
# Sessions

A session is an agent that runs: the agent, its timers, and the workers that keep it busy. It is a
value, and whoever runs it says what time it is, hands in what was read outside, and does the
uploads that the session asks for, one at a time.
-/

namespace Telemetry.CommandLine

/-- An agent that runs. -/
structure Session where
  agent : Agent Float
  roster : Roster Reporter
  /-- the timer that flushes -/
  flushing : Option Ticker
  /-- what each worker is busy with -/
  tasks : List Task

namespace Session

/-- The only flush that is ever under way. -/
def flush : Delivery.FlushId := 0

/-- The session of an agent that was started just now. -/
def start (agent : Agent Float) (now : Instant) (tasks : List Task) : Session :=
  let flushing := agent.pipeline.bind fun p =>
    Ticker.start? now p.outlet.config.timings.flushInterval
  { agent, roster := agent.timers now, flushing, tasks }

/-- When something next happens. -/
def wakesAt? (s : Session) : Option Instant :=
  let times := s.roster.wakesAt?.toList ++ (s.flushing.map (·.deadline)).toList
    ++ s.tasks.map (·.ends)
  times.foldl (fun earliest t =>
    match earliest with
    | some e => if t < e then some t else earliest
    | none => some t) none

/-- Do something with the messages on their way out. -/
def deliver {β : Type} (s : Session) (f : Delivery → β × Delivery) : Option β × Session :=
  let (b, agent) := s.agent.withDelivery f
  (b, { s with agent })

/-- Take out what has been written down. -/
def drainJournal (s : Session) : List JournalLine × Session :=
  let (lines, s) := s.deliver fun d =>
    let (lines, journal) := d.journal.drain
    (lines, { d with journal })
  (lines.getD [], s)

/-! ## Workers -/

/-- The workers whose tasks have ended. -/
def idle (s : Session) (now : Instant) : List Nat :=
  (List.range s.tasks.length).filter fun worker =>
    match s.tasks[worker]? with
    | some task => decide (task.ends ≤ now)
    | none => false

/-- How many durations of a worker's segment were recorded in the current window. -/
def offered (s : Session) (worker : Nat) : Nat :=
  match s.agent.live?, s.tasks[worker]? with
  | some p, some task => p.segments.offered task.segment
  | _, _ => 0

/-- A worker ends its task and takes up another. -/
def takeUp (s : Session) (worker : Nat) (now : Instant) (slot : Nat) (next : Task) : Session :=
  match s.tasks[worker]? with
  | some task =>
    { s with agent := task.report worker now slot s.agent, tasks := s.tasks.set worker next }
  | none => s

/-! ## Reports -/

/-- Whether a timer wants to be woken. -/
def isDue (s : Session) (now : Instant) : Bool :=
  match s.roster.wakesAt? with
  | some t => decide (t ≤ now)
  | none => false

/-- Wake the timers that want to be woken, at most a number of times. `delay` is the delay drawn for
windows. -/
def wakeTimers (now : Instant) (delay : Duration) (around : Surroundings) :
    Nat → Session → Session
  | 0, s => s
  | fuel + 1, s =>
    if s.isDue now then
      let (due, roster) := s.roster.wake now delay
      let agent := match due with
        | some (reporter, action) => s.agent.whenLive (·.perform reporter action around)
        | none => s.agent
      wakeTimers now delay around fuel { s with agent, roster }
    else s

/-- Wake every timer that wants to be woken. -/
def report (s : Session) (now : Instant) (delay : Duration) (around : Surroundings) : Session :=
  wakeTimers now delay around s.roster.timers.length s

/-! ## Uploads -/

/-- Begin the flush that has asked for its turn. Returns what is to be uploaded. -/
def beginUpload (s : Session) (wall : UnixTime) (now : Instant) :
    Option UploadRequest × Session :=
  let (request, s) := s.deliver fun d =>
    match d.start wall now with
    | (.uploading _ request, d) => (some request, d)
    | (.done _, d) | (.idle, d) => (none, d)
  (request.join, s)

/-- Flush if it is time for that. Returns what is to be uploaded. -/
def flushDue (s : Session) (wall : UnixTime) (now : Instant) : Option UploadRequest × Session :=
  match s.flushing with
  | some ticker =>
    if ticker.deadline ≤ now then
      let (asked, s) := { s with flushing := some (ticker.fire now) }.deliver fun d =>
        d.tick flush wall now
      if asked = some true then s.beginUpload wall now else (none, s)
    else (none, s)
  | none => (none, s)

/-- Flush whatever the time is. -/
def flushNow (s : Session) (wall : UnixTime) (now : Instant) : Option UploadRequest × Session :=
  (s.deliver fun d => ((), d.ask flush)).2.beginUpload wall now

/-- The upload that was asked for has ended. Returns what the flush reports. -/
def settle (s : Session) (outcome : Except Delivery.UploadError Unit) :
    Except Delivery.UploadError Nat × Session :=
  let (result, s) := s.deliver fun d => d.settle outcome
  (result.getD (.ok 0), s)

/-! ## The end -/

/-- Stop all timers and workers, report once more, and close the agent. What is queued then is left
to a last flush. -/
def close (s : Session) (around : Surroundings) : Session :=
  { agent := (s.agent.reportNow around).close, roster := { timers := [] }, flushing := none
    tasks := [] }

/-- Write down how the last flush went. -/
def conclude (s : Session) (result : Except Delivery.UploadError Nat) : Session :=
  { s with agent := s.agent.concludeStop result }

end Session

end Telemetry.CommandLine
