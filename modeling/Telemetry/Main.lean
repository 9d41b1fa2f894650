import Std.Time.DateTime.Timestamp
import Telemetry.CommandLine.Help
import Telemetry.CommandLine.Launch
import Telemetry.CommandLine.Session
import Telemetry.Delivery.Transport
import Telemetry.Status

/-!
# The command line program

The outer layer of the program: it reads clocks, files and the tables of the kernel, draws numbers,
writes what the agent has to say to the standard error stream, and sends uploads there too or to a
file. What there is to decide is decided by the session.

The program runs until its time is up, and then stops the agent; or until it is interrupted.
-/

namespace Telemetry.CommandLine

/-! ## Looking outside -/

/-- What went wrong with a file. -/
def fileErrorOf (e : IO.Error) : FileError :=
  match e with
  | .noFileOrDirectory .. => .notFound
  | .permissionDenied .. => .denied
  | .inappropriateType _ code _ => if code = 21 then .isDirectory else .notDirectory
  | .invalidArgument _ code _ => if code = 22 then .nulInName else .nameTooLong
  | other => .other (toString other)

/-- Do something with a file. -/
def attempt {β : Type} (action : IO β) : IO (Except FileError β) := do
  try return .ok (← action)
  catch e => return .error (fileErrorOf e)

/-- Read a file. -/
def readFile (path : String) : IO (Except FileError ByteArray) :=
  attempt (IO.FS.readBinFile path)

/-- Read a file that holds text, and nothing if that is not possible. -/
def readText? (path : String) : IO (Option String) := do
  return ((← readFile path).bind textOfFile).toOption

/-- The wall clock. -/
def wallClock : IO UnixTime := do
  let now ← Std.Time.Timestamp.now
  return ⟨UInt64.ofNat now.toSecondsSinceUnixEpoch.val.toNat⟩

/-- The steady clock. -/
def steadyClock : IO Instant := do
  return ⟨← IO.monoNanosNow⟩

/-- What goes into the ids and stamps made now. -/
def currentMoment : IO Moment := do
  let now ← wallClock
  let seed ← IO.rand 0 999999999
  return { now, draw := fun n => (randNat (mkStdGen (seed + n)) 0 999999999).1 }

/-- The digest of the running program, and nothing if it cannot be read. -/
def programDigest : IO String := do
  match ← readFile (← IO.appPath).toString with
  | .ok content => return (HashId.ofBytes [content]).text
  | .error _ => return ""

/-- The first number in a table of the kernel. -/
def firstNumber? (text : String) : Option UInt64 :=
  (Text.firstToken? text.toList).bind Text.numeral?

/-- The machine and the process. -/
def currentHost : IO Host := do
  let table := (← readText? "/proc/cpuinfo").getD ""
  let processors := (Status.lines table.toList).countP fun line =>
    "processor".toList.isPrefixOf line
  return {
    environmentName := (← IO.getEnv "HOSTNAME").getD ""
    kernelName := ← readText? "/proc/sys/kernel/hostname"
    processors := max processors 1
    processId := ((← readText? "/proc/self/stat").bind firstNumber?).elim "" (toString ·.toNat)
    buildId := ← programDigest }

/-- What can be read about the process. Its processor time is that of its main thread, which does
all the work. -/
def currentReadings : IO ProcessReadings := do
  let status := (← readText? "/proc/self/status").getD ""
  let field (name : String) : Reading UInt64 :=
    match Status.find? status name with
    | some kilobytes => .ok kilobytes
    | none => .error ("Field " ++ name ++ " not found in /proc/self/status")
  let cpuTime : Reading Duration :=
    match (← readText? "/proc/self/schedstat").bind firstNumber? with
    | some nanos => .ok ⟨nanos.toNat⟩
    | none => .error "Failed to read /proc/self/schedstat"
  return { now := ← steadyClock, cpuTime, maxResident := field "VmHWM"
           currentResident := field "VmRSS", virtualSize := field "VmSize" }

/-- Look at the heap of the shop. -/
def drawHeap : IO HeapDraw := do
  return { carts := ← IO.rand 10 49, cartBytes := ← IO.rand 200000 399999
           inventories := ← IO.rand 1 4, inventoryBytes := ← IO.rand 20000 89999 }

/-- What reports need to know about the outside now. -/
def currentSurroundings (host : Host) : IO Surroundings := do
  let heap ← drawHeap
  return { moment := ← currentMoment, processors := host.processors, readings := ← currentReadings
           profile := fun _ => .ok heap.profile }

/-- A task that begins now. -/
def drawTask (now : Instant) : IO Task := do
  return .start now (← IO.rand 5 59) (← IO.rand 0 99) (← IO.rand 0 99)

/-! ## Writing -/

/-- Write a line to the standard error stream. -/
def writeLine (line : JournalLine) : IO Unit := IO.eprintln line.render

/-- Write what the agent has written down. -/
def writeJournal (s : Session) : IO Session := do
  let (lines, s) := s.drainJournal
  lines.forM writeLine
  return s

/-- Add to the end of a file. -/
def appendFile (path : String) (content : ByteArray) : IO Unit := do
  let file ← IO.FS.Handle.mk path .append
  file.write content
  file.flush

/-- Send an upload to the file, or say what it is about if there is none. -/
def upload (output : Option String) (request : UploadRequest) :
    IO (Except Delivery.UploadError Unit) := do
  match output with
  | none =>
    writeLine ⟨.info, Delivery.summary request⟩
    return .ok ()
  | some path =>
    let done ← attempt (appendFile path (Delivery.documentLine request).toUTF8)
    return done.mapError fun reason => .failed reason.message

/-- Do the upload that a flush asks for, if it asks for one. -/
def complete (output : Option String) (flush : Option UploadRequest × Session) :
    IO (Except Delivery.UploadError Nat × Session) := do
  match flush with
  | (some request, s) => return s.settle (← upload output request)
  | (none, s) => return (.ok 0, s)

/-! ## Running -/

/-- The longest that the program sleeps. -/
def longestNap : Duration := .ofMillis 250

/-- How long to sleep until something happens, in milliseconds. -/
def nap (s : Session) (now : Instant) : UInt32 :=
  let millis := match s.wakesAt? with
    | some t => min (t.since now).toMillis longestNap.toMillis
    | none => longestNap.toMillis
  UInt32.ofNat (max millis 1)

/-- Let everything happen for which it is time. -/
def turn (output : Option String) (host : Host) (s : Session) : IO Session := do
  let now ← steadyClock
  let mut s := s
  for worker in s.idle now do
    s := s.takeUp worker now (← IO.rand 0 (s.offered worker)) (← drawTask now)
  if s.isDue now then
    s := s.report now .zero (← currentSurroundings host)
  let (_, settled) ← complete output (s.flushDue (← wallClock) now)
  writeJournal settled

/-- Run a session until its time is up. -/
def runSession (output : Option String) (host : Host) (stopsAt : Option Instant) (s : Session) :
    IO Session := do
  let mut s := s
  repeat
    let now ← steadyClock
    if stopsAt.any (· ≤ now) then break
    IO.sleep (nap s now)
    s ← turn output host s
  return s

/-- Stop the agent of a session. -/
def stopSession (output : Option String) (host : Host) (s : Session) : IO Unit := do
  let s := s.close (← currentSurroundings host)
  let (result, s) ← complete output (s.flushNow (← wallClock) (← steadyClock))
  discard (writeJournal (s.conclude result))

/-- Run an agent as the command line says. -/
def runAgent (args : Args) (host : Host) (agent : Agent Float) : IO Unit := do
  let now ← steadyClock
  let tasks ← (List.range workers).mapM fun _ => drawTask now
  let stopsAt :=
    if args.duration = 0 then none else some (now.plus (.ofSeconds args.duration.toNat))
  let s ← runSession args.output host stopsAt (.start agent now tasks)
  stopSession args.output host s

/-- Carry out a command line. Returns the exit code. -/
def carryOut (words : List String) : IO UInt8 := do
  match Args.parse words with
  | .error .displayHelp =>
    IO.print help
    return Refusal.displayHelp.exitCode
  | .error refusal =>
    IO.eprint refusal.message
    return refusal.exitCode
  | .ok args =>
    let content ← readFile (args.config.getD "")
    let host ← currentHost
    let moment ← currentMoment
    match (args.loadConfig fun _ => content).bind fun config => launch config host moment with
    | .error failure =>
      IO.eprint failure.message
      return failure.exitCode
    | .ok agent =>
      runAgent args host agent
      return 0

end Telemetry.CommandLine

def main (words : List String) : IO UInt32 := do
  return (← Telemetry.CommandLine.carryOut words).toUInt32
