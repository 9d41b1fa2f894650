import Telemetry.Agent

/-!
# The workload of the demonstration

The command line has no host program to attach an agent to, so it plays one: the backend of an
imaginary shop. Its workers time one segment after the other and fail now and then, and its heap is
made up anew whenever it is looked at.

Chance comes in as numbers that whoever runs the workload has drawn.
-/

namespace Telemetry.CommandLine

/-! ## The heap -/

/-- What is drawn for a look at the heap. -/
structure HeapDraw where
  /-- how many carts have grown -/
  carts : Nat
  /-- the bytes they hold -/
  cartBytes : Nat
  /-- how many inventories are loaded -/
  inventories : Nat
  /-- the bytes they hold -/
  inventoryBytes : Nat

namespace HeapDraw

/-- A frame of the shop. -/
def frame (function file : String) (line : UInt32) : Frame :=
  { function, file := some file, line := some line }

/-- The outermost frame of all that the shop does. -/
def mainFrame : Frame := frame "shop::main" "src/main.rs" 12

/-- A site that holds memory, by its frames below the outermost one. -/
def site (frames : List Frame) (objects bytes : Nat) : Sample :=
  { frames := frames ++ [mainFrame], values := [Int64.ofNat objects, Int64.ofNat bytes] }

/-- The heap as a profile. -/
def profile (d : HeapDraw) : Profile :=
  { sampleTypes :=
      [{ kind := "inuse_objects", unit := "count" }, { kind := "inuse_space", unit := "bytes" }]
    samples :=
      [site [frame "shop::cart::grow" "src/shop.rs" 88, frame "shop::checkout" "src/shop.rs" 40]
          d.carts d.cartBytes,
        site [frame "shop::inventory::load" "src/shop.rs" 130] d.inventories d.inventoryBytes] }

end HeapDraw

/-! ## Workers -/

/-- The number of workers. -/
def workers : Nat := 4

/-- A segment that a worker is busy with. -/
structure Task where
  segment : String
  began : Instant
  /-- when the worker is done -/
  ends : Instant
  /-- whether it ends in an error -/
  fails : Bool

namespace Task

/-- A task that begins now. It takes `pause` milliseconds; `choice` and `luck` are drawn from a
hundred: seven tasks of ten are checkouts, and one of twenty fails. -/
def start (now : Instant) (pause choice luck : Nat) : Task :=
  { segment := if choice < 70 then "checkout" else "inventory"
    began := now, ends := now.plus (.ofMillis pause), fails := luck < 5 }

/-- What a worker says when a task has failed. -/
def complaint (t : Task) (worker : Nat) : String :=
  "worker " ++ toString worker ++ ": " ++ t.segment ++ " timed out"

/-- The time a task has taken, in milliseconds. -/
def elapsed (t : Task) (now : Instant) : Float :=
  (now.since t.began).nanos.toFloat / 1000000

/-- Tell an agent that a task has ended. -/
def report (t : Task) (worker : Nat) (now : Instant) (slot : Nat) (a : Agent Float) :
    Agent Float :=
  let a := a.recordSegment t.segment (t.elapsed now) slot
  if t.fails then a.recordError ErrorGroups.handledExceptions (t.complaint worker) else a

end Task

end Telemetry.CommandLine
