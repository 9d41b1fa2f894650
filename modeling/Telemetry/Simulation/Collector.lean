import Telemetry.Delivery

/-!
# A collector that follows a script

In a simulation there is no network. Uploads go to a collector that treats each of them as the next
line of a script says: how long it takes, what is queued in the meantime, and how it answers. When
the script has run out, it accepts everything at once.
-/

namespace Telemetry.Simulation

/-- How an upload ends. -/
inductive Answer where
  | accept
  | refuse (e : Delivery.UploadError)
  /-- it never ends -/
  | stall

/-- A line of the script. -/
structure Reply where
  /-- content that is queued when the upload begins -/
  meanwhile : List Json := []
  /-- how often all others act first before the upload goes on -/
  yields : Nat := 0
  /-- how long the upload takes -/
  delay : Duration := .zero
  answer : Answer := .accept

/-- What becomes of an upload, if it ends at all. -/
def Reply.outcome? (r : Reply) : Option (Except Delivery.UploadError Unit) :=
  match r.answer with
  | .accept => some (.ok ())
  | .refuse e => some (.error e)
  | .stall => none

/-- A collector and what it has seen. -/
structure Collector where
  /-- what is left of the script -/
  script : List Reply := []
  /-- how many uploads were attempted -/
  attempts : Nat := 0
  /-- the uploads that were accepted, oldest first -/
  accepted : List UploadRequest := []

namespace Collector

/-- An upload begins. Returns how it is treated. -/
def begin (c : Collector) : Reply × Collector :=
  match c.script with
  | [] => ({}, { c with attempts := c.attempts + 1 })
  | reply :: rest => (reply, { c with script := rest, attempts := c.attempts + 1 })

/-- Keep an upload that was accepted. -/
def keep (c : Collector) (request : UploadRequest) : Collector :=
  { c with accepted := c.accepted ++ [request] }

/-- How often uploads of the script let the others act first. -/
def yields (c : Collector) : Nat :=
  c.script.foldl (fun n reply => n + reply.yields) 0

/-- The time that the whole script can take. -/
def duration (c : Collector) : Duration :=
  ⟨c.script.foldl (fun nanos reply => nanos + reply.delay.nanos) 0⟩

end Collector

end Telemetry.Simulation
