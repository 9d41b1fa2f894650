/-!
# Time

Three notions of time are kept apart.

* `UnixTime` — wall-clock time in whole seconds, stamped on messages and measurements.
* `Duration` — a span of time in nanoseconds, the unit of every interval and delay.
* `Instant` — a reading of a clock that never runs backwards, as the duration since its start. A
  clock has a last one (`Instant.last`), and there are spans that lead past it.
-/

namespace Telemetry

/-- Wall-clock time in whole seconds since the start of 1970. -/
structure UnixTime where
  /-- the seconds -/
  seconds : UInt64
  deriving DecidableEq, Repr, Inhabited

namespace UnixTime

/-- The time `s` seconds earlier, and the epoch if that is before it. -/
def minusSeconds (t : UnixTime) (s : UInt64) : UnixTime :=
  if t.seconds < s then ⟨0⟩ else ⟨t.seconds - s⟩

/-- Seconds with their unit. -/
def text (t : UnixTime) : String :=
  toString t.seconds.toNat ++ "s"

theorem toNat_minusSeconds (t : UnixTime) (s : UInt64) :
    (t.minusSeconds s).seconds.toNat = t.seconds.toNat - s.toNat := by
  unfold minusSeconds
  split
  · rename_i h
    have := UInt64.lt_iff_toNat_lt.mp h
    simp only [UInt64.toNat_zero]
    omega
  · rename_i h
    have hle : s.toNat ≤ t.seconds.toNat := by
      have := mt UInt64.lt_iff_toNat_lt.mpr h
      omega
    exact UInt64.toNat_sub_of_le _ _ (UInt64.le_iff_toNat_le.mpr hle)

end UnixTime

/-- A span of time. -/
structure Duration where
  /-- its length in nanoseconds -/
  nanos : Nat
  deriving DecidableEq, Repr, Inhabited

namespace Duration

/-- The nanoseconds in a millisecond. -/
def nanosPerMilli : Nat := 1000000

/-- The nanoseconds in a second. -/
def nanosPerSecond : Nat := 1000000000

/-- No time at all. -/
def zero : Duration := ⟨0⟩

/-- A span of whole milliseconds. -/
def ofMillis (n : Nat) : Duration := ⟨n * nanosPerMilli⟩

/-- A span of whole seconds. -/
def ofSeconds (n : Nat) : Duration := ⟨n * nanosPerSecond⟩

/-- The whole milliseconds in a span. -/
def toMillis (d : Duration) : Nat := d.nanos / nanosPerMilli

/-- The whole seconds in a span. -/
def toSeconds (d : Duration) : Nat := d.nanos / nanosPerSecond

/-- Whether a span is empty. -/
def isZero (d : Duration) : Bool := d.nanos == 0

instance : LE Duration := ⟨fun a b => a.nanos ≤ b.nanos⟩

instance : LT Duration := ⟨fun a b => a.nanos < b.nanos⟩

instance (a b : Duration) : Decidable (a ≤ b) := inferInstanceAs (Decidable (a.nanos ≤ b.nanos))

instance (a b : Duration) : Decidable (a < b) := inferInstanceAs (Decidable (a.nanos < b.nanos))

/-- What remains of a span once another is taken off, nothing if the other is longer. -/
def minus (a b : Duration) : Duration := ⟨a.nanos - b.nanos⟩

theorem toSeconds_ofMillis (n : Nat) : (ofMillis n).toSeconds = n / 1000 := by
  simp only [ofMillis, toSeconds, nanosPerMilli, nanosPerSecond]
  omega

end Duration

/-- A reading of a clock that never runs backwards. -/
structure Instant where
  /-- the nanoseconds since the clock started -/
  nanos : Nat
  deriving DecidableEq, Repr, Inhabited

namespace Instant

/-- The start of the clock. -/
def start : Instant := ⟨0⟩

/-- The last instant that a clock can show. It counts the seconds in 63 bits. -/
def last : Instant := ⟨9223372036854775808 * Duration.nanosPerSecond - 1⟩

/-- The instant a span later, which may be past the last one. -/
def plus (t : Instant) (d : Duration) : Instant := ⟨t.nanos + d.nanos⟩

/-- The span from an earlier instant to this one. -/
def since (t earlier : Instant) : Duration := ⟨t.nanos - earlier.nanos⟩

instance : LE Instant := ⟨fun a b => a.nanos ≤ b.nanos⟩

instance : LT Instant := ⟨fun a b => a.nanos < b.nanos⟩

instance (a b : Instant) : Decidable (a ≤ b) := inferInstanceAs (Decidable (a.nanos ≤ b.nanos))

instance (a b : Instant) : Decidable (a < b) := inferInstanceAs (Decidable (a.nanos < b.nanos))

/-- The instant a span later, if there is one that a clock can show. -/
def plus? (t : Instant) (d : Duration) : Option Instant :=
  if t.plus d ≤ last then some (t.plus d) else none

theorem plus?_eq_some_iff {t later : Instant} {d : Duration} :
    t.plus? d = some later ↔ t.plus d = later ∧ later ≤ last := by
  rw [plus?]
  split
  · rename_i hle
    constructor
    · rintro ⟨⟩
      exact ⟨rfl, hle⟩
    · rintro ⟨rfl, -⟩
      rfl
  · rename_i hpast
    constructor
    · rintro ⟨⟩
    · rintro ⟨rfl, hle⟩
      exact absurd hle hpast

end Instant

end Telemetry
