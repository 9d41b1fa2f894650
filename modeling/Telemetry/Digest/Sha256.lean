import Telemetry.Text.Hex

/-!
# SHA-256

The hash function of FIPS 180-4: a message is padded to whole blocks of 64 bytes, each block is
expanded into a schedule of 64 words, and the words are mixed one by one into a state of eight.

The state and the schedule carry their lengths in their types, so no index can be out of range.
-/

namespace Telemetry.Sha256

/-- The eight words that blocks are mixed into. -/
abbrev State : Type := Vector UInt32 8

/-- The state before the first block. -/
def initial : State :=
  #v[0x6a09e667, 0xbb67ae85, 0x3c6ef372, 0xa54ff53a, 0x510e527f, 0x9b05688c, 0x1f83d9ab, 0x5be0cd19]

/-- The constants of the sixty-four rounds. -/
def constants : Vector UInt32 64 :=
  #v[0x428a2f98, 0x71374491, 0xb5c0fbcf, 0xe9b5dba5, 0x3956c25b, 0x59f111f1, 0x923f82a4, 0xab1c5ed5,
    0xd807aa98, 0x12835b01, 0x243185be, 0x550c7dc3, 0x72be5d74, 0x80deb1fe, 0x9bdc06a7, 0xc19bf174,
    0xe49b69c1, 0xefbe4786, 0x0fc19dc6, 0x240ca1cc, 0x2de92c6f, 0x4a7484aa, 0x5cb0a9dc, 0x76f988da,
    0x983e5152, 0xa831c66d, 0xb00327c8, 0xbf597fc7, 0xc6e00bf3, 0xd5a79147, 0x06ca6351, 0x14292967,
    0x27b70a85, 0x2e1b2138, 0x4d2c6dfc, 0x53380d13, 0x650a7354, 0x766a0abb, 0x81c2c92e, 0x92722c85,
    0xa2bfe8a1, 0xa81a664b, 0xc24b8b70, 0xc76c51a3, 0xd192e819, 0xd6990624, 0xf40e3585, 0x106aa070,
    0x19a4c116, 0x1e376c08, 0x2748774c, 0x34b0bcb5, 0x391c0cb3, 0x4ed8aa4a, 0x5b9cca4f, 0x682e6ff3,
    0x748f82ee, 0x78a5636f, 0x84c87814, 0x8cc70208, 0x90befffa, 0xa4506ceb, 0xbef9a3f7, 0xc67178f2]

/-- A word rotated right by less than its width. -/
def rotateRight (x : UInt32) (places : UInt32) : UInt32 :=
  (x >>> places) ||| (x <<< (32 - places))

/-! ## Padding -/

/-- The number of zero bytes between the end mark and the length, which makes whole blocks. -/
def zeroBytes (size : Nat) : Nat := (119 - size % 64) % 64

/-- A length in bits, as eight bytes from the most significant one down. -/
def lengthBytes (size : Nat) : ByteArray :=
  ⟨Array.ofFn fun i : Fin 8 => ((size * 8) >>> (8 * (7 - i.val))).toUInt8⟩

/-- The message, an end mark, zeros, and the length of the message in bits. -/
def pad (message : ByteArray) : ByteArray :=
  message.push 0x80 ++ ⟨Array.replicate (zeroBytes message.size) 0⟩ ++ lengthBytes message.size

/-! ## Compression -/

/-- The byte at an index, and zero past the end. -/
def byteAt (bytes : ByteArray) (i : Nat) : UInt32 :=
  if h : i < bytes.size then bytes[i].toUInt32 else 0

/-- The word of four bytes from `start` on, the first one most significant. -/
def wordAt (bytes : ByteArray) (start : Nat) : UInt32 :=
  (byteAt bytes start <<< 24) ||| (byteAt bytes (start + 1) <<< 16)
    ||| (byteAt bytes (start + 2) <<< 8) ||| byteAt bytes (start + 3)

/-- The word that follows sixteen earlier ones in a schedule. -/
def nextWord (w : Array UInt32) (i : Nat) : UInt32 :=
  let a := w.getD (i - 15) 0
  let b := w.getD (i - 2) 0
  let s0 := rotateRight a 7 ^^^ rotateRight a 18 ^^^ (a >>> 3)
  let s1 := rotateRight b 17 ^^^ rotateRight b 19 ^^^ (b >>> 10)
  w.getD (i - 16) 0 + s0 + w.getD (i - 7) 0 + s1

/-- The first `count` words of the schedule of the block that starts at `start`. -/
def schedule (bytes : ByteArray) (start : Nat) : Nat → Array UInt32
  | 0 => #[]
  | i + 1 =>
    let w := schedule bytes start i
    w.push (if i < 16 then wordAt bytes (start + 4 * i) else nextWord w i)

/-- One round: a constant and a word of the schedule mixed into the state. -/
def round (s : State) (constant word : UInt32) : State :=
  let s1 := rotateRight s[4] 6 ^^^ rotateRight s[4] 11 ^^^ rotateRight s[4] 25
  let choice := (s[4] &&& s[5]) ^^^ (~~~s[4] &&& s[6])
  let t1 := s[7] + s1 + choice + constant + word
  let s0 := rotateRight s[0] 2 ^^^ rotateRight s[0] 13 ^^^ rotateRight s[0] 22
  let majority := (s[0] &&& s[1]) ^^^ (s[0] &&& s[2]) ^^^ (s[1] &&& s[2])
  #v[t1 + s0 + majority, s[0], s[1], s[2], s[3] + t1, s[4], s[5], s[6]]

/-- The rounds of one block, started from the state before it and added to that state. -/
def compress (bytes : ByteArray) (s : State) (start : Nat) : State :=
  let w := schedule bytes start 64
  let mixed := (List.finRange 64).foldl
    (fun (t : State) (i : Fin 64) => round t constants[i] (w.getD i 0)) s
  s.zipWith (· + ·) mixed

/-- The state after all blocks of a message. -/
def finalState (message : ByteArray) : State :=
  let bytes := pad message
  (List.range (bytes.size / 64)).foldl (fun s block => compress bytes s (64 * block)) initial

/-! ## The digest in hexadecimal -/

/-- The eight digits of a word. -/
def wordDigits (w : UInt32) : List Char :=
  (List.range 8).map fun i => Hex.digit ((w.toNat >>> (4 * (7 - i))) % 16)

/-- The digest of a message as sixty-four hexadecimal digits. -/
def hex (message : ByteArray) : String :=
  String.ofList ((finalState message).toList.flatMap wordDigits)

end Telemetry.Sha256
