import Telemetry.Digest.Sha256

/-!
# Hash ids

Metrics, runs and observations are identified by the SHA-256 digest of the texts that make them up,
written one after the other without a separator. `joined` is exactly what is hashed, so whether two
ids can differ is a question about `joined`.
-/

namespace Telemetry

/-- An id: sixty-four hexadecimal digits. -/
structure HashId where
  /-- the digits -/
  text : String
  deriving DecidableEq, Repr, Inhabited

namespace HashId

/-- Parts written one after the other. -/
def joinedBytes (parts : List ByteArray) : ByteArray :=
  parts.foldl (· ++ ·) ByteArray.empty

/-- Texts written one after the other. -/
def joined (parts : List String) : String :=
  String.join parts

/-- The id of a sequence of bytes given in parts. -/
def ofBytes (parts : List ByteArray) : HashId :=
  ⟨Sha256.hex (joinedBytes parts)⟩

/-- The id of a text given in parts. -/
def digest (parts : List String) : HashId :=
  ⟨Sha256.hex (joined parts).toUTF8⟩

end HashId

end Telemetry
