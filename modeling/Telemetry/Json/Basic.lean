/-!
# JSON values

The value type shared by everything that is read from or written as JSON: configurations, records
on the wire, the content of queued messages.

Objects are lists of fields, so that a document keeps the order and the repetitions of its keys.
Whoever reads a record decides what a repeated key means (`Json.record?` has the rules); content
that is only passed on is put into `canonical` form first, where keys are sorted and the last of
equal keys wins.

A document may hold parts that are well formed but stand for nothing that could be read: half of a
surrogate pair in a string, or containers nested too deeply. They are `unreadable`; a reader may
skip them and nothing else.
-/

namespace Telemetry

/-- A JSON number: whole if it was written without fraction and exponent and fits 64 bits, else a
double. -/
inductive Json.Number where
  /-- a whole number between `-2 ^ 63` and `2 ^ 64 - 1` -/
  | whole (n : Int)
  /-- any other number -/
  | real (x : Float)

/-- A JSON value. -/
inductive Json where
  /-- the value `null` -/
  | null
  /-- a truth value -/
  | bool (b : Bool)
  /-- a number -/
  | number (n : Json.Number)
  /-- a string -/
  | string (s : String)
  /-- a list of values -/
  | array (elements : List Json)
  /-- fields in the order in which they are written -/
  | object (fields : List (String × Json))
  /-- a well formed value that can only be skipped -/
  | unreadable

instance : Inhabited Json := ⟨.null⟩

namespace Json

/-- A whole number as a value. -/
def ofInt (n : Int) : Json := .number (.whole n)

/-- A natural number as a value. -/
def ofNat (n : Nat) : Json := .number (.whole n)

/-- A double as a value. JSON has no text for infinities and not-a-number; they become `null`. -/
def ofFloat (x : Float) : Json :=
  if x.isFinite then .number (.real x) else .null

/-- A value or `null`. -/
def ofOption {α : Type} (encode : α → Json) : Option α → Json
  | none => .null
  | some a => encode a

/-! ## Canonical form -/

/-- Put a field among fields sorted by key, in place of one with the same key. -/
def putField (key : String) (value : Json) : List (String × Json) → List (String × Json)
  | [] => [(key, value)]
  | (k, v) :: rest =>
    if key < k then (key, value) :: (k, v) :: rest
    else if key = k then (key, value) :: rest
    else (k, v) :: putField key value rest

mutual

/-- The value with the fields of every object sorted by key, the last of equal keys winning. -/
def sorted : Json → Json
  | .array elements => .array (sortedElements elements)
  | .object fields => .object (sortedFields fields [])
  | .null => .null
  | .bool b => .bool b
  | .number n => .number n
  | .string s => .string s
  | .unreadable => .unreadable

/-- `sorted` of each element. -/
def sortedElements : List Json → List Json
  | [] => []
  | element :: rest => element.sorted :: sortedElements rest

/-- Fields put one after the other among fields that are sorted already. -/
def sortedFields : List (String × Json) → List (String × Json) → List (String × Json)
  | [], done => done
  | (key, value) :: rest, done => sortedFields rest (putField key value.sorted done)

end

mutual

/-- Whether every part of a value can be read: no part is unreadable, and no number is beyond the
range of doubles. -/
def isReadable : Json → Bool
  | .number (.real x) => x.isFinite
  | .array elements => elementsReadable elements
  | .object fields => fieldsReadable fields
  | .unreadable => false
  | .null | .bool _ | .number (.whole _) | .string _ => true

/-- `isReadable` of each element. -/
def elementsReadable : List Json → Bool
  | [] => true
  | element :: rest => element.isReadable && elementsReadable rest

/-- `isReadable` of each field's value. -/
def fieldsReadable : List (String × Json) → Bool
  | [] => true
  | (_, value) :: rest => value.isReadable && fieldsReadable rest

end

/-- The canonical form of content that is passed on as it is, if it can be read. -/
def canonical? (j : Json) : Option Json :=
  if j.isReadable then some j.sorted else none

end Json

end Telemetry
