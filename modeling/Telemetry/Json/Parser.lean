import Telemetry.Json.Basic
import Telemetry.Text.Hex

/-!
# Reading JSON text

A recursive descent over the characters of a document. Each reader takes the characters from its
place on and returns what it read with the characters after it, or nothing if the text is malformed.
The number of nested calls never exceeds the number of characters, so the length of the document is
fuel enough.

What is well formed but cannot be read (half a surrogate pair, a container nested deeper than
`maxDepth`) becomes `Json.unreadable` and does not spoil the rest of the document; a numeral too
large for a double becomes an infinity, which no field accepts.
-/

namespace Telemetry.Json

/-- How deeply containers may be nested and still be read. -/
def maxDepth : Nat := 127

/-- Blanks between tokens. -/
def isBlank (c : Char) : Bool :=
  c == ' ' || c == '\n' || c == '\t' || c == '\r'

/-- The characters after leading blanks. -/
def skipBlanks (cs : List Char) : List Char :=
  cs.dropWhile isBlank

/-! ## Strings -/

/-- The sixteen-bit unit of the four digits after `\u`. -/
def hexUnit? (a b c d : Char) : Option Nat := do
  let a ← Hex.value? a
  let b ← Hex.value? b
  let c ← Hex.value? c
  let d ← Hex.value? d
  return ((a * 16 + b) * 16 + c) * 16 + d

/-- The character of a short escape. -/
def unescape? (c : Char) : Option Char :=
  if c = '"' then some '"'
  else if c = '\\' then some '\\'
  else if c = '/' then some '/'
  else if c = 'b' then some '\x08'
  else if c = 'f' then some '\x0c'
  else if c = 'n' then some '\n'
  else if c = 'r' then some '\r'
  else if c = 't' then some '\t'
  else none

/-- Whether a unit is the first half of a surrogate pair. -/
def isHighHalf (unit : Nat) : Bool := 0xD800 ≤ unit && unit < 0xDC00

/-- Whether a unit is the second half of a surrogate pair. -/
def isLowHalf (unit : Nat) : Bool := 0xDC00 ≤ unit && unit < 0xE000

/-- The character of a surrogate pair. -/
def pairChar (high low : Nat) : Char :=
  Char.ofNat (0x10000 + (high - 0xD800) * 0x400 + (low - 0xDC00))

/-- A part of a string literal: a character, or a sixteen-bit unit written as a number. -/
inductive Piece where
  /-- a character, written as itself or by a short escape -/
  | char (c : Char)
  /-- a unit written by its four hexadecimal digits -/
  | unit (n : Nat)

/-- The rest of a string literal, after the opening quote: its pieces, and what follows the closing
quote. Control characters must be escaped. -/
def pieces? : List Char → Option (List Piece × List Char)
  | [] => none
  | '"' :: rest => some ([], rest)
  | '\\' :: 'u' :: a :: b :: c :: d :: rest => do
    let n ← hexUnit? a b c d
    let (others, rest) ← pieces? rest
    return (.unit n :: others, rest)
  | '\\' :: c :: rest => do
    let c ← unescape? c
    let (others, rest) ← pieces? rest
    return (.char c :: others, rest)
  | c :: rest => do
    if c.toNat < 0x20 then none
    else
      let (others, rest) ← pieces? rest
      return (.char c :: others, rest)

/-- The characters that pieces stand for. Units in the surrogate range stand for a character two by
two; there is no string if one of them is alone. -/
def joinPieces? : List Piece → Option (List Char)
  | [] => some []
  | .char c :: rest => (joinPieces? rest).map (c :: ·)
  | .unit high :: .unit low :: rest =>
    if isHighHalf high then
      if isLowHalf low then (joinPieces? rest).map (pairChar high low :: ·) else none
    else if isLowHalf high then none
    else (joinPieces? (.unit low :: rest)).map (Char.ofNat high :: ·)
  | .unit n :: rest =>
    if isHighHalf n || isLowHalf n then none
    else (joinPieces? rest).map (Char.ofNat n :: ·)

/-- The rest of a string literal, after the opening quote: the string, unless it holds half a
surrogate pair, and what follows the closing quote. -/
def literal? (cs : List Char) : Option (Option String × List Char) := do
  let (pieces, rest) ← pieces? cs
  return ((joinPieces? pieces).map String.ofList, rest)

/-! ## Numbers -/

/-- The number that digits write. -/
def digitsValue (digits : List Char) : Nat :=
  digits.foldl (fun n c => n * 10 + (c.toNat - '0'.toNat)) 0

/-- The nearest double to `significand * 10 ^ exponent`. Beyond four hundred places on either side
the value is an infinity or zero whatever the digits, and the power of ten is not computed. -/
def scaledFloat (significand : Nat) (exponent : Int) : Float :=
  if significand = 0 then 0
  else
    let leading := exponent + (Nat.toDigits 10 significand).length
    if leading < -400 then 0
    else if 400 < leading then 1 / 0
    else if exponent < 0 then Float.ofScientific significand true (-exponent).toNat
    else Float.ofScientific significand false exponent.toNat

/-- A numeral with its parts told apart. A numeral without fraction and exponent is whole if it fits
64 bits; the numeral `-0` is a double, as whole numbers have no negative zero. -/
def Number.ofParts (negative : Bool) (whole : List Char) (fraction : Option (List Char))
    (exponent : Option Int) : Number :=
  let significand := digitsValue (whole ++ fraction.getD [])
  let magnitude := scaledFloat significand (exponent.getD 0 - (fraction.getD []).length)
  let double : Number := .real (if negative then -magnitude else magnitude)
  if fraction.isNone && exponent.isNone then
    if negative then
      if 0 < significand ∧ significand ≤ 0x8000000000000000 then .whole (-(significand : Int))
      else double
    else if significand < UInt64.size then .whole significand
    else double
  else double

/-- Digits at the start of the characters, at least one. -/
def digits? (cs : List Char) : Option (List Char × List Char) :=
  match cs.takeWhile Char.isDigit with
  | [] => none
  | digits => some (digits, cs.dropWhile Char.isDigit)

/-- Digits of the whole part: no leading zero unless it stands alone. -/
def wholeDigits? : List Char → Option (List Char × List Char)
  | '0' :: rest =>
    match rest with
    | c :: _ => if c.isDigit then none else some (['0'], rest)
    | [] => some (['0'], [])
  | cs => digits? cs

/-- The fraction after the point, if there is a point. -/
def fraction? : List Char → Option (Option (List Char) × List Char)
  | '.' :: rest => do
    let (digits, rest) ← digits? rest
    return (some digits, rest)
  | cs => some (none, cs)

/-- The exponent with its sign, after its letter. -/
def exponentValue? : List Char → Option (Int × List Char)
  | '+' :: rest => (digits? rest).map fun (digits, rest) => ((digitsValue digits : Int), rest)
  | '-' :: rest => (digits? rest).map fun (digits, rest) => (-(digitsValue digits : Int), rest)
  | cs => (digits? cs).map fun (digits, rest) => ((digitsValue digits : Int), rest)

/-- The exponent, if there is one. -/
def exponent? : List Char → Option (Option Int × List Char)
  | 'e' :: rest => (exponentValue? rest).map fun (e, rest) => (some e, rest)
  | 'E' :: rest => (exponentValue? rest).map fun (e, rest) => (some e, rest)
  | cs => some (none, cs)

/-- A numeral without its sign. -/
def unsigned? (negative : Bool) (cs : List Char) : Option (Number × List Char) := do
  let (whole, cs) ← wholeDigits? cs
  let (fraction, cs) ← fraction? cs
  let (exponent, cs) ← exponent? cs
  return (Number.ofParts negative whole fraction exponent, cs)

/-- A numeral. -/
def numeral? : List Char → Option (Number × List Char)
  | '-' :: rest => unsigned? true rest
  | cs => unsigned? false cs

/-! ## Values -/

/-- The characters after a fixed word. -/
def word? : List Char → List Char → Option (List Char)
  | [], cs => some cs
  | w :: ws, c :: cs => if w = c then word? ws cs else none
  | _ :: _, [] => none

/-- A container at a nesting depth, readable only down to `maxDepth`. -/
def atDepth (depth : Nat) (container : Json) : Json :=
  if depth ≤ maxDepth then container else .unreadable

/-- An object of fields of which each key could be read; otherwise nothing of it can be. -/
def ofFields (fields : List (Option String × Json)) : Json :=
  if fields.all (·.1.isSome) then
    .object (fields.map fun (key, value) => (key.getD "", value))
  else .unreadable

mutual

/-- A value at nesting depth `depth`, blanks before it skipped. -/
def value? : Nat → Nat → List Char → Option (Json × List Char)
  | 0, _, _ => none
  | fuel + 1, depth, cs =>
    match skipBlanks cs with
    | [] => none
    | '"' :: rest => do
      let (body, rest) ← literal? rest
      match body with
      | some s => return (.string s, rest)
      | none => return (.unreadable, rest)
    | '[' :: rest =>
      match skipBlanks rest with
      | ']' :: rest => some (atDepth (depth + 1) (.array []), rest)
      | rest => do
        let (elements, rest) ← elements? fuel (depth + 1) rest
        return (atDepth (depth + 1) (.array elements), rest)
    | '{' :: rest =>
      match skipBlanks rest with
      | '}' :: rest => some (atDepth (depth + 1) (.object []), rest)
      | rest => do
        let (fields, rest) ← fields? fuel (depth + 1) rest
        return (atDepth (depth + 1) (ofFields fields), rest)
    | 'n' :: rest => (word? ['u', 'l', 'l'] rest).map fun rest => (.null, rest)
    | 't' :: rest => (word? ['r', 'u', 'e'] rest).map fun rest => (.bool true, rest)
    | 'f' :: rest => (word? ['a', 'l', 's', 'e'] rest).map fun rest => (.bool false, rest)
    | cs => (numeral? cs).map fun (n, rest) => (.number n, rest)

/-- The elements of an array, the first of them due, up to the closing bracket. -/
def elements? : Nat → Nat → List Char → Option (List Json × List Char)
  | 0, _, _ => none
  | fuel + 1, depth, cs => do
    let (element, rest) ← value? fuel depth cs
    match skipBlanks rest with
    | ']' :: rest => return ([element], rest)
    | ',' :: rest =>
      let (others, rest) ← elements? fuel depth rest
      return (element :: others, rest)
    | _ => none

/-- The fields of an object, the first of them due, up to the closing brace. -/
def fields? : Nat → Nat → List Char → Option (List (Option String × Json) × List Char)
  | 0, _, _ => none
  | fuel + 1, depth, cs => do
    match skipBlanks cs with
    | '"' :: rest =>
      let (key, rest) ← literal? rest
      match skipBlanks rest with
      | ':' :: rest =>
        let (value, rest) ← value? fuel depth rest
        let field := (key, value)
        match skipBlanks rest with
        | '}' :: rest => return ([field], rest)
        | ',' :: rest =>
          let (others, rest) ← fields? fuel depth rest
          return (field :: others, rest)
        | _ => none
      | _ => none
    | _ => none

end

/-- The value that a document writes: one value, with nothing but blanks around it. -/
def parse? (document : String) : Option Json := do
  let cs := document.toList
  let (value, rest) ← value? (cs.length + 1) 0 cs
  if (skipBlanks rest).isEmpty then return value else none

end Telemetry.Json
