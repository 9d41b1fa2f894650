import Telemetry.Decimal.Layout
import Telemetry.Json.Basic
import Telemetry.Text.Hex

/-!
# JSON text

Compact JSON: no space between tokens, strings with the short escapes where there is one. Since
every control character is escaped, no text of a value holds a line break, and a file of one text
per line can be cut into its values again.

`write` puts a value in front of the text that follows it, so that a deep value costs no more than
its length.
-/

namespace Telemetry.Json

/-- A character inside a string: quote, backslash and the controls below the space are escaped, by a
letter where one is set aside for it; every other character stands for itself. -/
def escape (c : Char) : List Char :=
  if c = '"' then ['\\', '"']
  else if c = '\\' then ['\\', '\\']
  else if c = '\x08' then ['\\', 'b']
  else if c = '\x0c' then ['\\', 'f']
  else if c = '\n' then ['\\', 'n']
  else if c = '\r' then ['\\', 'r']
  else if c = '\t' then ['\\', 't']
  else if c.toNat < 0x20 then
    ['\\', 'u', '0', '0', Hex.digit (c.toNat / 16), Hex.digit (c.toNat % 16)]
  else [c]

/-- The characters of a string literal, in front of `rest`. -/
def writeChars : List Char → List Char → List Char
  | [], rest => '"' :: rest
  | c :: cs, rest => escape c ++ writeChars cs rest

/-- A string literal, in front of `rest`. -/
def writeString (s : String) (rest : List Char) : List Char :=
  '"' :: writeChars s.toList rest

/-- The text of a number. -/
def Number.text : Number → String
  | .whole n => toString n
  | .real x => Decimal.Layout.json.text x

mutual

/-- The text of a value, in front of `rest`. -/
def write : Json → List Char → List Char
  | .null, rest => 'n' :: 'u' :: 'l' :: 'l' :: rest
  | .bool true, rest => 't' :: 'r' :: 'u' :: 'e' :: rest
  | .bool false, rest => 'f' :: 'a' :: 'l' :: 's' :: 'e' :: rest
  | .number n, rest => n.text.toList ++ rest
  | .string s, rest => writeString s rest
  | .array [], rest => '[' :: ']' :: rest
  | .array (first :: others), rest => '[' :: write first (writeElements others rest)
  | .object [], rest => '{' :: '}' :: rest
  | .object ((key, value) :: others), rest =>
    '{' :: writeString key (':' :: write value (writeFields others rest))
  | .unreadable, rest => 'n' :: 'u' :: 'l' :: 'l' :: rest

/-- The elements after the first and the closing bracket, in front of `rest`. -/
def writeElements : List Json → List Char → List Char
  | [], rest => ']' :: rest
  | element :: others, rest => ',' :: write element (writeElements others rest)

/-- The fields after the first and the closing brace, in front of `rest`. -/
def writeFields : List (String × Json) → List Char → List Char
  | [], rest => '}' :: rest
  | (key, value) :: others, rest =>
    ',' :: writeString key (':' :: write value (writeFields others rest))

end

/-- The compact text of a value. -/
def text (j : Json) : String :=
  String.ofList (j.write [])

end Telemetry.Json
