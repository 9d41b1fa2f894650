import Telemetry.Text.Blank
import Telemetry.Text.Numeral

/-!
# Process status tables

The kernel describes a process in lines such as `VmRSS:    4096 kB`. `Status.find?` looks up the
number of a field: the first line that names exactly this field and has a number as its first token
after the colon. Lines that do not are passed over, whatever is wrong with them.

`Status.render` writes such a table, and is what `find?` can be checked against.
-/

namespace Telemetry.Status

/-- The lines of a text. A line ends at a line feed, and a carriage return right before it is not
part of the line. The text after the last line feed is a line unless it is empty. -/
def lines : List Char → List (List Char)
  | [] => []
  | '\n' :: rest => [] :: lines rest
  | '\r' :: '\n' :: rest => [] :: lines rest
  | c :: rest =>
    match lines rest with
    | [] => [[c]]
    | line :: others => (c :: line) :: others

/-- What a line says after its first colon, if it names the field before it. -/
def valueOf? (field line : List Char) : Option (List Char) :=
  match line.dropWhile (· != ':') with
  | ':' :: value => if line.takeWhile (· != ':') = field then some value else none
  | _ => none

/-- The number a line gives for a field, if it is a line of this field. -/
def lineNumber? (field line : List Char) : Option UInt64 := do
  let value ← valueOf? field line
  let token ← Text.firstToken? value
  Text.numeral? token

/-- The number of a field in a status table. -/
def find? (status field : String) : Option UInt64 :=
  (lines status.toList).findSome? (lineNumber? field.toList)

/-- A status table of fields in kilobytes. -/
def render (fields : List (String × UInt64)) : String :=
  String.join (fields.map fun (name, n) => name ++ ":\t" ++ toString n.toNat ++ " kB\n")

end Telemetry.Status
