/-!
# Blank characters

A character is blank if Unicode gives it the property `White_Space`. The classes of `Char` in the
core library know ASCII only, so the twenty-five characters are listed here.

The functions work on lists of characters, on which the search for a token is plain recursion.
-/

namespace Telemetry.Text

/-- Whether Unicode counts a character as white space. -/
def isBlank (c : Char) : Bool :=
  let n := c.toNat
  (9 ≤ n && n ≤ 13) || n == 0x20 || n == 0x85 || n == 0xA0 || n == 0x1680
    || (0x2000 ≤ n && n ≤ 0x200A) || n == 0x2028 || n == 0x2029 || n == 0x202F || n == 0x205F
    || n == 0x3000

/-- Whether a text holds no character but blanks. -/
def allBlank (s : String) : Bool :=
  s.toList.all isBlank

/-- A text without the blanks around it. -/
def trim (s : String) : String :=
  String.ofList ((s.toList.dropWhile isBlank).reverse.dropWhile isBlank).reverse

/-- The first run of characters that are not blank. There is none in a blank text. -/
def firstToken? (cs : List Char) : Option (List Char) :=
  match (cs.dropWhile isBlank).takeWhile (fun c => !isBlank c) with
  | [] => none
  | token => some token

/-- What the core library counts as white space is blank. -/
theorem isBlank_of_isWhitespace {c : Char} (h : c.isWhitespace = true) : isBlank c = true := by
  simp only [Char.isWhitespace, Bool.or_eq_true, decide_eq_true_eq] at h
  rcases h with ((rfl | rfl) | rfl) | rfl <;> decide

end Telemetry.Text
