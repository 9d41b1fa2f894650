import Telemetry.Decimal.Shortest

/-!
# How a double is written

The digits of a double are fixed by `Decimal.shortest`; a `Layout` says how they are set out: from
which exponents on a power of ten is written, whether a whole number keeps a fraction, and what
stands for the values that are no numbers. The two layouts in use are `Layout.json`, for documents,
and `Layout.plain`, for text meant to be read.
-/

namespace Telemetry.Decimal

/-- The decisions that turn digits into text. -/
structure Layout where
  /-- the leading places written without a power of ten; `none` for all of them -/
  positional : Option (Int × Int)
  /-- what follows the digits of a whole number -/
  wholeSuffix : String
  /-- which of two equally near decimals is taken -/
  tie : Tie
  /-- the text of not-a-number -/
  nanText : String
  /-- the text of positive infinity; the negative one has a minus sign before it -/
  infiniteText : String

/-- Numbers in documents: positional from `10 ^ -5` to below `10 ^ 16`, whole numbers marked by
`.0`, a tie to the even digit. Documents have no text for what is no number. -/
def Layout.json : Layout where
  positional := some (-5, 15)
  wholeSuffix := ".0"
  tie := .toEven
  nanText := "null"
  infiniteText := "null"

/-- Numbers for reading: always positional, whole numbers without a point, a tie upwards. -/
def Layout.plain : Layout where
  positional := none
  wholeSuffix := ""
  tie := .up
  nanText := "NaN"
  infiniteText := "inf"

/-- Digits with a decimal point and without a power of ten. -/
def Digits.positional (d : Digits) (wholeSuffix : String) : String :=
  if d.leading < 0 then
    "0." ++ String.ofList (List.replicate (-d.leading - 1).toNat '0' ++ d.digits)
  else
    let whole := d.leading.toNat + 1
    if d.digits.length ≤ whole then
      String.ofList (d.digits ++ List.replicate (whole - d.digits.length) '0') ++ wholeSuffix
    else
      String.ofList (d.digits.take whole) ++ "." ++ String.ofList (d.digits.drop whole)

/-- Digits with one of them before the point and a signed power of ten. -/
def Digits.scientific (d : Digits) : String :=
  let mantissa :=
    match d.digits with
    | first :: second :: rest => String.ofList [first] ++ "." ++ String.ofList (second :: rest)
    | digits => String.ofList digits
  let sign := if d.leading < 0 then "-" else "+"
  mantissa ++ "e" ++ sign ++ toString d.leading.natAbs

/-- The text of digits under a layout. -/
def Layout.digits (layout : Layout) (d : Digits) : String :=
  match layout.positional with
  | none => d.positional layout.wholeSuffix
  | some (least, greatest) =>
    if least ≤ d.leading ∧ d.leading ≤ greatest then d.positional layout.wholeSuffix
    else d.scientific

/-- The text of a double under a layout. -/
def Layout.text (layout : Layout) (x : Float) : String :=
  match Binary64.parts x with
  | .nan => layout.nanText
  | .infinite negative => (if negative then "-" else "") ++ layout.infiniteText
  | .finite negative 0 _ => (if negative then "-0" else "0") ++ layout.wholeSuffix
  | .finite negative mantissa exponent =>
    (if negative then "-" else "") ++ layout.digits (shortest layout.tie mantissa exponent)

end Telemetry.Decimal
