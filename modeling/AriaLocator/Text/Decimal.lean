import AriaLocator.Text.Blank
import AriaLocator.Text.Natural

/-!
# Decimal numbers as doubles

The role table compares attribute values with numeric bounds. `number` gives the double that a text
denotes: blanks around it are dropped, a blank text is zero, and a text that is not a decimal
number is not a number. The value of a decimal is rounded once, to the nearest double, ties to even.
-/

namespace AriaLocator.Text

/-- A decimal number as written: `± significand * 10 ^ exponent`. -/
structure Decimal where
  /-- Whether a minus sign stands in front. -/
  negative : Bool
  /-- All digits of the mantissa read as one number. -/
  significand : Nat
  /-- The written exponent less the number of digits after the point. -/
  exponent : Int
deriving DecidableEq, Repr

/-- Splits an optional sign off the front; `true` stands for a minus. -/
def readSign : List Char → Bool × List Char
  | '+' :: rest => (false, rest)
  | '-' :: rest => (true, rest)
  | cs => (false, cs)

/-- The exponent part: nothing, or an `e`, an optional sign and at least one digit. -/
def readExponent? : List Char → Option Int
  | [] => some 0
  | c :: cs =>
    if c = 'e' ∨ c = 'E' then
      let (negative, digits) := readSign cs
      if digits ≠ [] ∧ digits.all Char.isDigit = true then
        some (if negative then -(digitsValue digits : Int) else (digitsValue digits : Int))
      else none
    else none

/-- The digits after a decimal point, if there is one, and what follows them. -/
def readFraction : List Char → List Char × List Char
  | '.' :: rest => (rest.takeWhile Char.isDigit, rest.dropWhile Char.isDigit)
  | cs => ([], cs)

/--
Reads a decimal: a sign, digits, a point with more digits, an exponent. Each part may be missing,
but the mantissa has at least one digit.
-/
def Decimal.read? (cs : List Char) : Option Decimal :=
  let (negative, unsigned) := readSign cs
  let whole := unsigned.takeWhile Char.isDigit
  let (fraction, rest) := readFraction (unsigned.dropWhile Char.isDigit)
  if whole ++ fraction = [] then none
  else
    (readExponent? rest).map fun exponent =>
      { negative
        significand := digitsValue (whole ++ fraction)
        exponent := exponent - (fraction.length : Int) }

/-- The number of decimal digits of a natural number; zero has none. -/
def digitCount (n : Nat) : Nat := if n = 0 then 0 else (Nat.toDigits 10 n).length

/--
The double nearest to a decimal without its sign. A decimal of magnitude above `10 ^ 400` or below
`10 ^ -400` is past every double, and is settled before a power of ten is written out.
-/
def Decimal.magnitude (d : Decimal) : Float :=
  let size := (digitCount d.significand : Int) + d.exponent
  if d.significand = 0 ∨ size < -400 then 0.0
  else if 400 < size then 1.0 / 0.0
  else if 0 ≤ d.exponent then Float.ofScientific d.significand false d.exponent.toNat
  else Float.ofScientific d.significand true (-d.exponent).toNat

/-- The double nearest to a decimal; a negative zero keeps its sign. -/
def Decimal.toFloat (d : Decimal) : Float :=
  if d.negative then -d.magnitude else d.magnitude

/-- What a text that denotes no number has for a value. -/
def notANumber : Float := 0.0 / 0.0

/-- The number that a text denotes: zero if blank, not a number if malformed. -/
def number (s : String) : Float :=
  match trimChars s.toList with
  | [] => 0.0
  | c :: cs => ((Decimal.read? (c :: cs)).map Decimal.toFloat).getD notANumber

end AriaLocator.Text
