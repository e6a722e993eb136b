import Reckoner.Rounding
/-!
# `Reckoner/Decimal/Basic.lean` — decimal numbers

A decimal number is a sign, a coefficient and a power of ten. It is what a numeral says and what a
display shows: the steps between a value and its text (round to so many digits, drop the zeros at
the end) are steps on decimals, and only the two layouts of `Decimal/Layout.lean` turn one into
characters. The sign is kept apart from the coefficient, so that a zero may have one.
-/

set_option autoImplicit false

namespace Reckoner

/-- The number `± coefficient * 10 ^ exponent`. -/
structure Decimal where
  negative : Bool
  coefficient : Nat
  exponent : Int
deriving DecidableEq, Repr

namespace Decimal

/-- The number without its sign. -/
def magnitude (d : Decimal) : Rat := d.coefficient * (10 : Rat) ^ d.exponent

/-- The number that the decimal denotes. -/
def value (d : Decimal) : Rat := if d.negative then -d.magnitude else d.magnitude

/-- The digits of the coefficient. -/
def digits (d : Decimal) : List Char := Nat.toDigits 10 d.coefficient

/-- The exponent of the leading digit. -/
def leadingExponent (d : Decimal) : Int := d.exponent + d.digits.length - 1

/-- The decimal with its last `count` digits rounded away. -/
def dropDigits (tie : Tie) (count : Nat) (d : Decimal) : Decimal :=
  { d with
    coefficient := roundNat tie (d.coefficient / (10 : Rat) ^ count)
    exponent := d.exponent + count }

/-- The decimal rounded to at most `count` significant digits. A carry out of the leading digit
leaves a power of ten, whose zeros `strip` drops. -/
def round (tie : Tie) (count : Nat) (d : Decimal) : Decimal :=
  d.dropDigits tie (d.digits.length - count)

/-- One zero after another moved from the coefficient to the exponent, at most `fuel` of them. -/
def stripWithin : Nat → Decimal → Decimal
  | 0, d => d
  | fuel + 1, d =>
    if d.coefficient % 10 = 0 then
      stripWithin fuel { d with coefficient := d.coefficient / 10, exponent := d.exponent + 1 }
    else d

/-- The same number with the shortest coefficient; a zero gets exponent zero. -/
def strip (d : Decimal) : Decimal :=
  if d.coefficient = 0 then { d with exponent := 0 } else stripWithin d.digits.length d

end Decimal

end Reckoner
