import Reckoner.Decimal.Basic
/-!
# `Reckoner/Decimal/Layout.lean` — decimal numbers as text

The two layouts of a decimal number: positional, with a point where it is needed, and scientific,
with a set number of places after the point and a signed exponent of at least two digits.
-/

set_option autoImplicit false

namespace Reckoner.Decimal

/-- A minus sign, or nothing. -/
def signText (negative : Bool) : List Char := if negative then ['-'] else []

/-- An exponent: always a sign, and at least two digits. -/
def exponentText (exponent : Int) : List Char :=
  let digits := Nat.toDigits 10 exponent.natAbs
  (if exponent < 0 then '-' else '+') :: (List.replicate (2 - digits.length) '0' ++ digits)

/-- Digits before and after a point; without digits after it, there is no point. -/
def literal (whole fraction : List Char) : List Char :=
  whole ++ if fraction.isEmpty then [] else '.' :: fraction

/-- Digits with a point before the last `places` of them, and at least one digit before it. -/
def pointed (places : Nat) (digits : List Char) : List Char :=
  let padded := List.replicate (places + 1 - digits.length) '0' ++ digits
  let whole := padded.length - places
  padded.take whole ++ '.' :: padded.drop whole

/-- The number written out, without an exponent. -/
def positional (d : Decimal) : List Char :=
  signText d.negative ++
    if 0 ≤ d.exponent then d.digits ++ List.replicate d.exponent.toNat '0'
    else pointed (-d.exponent).toNat d.digits

/-- The number as one digit, a point, `places` more digits and an exponent; without places, there is
no point. The coefficient is to have at most `places + 1` digits. A zero is written with `places` as
its exponent. -/
def scientific (places : Nat) (d : Decimal) : List Char :=
  let exponent : Int := if d.coefficient = 0 then places else d.leadingExponent
  let fraction := d.digits.drop 1
  signText d.negative ++
    (literal (d.digits.take 1) (fraction ++ List.replicate (places - fraction.length) '0') ++
      'E' :: exponentText exponent)

end Reckoner.Decimal
