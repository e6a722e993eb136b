import Reckoner.Binary64.Basic
import Reckoner.Decimal.Basic
/-!
# `Reckoner/Binary64/Decimal.lean` — between binary and decimal

Every finite binary value is a decimal number, since a power of two divides a power of ten; the
other way, a decimal is taken to the nearest value.
-/

set_option autoImplicit false

namespace Reckoner.Binary64

/-- The decimal number that a finite value is, digit for digit. An integer gets exponent zero;
`m / 2 ^ k` is `m * 5 ^ k / 10 ^ k`. -/
def toDecimal : Binary64 → Decimal
  | .finite negative significand exponent _ =>
    if 0 ≤ exponent then ⟨negative, significand * Nat.pow 2 exponent.toNat, 0⟩
    else ⟨negative, significand * Nat.pow 5 exponent.natAbs, exponent⟩
  | v => ⟨v.isNegative, 0, 0⟩

/-- The value nearest to a decimal number. The first three cases are what the last would give for
magnitudes far out of range; they are told by the place of the leading digit, so that no power of
ten of that size is ever built. -/
def ofDecimal (d : Decimal) : Binary64 :=
  if d.coefficient = 0 then zero d.negative
  else if 400 < d.leadingExponent then .infinity d.negative
  else if d.leadingExponent < -400 then zero d.negative
  else ofRat d.negative d.magnitude

end Reckoner.Binary64
