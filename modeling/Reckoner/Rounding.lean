/-!
# `Reckoner/Rounding.lean` — rounding rationals and measuring their size

Every number that the calculator computes or shows is an exact rational that has been rounded
once. Both roundings, to the nearest binary64 value and to so many decimal digits, come down to
the two functions of this file: the nearest natural number, and the floor of a logarithm, which
says how many digits a magnitude has.

The scale is always a power of ten or of two, and is kept out of the rounding itself: a caller
divides by the unit of the last digit that it keeps, and rounds to a natural number.
-/

set_option autoImplicit false

namespace Reckoner

/-- The neighbour that takes an exact half. -/
inductive Tie where
  | toEven
  | awayFromZero
deriving DecidableEq, Repr

/-- The natural number nearest to a non-negative rational. A negative rational is no magnitude;
the answer for one has no meaning. -/
def roundNat (tie : Tie) (x : Rat) : Nat :=
  let below := x.floor.toNat
  let excess := x - below
  if excess < 1 / 2 then below
  else if 1 / 2 < excess then below + 1
  else match tie with
    | .awayFromZero => below + 1
    | .toEven => if below % 2 = 0 then below else below + 1

/-- The digits of `n` in the given base, counted; zero is written with one. In base two the place
of the leading bit tells their number. -/
def numeralLength (base n : Nat) : Nat :=
  if base = 2 then n.log2 + 1 else (Nat.toDigits base n).length

/-- The largest integer `k` with `base ^ k ≤ x`, for a positive `x`.

A numerator of `a` digits and a denominator of `b` digits leave two candidates, `a - b` and the
integer below it, so one comparison decides. -/
def floorLog (base : Nat) (x : Rat) : Int :=
  let upper : Int := numeralLength base x.num.natAbs - numeralLength base x.den
  if x < (base : Rat) ^ upper then upper - 1 else upper

end Reckoner
