import Reckoner.Binary64.Basic
/-!
# `Reckoner/Binary64/Power.lean` — powers

A power of finite values is the exact power, rounded once, like every other operation; but the
exact power is irrational as a rule, and astronomically long where it is rational. Two routes
lead to its nearest value.

* If the exponent is `n / 2 ^ k` and the base has an exact `2 ^ k`-th root, the power is the
  `n`-th power of that root. For small `n` it is computed and rounded.
* In every other case the power is enclosed between two rationals, by square roots and products
  that are rounded outwards to so many bits. If both ends round to one value, that is the nearest
  value; if not, the precision is doubled. A power that lies on a value or halfway between two is
  taken by the first route (a longer one cannot fit in 54 bits), so some precision decides.

The base is made greater than one, by inverting it and the result; a power then only grows on the
way, and one that leaves the range of the values for good stops the computation.

`pow` is total, with the results that the floating-point standard lays down for zeros, infinities
and not a number. `pow?` is the same function with its exceptional cases set apart.

The standard does not say how a finite power is rounded. Here it is the nearest value, which the power
of a mathematical library need not be: it may be off in the last bit, as some are for `1.7 ^ 26`. So
`pow` is one of the standard powers, and what is proved of it as such does not rest on its last bit.
-/

set_option autoImplicit false

namespace Reckoner.Binary64

/-! ## Exact roots -/

/-- The square root of a rational that is a square. -/
def squareRoot? (x : Rat) : Option Rat :=
  let root : Rat := (Nat.sqrt x.num.natAbs : Rat) / (Nat.sqrt x.den : Rat)
  if root * root = x then some root else none

/-- The `2 ^ k`-th root of a rational that has one. -/
def rootOfOrder? : Nat → Rat → Option Rat
  | 0, x => some x
  | k + 1, x => (squareRoot? x).bind (rootOfOrder? k)

/-! ## Enclosures -/

/-- Two positive rationals with a number between them. -/
structure Enclosure where
  lower : Rat
  upper : Rat

/-- The unit of the last of `bits` significant bits. -/
def lastBit (bits : Nat) (x : Rat) : Rat := (2 : Rat) ^ (floorLog 2 x + 1 - bits)

/-- A positive rational cut to so many significant bits. -/
def roundDown (bits : Nat) (x : Rat) : Rat := (x / lastBit bits x).floor * lastBit bits x

/-- A positive rational raised to the next one with so many significant bits. -/
def roundUp (bits : Nat) (x : Rat) : Rat := (x / lastBit bits x).ceil * lastBit bits x

namespace Enclosure

/-- A rational between itself and itself. -/
def exactly (x : Rat) : Enclosure := ⟨x, x⟩

/-- The product of two enclosed numbers, enclosed. -/
def mul (bits : Nat) (a b : Enclosure) : Enclosure :=
  ⟨roundDown bits (a.lower * b.lower), roundUp bits (a.upper * b.upper)⟩

/-- The square root of an enclosed number, enclosed. -/
def squareRoot (bits : Nat) (a : Enclosure) : Enclosure :=
  let root (x : Rat) (up : Nat) : Rat :=
    let scale : Int := bits - floorLog 2 x / 2
    ((Nat.sqrt (x * (4 : Rat) ^ scale).floor.toNat + up : Nat) : Rat) / (2 : Rat) ^ scale
  ⟨root a.lower 0, root a.upper 1⟩

/-- The `2 ^ k`-th root of an enclosed number, enclosed. -/
def rootOfOrder (bits : Nat) : Nat → Enclosure → Enclosure
  | 0, a => a
  | k + 1, a => rootOfOrder bits k (a.squareRoot bits)

/-- A magnitude above which a number and its inverse are both out of reach of the values. -/
def limit : Rat := (2 : Rat) ^ (1100 : Int)

/-- The `n`-th power of an enclosed number above one, by squaring along the binary digits of `n`;
`none` once the power is beyond the limit. -/
def power? (bits : Nat) (a : Enclosure) (n : Nat) : Option Enclosure :=
  (Nat.toDigits 2 n).foldlM (fun power digit =>
    let square := power.mul bits power
    let next := if digit = '1' then square.mul bits a else square
    if limit < next.lower then none else some next) (exactly 1)

end Enclosure

/-! ## The nearest value of a power -/

/-- The value on which both ends agree at the first of the precisions `bits`, `2 * bits`, … that
decides, trying at most `fuel` doublings; after the last one the lower end is taken. The answer
is `none` if the power is beyond the limit. -/
def settle (round : Rat → Binary64) (power? : Nat → Option Enclosure) :
    Nat → Nat → Option Binary64
  | 0, bits => (power? bits).map fun e => round e.lower
  | fuel + 1, bits => (power? bits).bind fun e =>
    if round e.lower = round e.upper then some (round e.lower)
    else settle round power? fuel (2 * bits)

/-- The value nearest to `base ^ (n / 2 ^ k)`, or to its inverse, for a base above one. -/
def powAboveOne (negative inverted : Bool) (base : Rat) (n k : Nat) : Binary64 :=
  let round (x : Rat) : Binary64 := ofRat negative (if inverted then x⁻¹ else x)
  match if n ≤ 1100 then rootOfOrder? k base else none with
  | some root => round (root ^ n)
  | none =>
    let power? (bits : Nat) : Option Enclosure :=
      ((Enclosure.exactly base).rootOfOrder bits k).power? bits n
    match settle round power? 5 128 with
    | some v => v
    | none => if inverted then zero negative else .infinity negative

/-- The value nearest to a power of a positive rational, with the given sign. The exponent's
denominator is to be a power of two. -/
def powRat (negative : Bool) (base exponent : Rat) : Binary64 :=
  let n := exponent.num.natAbs
  let k := exponent.den.log2
  if base = 1 then ofRat negative 1
  else if 1 < base then powAboveOne negative (exponent < 0) base n k
  else powAboveOne negative (0 < exponent) base⁻¹ n k

/-! ## Powers of all values -/

/-- The power of a magnitude with an infinite exponent: beyond all bounds if the magnitude moves
away from one, and zero if it moves towards zero. -/
def powInfinite (base : Binary64) (negativeExponent : Bool) : Binary64 :=
  if !base.isInfinite && base.magnitude = 1 then one
  else if (base.isInfinite || 1 < base.magnitude) = !negativeExponent then .infinity false
  else zero false

/-- A power as the floating-point standard has it, for all pairs of values; of those, the one that is
correctly rounded. -/
def pow (base exponent : Binary64) : Binary64 :=
  let negative := base.isNegative && exponent.isOddInteger
  if exponent.isZero || base = one then one
  else if base.isNaN || exponent.isNaN then .nan
  else if exponent.isInfinite then powInfinite base exponent.isNegative
  else if base.isZero then
    if exponent.isNegative then .infinity negative else zero negative
  else if base.isInfinite then
    if exponent.isNegative then zero negative else .infinity negative
  else if base.isNegative && !exponent.isInteger then .nan
  else powRat negative base.magnitude exponent.value

/-- The exceptional cases of a power: no real result, or a result that is too large. -/
inductive PowerFault where
  | domain
  | range
deriving DecidableEq, Repr

/-- The power, with its exceptional cases set apart: a negative base with a fractional exponent,
a zero base with a negative exponent, and a result of finite operands beyond the finite values. -/
def pow? (base exponent : Binary64) : Except PowerFault Binary64 :=
  let fractional := exponent.isFinite && !exponent.isInteger
  if base.isFinite && base.lt (zero false) && fractional then .error .domain
  else if base.isZero && exponent.lt (zero false) then .error .domain
  else
    let power := pow base exponent
    if base.isFinite && exponent.isFinite && power.isInfinite then .error .range
    else .ok power

end Reckoner.Binary64
