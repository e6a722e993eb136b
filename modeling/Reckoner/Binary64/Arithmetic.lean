import Reckoner.Binary64.Basic
/-!
# `Reckoner/Binary64/Arithmetic.lean` — sum, difference, product, quotient and square root

Each operation on finite values is the exact result, rounded once. What is left to say is the
sign of a result that is zero, and the results on infinities and on not a number.
-/

set_option autoImplicit false

namespace Reckoner.Binary64

/-- The value with the opposite sign. -/
def neg : Binary64 → Binary64
  | .nan => .nan
  | .infinity negative => .infinity !negative
  | .finite negative m q h => .finite (!negative) m q h

/-- The value without its sign. -/
def abs : Binary64 → Binary64
  | .nan => .nan
  | .infinity _ => .infinity false
  | .finite _ m q h => .finite false m q h

/-- The value nearest to a rational that is not zero. -/
def ofSigned (x : Rat) : Binary64 := ofRat (x < 0) x.abs

/-- The sum. One that is exactly zero is negative only if both terms are. -/
def add : Binary64 → Binary64 → Binary64
  | .nan, _ | _, .nan => .nan
  | .infinity s, .infinity t => if s = t then .infinity s else .nan
  | .infinity s, .finite .. => .infinity s
  | .finite .., .infinity t => .infinity t
  | x, y =>
    let sum := x.value + y.value
    if sum = 0 then zero (x.isNegative && y.isNegative) else ofSigned sum

/-- The difference: the sum with the opposite. -/
def sub (x y : Binary64) : Binary64 := x.add y.neg

/-- The product, whose sign is that of the factors' signs multiplied. -/
def mul (x y : Binary64) : Binary64 :=
  let negative := x.isNegative ^^ y.isNegative
  if x.isNaN || y.isNaN then .nan
  else if x.isInfinite || y.isInfinite then
    if x.isZero || y.isZero then .nan else .infinity negative
  else ofRat negative (x.magnitude * y.magnitude)

/-- The quotient. A zero divisor gives an infinity, unless the dividend is zero as well. -/
def div (x y : Binary64) : Binary64 :=
  let negative := x.isNegative ^^ y.isNegative
  if x.isNaN || y.isNaN then .nan
  else if x.isInfinite then (if y.isInfinite then .nan else .infinity negative)
  else if y.isInfinite then zero negative
  else if y.isZero then (if x.isZero then .nan else .infinity negative)
  else ofRat negative (x.magnitude / y.magnitude)

/-! ## Square root

The root of a magnitude is rarely rational. It is computed to more than 60 bits by the integer
square root; if that is not exact, the root lies strictly between two neighbours on the finer
grid, and their midpoint rounds as the root does, since every value and every midpoint of two
values lies on that grid. -/

/-- The integer square root of the magnitude, scaled by the given power of two. -/
def scaledRoot (scale : Int) (x : Rat) : Nat := Nat.sqrt (x * (4 : Rat) ^ scale).floor.toNat

/-- A rational that rounds to the value nearest to the square root of a positive magnitude. -/
def rootLike (x : Rat) : Rat :=
  let scale := 64 - floorLog 2 x / 2
  let root := scaledRoot scale x
  let exact := (root : Rat) * root = x * (4 : Rat) ^ scale
  (if exact then (root : Rat) else root + 1 / 2) / (2 : Rat) ^ scale

/-- The square root. A zero is its own root; a negative number has none. -/
def sqrt (x : Binary64) : Binary64 :=
  if x.isNaN || x.isZero then x
  else if x.isNegative then .nan
  else if x.isInfinite then x
  else ofRat false (rootLike x.magnitude)

end Reckoner.Binary64
