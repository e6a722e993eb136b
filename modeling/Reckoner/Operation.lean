import Reckoner.Binary64.Arithmetic
import Reckoner.Binary64.Power
import Reckoner.Error
import Reckoner.Token.Basic
/-!
# `Reckoner/Operation.lean` — what the operators do

The operators of an expression on binary values. Two of them refuse an operand: nothing is divided
by zero, and no negative number has a square root. The others always give a value, if only an
infinity or not a number; such a value is an error when it is the value of the whole expression,
and not before.
-/

set_option autoImplicit false

namespace Reckoner.Operation

/-- The quotient; the divisor must not be zero. -/
def divide (x y : Binary64) : Except EvalError Binary64 :=
  if y.isZero then .error (.divisionByZero x) else .ok (x.div y)

/-- The square root of an operand that is not negative. -/
def squareRoot (x : Binary64) : Except EvalError Binary64 :=
  if x.lt (.zero false) then .error (.negativeSquareRoot x) else .ok x.sqrt

/-- The power, which always has a value: where there is no real one it is not a number, a zero
base with a negative exponent gives infinity, and a power that is too large is infinite, negative
for a negative base with an odd exponent. -/
def power (base exponent : Binary64) : Binary64 :=
  match base.pow? exponent with
  | .ok v => v
  | .error .domain =>
    if base.isZero && exponent.lt (.zero false) then .infinity false else .nan
  | .error .range => .infinity (base.lt (.zero false) && exponent.isOddInteger)

/-- A binary operator on its operands, in the order in which they are written. -/
def applyBinary : BinaryOp → Binary64 → Binary64 → Except EvalError Binary64
  | .add, x, y => .ok (x.add y)
  | .subtract, x, y => .ok (x.sub y)
  | .multiply, x, y => .ok (x.mul y)
  | .divide, x, y => divide x y
  | .power, x, y => .ok (power x y)

/-- A unary operator on its operand. -/
def applyUnary : UnaryOp → Binary64 → Except EvalError Binary64
  | .squareRoot, x => squareRoot x
  | .negate, x => .ok x.neg

end Reckoner.Operation
