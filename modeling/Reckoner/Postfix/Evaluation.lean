import Reckoner.Binary64.Decimal
import Reckoner.Decimal.Reader
import Reckoner.Operation
/-!
# `Reckoner/Postfix/Evaluation.lean` — the value of a postfix sequence

Values are kept on a stack, the latest on top. A number is put on it, and an operator takes its
operands from it and puts its result back. In the end one value has to be left, and it has to be
finite; everything on the way may be infinite or not a number.
-/

set_option autoImplicit false

namespace Reckoner.Postfix

/-- The value of a number token. -/
def numberValue (text : List Char) : Except EvalError Binary64 :=
  match Decimal.ofLiteral? text with
  | some d => .ok (.ofDecimal d)
  | none => .error (.malformedNumber text)

/-- An operator needs as many operands as it takes. -/
def requireOperands (available required : Nat) (symbol : List Char) : Except EvalError Unit :=
  if available < required then .error (.missingOperand symbol) else .ok ()

/-- The value of an expression has to be finite. -/
def requireFinite : Binary64 → Except EvalError Binary64
  | .nan => .error .notANumber
  | .infinity negative => .error (.infinite (.infinity negative))
  | v => .ok v

/-- What one token does to the stack. -/
def step (stack : List Binary64) : Token → Except EvalError (List Binary64)
  | .number text => (numberValue text).map (· :: stack)
  | .unary op =>
    match stack with
    | x :: rest => (Operation.applyUnary op x).map (· :: rest)
    | [] => .error (.missingOperand op.symbol)
  | .binary op =>
    match stack with
    | y :: x :: rest => (Operation.applyBinary op x y).map (· :: rest)
    | _ => .error (.missingOperand [op.symbol])
  | token => .error (.unexpectedToken token.name)

/-- A unary operator is refused where the count of its operands is. -/
theorem step_unary_of_requireOperands {stack : List Binary64} {op : UnaryOp} {e : EvalError}
    (h : requireOperands stack.length 1 op.symbol = .error e) :
    step stack (.unary op) = .error e := by
  cases stack with
  | nil => simpa [requireOperands, step] using h
  | cons x rest => simp [requireOperands] at h

/-- A binary operator is refused where the count of its operands is. -/
theorem step_binary_of_requireOperands {stack : List Binary64} {op : BinaryOp} {e : EvalError}
    (h : requireOperands stack.length 2 [op.symbol] = .error e) :
    step stack (.binary op) = .error e := by
  match stack with
  | [] | [_] => simpa [requireOperands, step] using h
  | _ :: _ :: _ =>
    rw [requireOperands, if_neg (by simp)] at h
    cases h

/-- The value that is left. -/
def result : List Binary64 → Except EvalError Binary64
  | [v] => requireFinite v
  | stack => .error (.leftover stack.length)

/-- The value of a postfix sequence. -/
def evaluate (tokens : List Token) : Except EvalError Binary64 :=
  (tokens.foldlM step []).bind result

end Reckoner.Postfix
