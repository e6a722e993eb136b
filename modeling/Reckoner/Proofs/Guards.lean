import Reckoner.Evaluation
import Reckoner.Proofs.Decimal.Literal
/-!
# `Reckoner/Proofs/Guards.lean` — operations that would fail are not reached

The operations below the calculator are not total. No value can be taken from an empty stack, not
every text can be read as a number, nothing can be divided by zero, and no root can be taken of a
negative number. To be asked for one of these is a trap, which is neither a value nor an error.

So each operation has a guard in front of it, and the guard looks at something else than the
operation does: at the length of a stack, or at a text without its point. Here the calculator is put
together from guards and operations, trap by trap.

> **The guards are enough** (`Guarded.evaluate_eq`). The calculator with its traps is the calculator
> without them, for all expressions and settings. What is left is that a value may have no text.

A power is not guarded. The power operation is asked, and what it refuses is turned into a value
(`Operation.power`).
-/

set_option autoImplicit false

namespace Reckoner

/-- What cannot be asked of an operation. -/
inductive Trap where
  | emptyStack
  | notNumeral (text : List Char)
  | zeroDivisor (dividend : Binary64)
  | negativeRadicand (operand : Binary64)
  /-- The value has no text. -/
  | noText (fault : Fault)

namespace Guarded

open Postfix (requireOperands requireFinite)

/-! ## The operations -/

/-- The value on top of the stack, and the stack below it. -/
def pop : List Binary64 → Except Trap (Binary64 × List Binary64)
  | [] => .error .emptyStack
  | v :: rest => .ok (v, rest)

/-- The value that a text denotes in free form. -/
def readText (text : List Char) : Except Trap Binary64 :=
  match Binary64.ofText? text with
  | some v => .ok v
  | none => .error (.notNumeral text)

def quotient (x y : Binary64) : Except Trap Binary64 :=
  if y.isZero then .error (.zeroDivisor x) else .ok (x.div y)

def root (x : Binary64) : Except Trap Binary64 :=
  if x.lt (.zero false) then .error (.negativeRadicand x) else .ok x.sqrt

/-! ## Guards in front of them -/

def numberValue (text : List Char) : Except Trap (Except EvalError Binary64) :=
  if Decimal.isLiteral text then (readText text).map .ok
  else .ok (.error (.malformedNumber text))

def applyBinary : BinaryOp → Binary64 → Binary64 → Except Trap (Except EvalError Binary64)
  | .divide, x, y =>
    if y.isZero then .ok (.error (.divisionByZero x)) else (quotient x y).map .ok
  | op, x, y => .ok (Operation.applyBinary op x y)

def applyUnary : UnaryOp → Binary64 → Except Trap (Except EvalError Binary64)
  | .squareRoot, x =>
    if x.lt (.zero false) then .ok (.error (.negativeSquareRoot x)) else (root x).map .ok
  | .negate, x => .ok (.ok x.neg)

/-- What one token does to the stack. The operands are counted before they are taken. -/
def step (stack : List Binary64) : Token → Except Trap (Except EvalError (List Binary64))
  | .number text => (numberValue text).map fun value => value.map (· :: stack)
  | .unary op =>
    match requireOperands stack.length 1 op.symbol with
    | .error e => .ok (.error e)
    | .ok () =>
      (pop stack).bind fun (x, rest) =>
        (applyUnary op x).map fun value => value.map (· :: rest)
  | .binary op =>
    match requireOperands stack.length 2 [op.symbol] with
    | .error e => .ok (.error e)
    | .ok () =>
      (pop stack).bind fun (y, below) =>
        (pop below).bind fun (x, rest) =>
          (applyBinary op x y).map fun value => value.map (· :: rest)
  | token => .ok (.error (.unexpectedToken token.name))

/-- The one value that is left. -/
def result (stack : List Binary64) : Except Trap (Except EvalError Binary64) :=
  if stack.length ≠ 1 then .ok (.error (.leftover stack.length))
  else (pop stack).map fun (v, _) => requireFinite v

/-- What a sequence of tokens does, from the given stack on. -/
def run (stack : List Binary64) : List Token → Except Trap (Except EvalError Binary64)
  | [] => result stack
  | token :: rest =>
    (step stack token).bind fun next =>
      match next with
      | .ok stack => run stack rest
      | .error e => .ok (.error e)

/-- The outcome of an expression. -/
def evaluate (settings : Settings) (expression : List Char) : Except Trap Outcome :=
  if expression.isEmpty then .ok (.ok ['0'])
  else
    match Evaluation.orderedTokens expression with
    | .error e => .ok (.error e)
    | .ok tokens =>
      (run [] tokens).bind fun value =>
        match value with
        | .ok v => ((Display.text settings v).map .ok).mapError .noText
        | .error e => .ok (.error e)

/-! ## No guard lets a trap through -/

theorem numberValue_eq (text : List Char) : numberValue text = .ok (Postfix.numberValue text) := by
  unfold numberValue Postfix.numberValue
  split
  · next h =>
    obtain ⟨d, hliteral, htext⟩ := Binary64.exists_ofText?_of_isLiteral h
    rw [readText, htext, hliteral]
    rfl
  · next h => rw [Decimal.ofLiteral?_eq_none_iff.mpr h]

theorem applyBinary_eq (op : BinaryOp) (x y : Binary64) :
    applyBinary op x y = .ok (Operation.applyBinary op x y) := by
  cases op with
  | divide =>
    rw [applyBinary, Operation.applyBinary, Operation.divide]
    split
    · rfl
    · next h =>
      rw [quotient, if_neg h]
      rfl
  | add => rfl
  | subtract => rfl
  | multiply => rfl
  | power => rfl

theorem applyUnary_eq (op : UnaryOp) (x : Binary64) :
    applyUnary op x = .ok (Operation.applyUnary op x) := by
  cases op with
  | squareRoot =>
    rw [applyUnary, Operation.applyUnary, Operation.squareRoot]
    split
    · rfl
    · next h =>
      rw [root, if_neg h]
      rfl
  | negate => rfl

/-- **A step never gets to a trap**: the values that it takes have been counted. -/
theorem step_eq (stack : List Binary64) (token : Token) :
    step stack token = .ok (Postfix.step stack token) := by
  cases token with
  | number text =>
    rw [step, numberValue_eq]
    rfl
  | unary op =>
    cases stack with
    | nil => rfl
    | cons x rest =>
      have hcount : requireOperands (x :: rest).length 1 op.symbol = .ok () := by
        simp [requireOperands]
      rw [step, hcount]
      simp only [pop, Except.bind, applyUnary_eq]
      rfl
  | binary op =>
    rcases stack with _ | ⟨y, _ | ⟨x, rest⟩⟩
    · rfl
    · rfl
    · have hcount : requireOperands (y :: x :: rest).length 2 [op.symbol] = .ok () := by
        simp [requireOperands]
      rw [step, hcount]
      simp only [pop, Except.bind, applyBinary_eq]
      rfl
  | openParen => rfl
  | closeParen => rfl

theorem result_eq (stack : List Binary64) : result stack = .ok (Postfix.result stack) := by
  rcases stack with _ | ⟨v, _ | ⟨w, rest⟩⟩
  · rfl
  · rfl
  · rw [result, if_pos (by simp)]
    rfl

/-- **So neither does a run.** -/
theorem run_eq (stack : List Binary64) (tokens : List Token) :
    run stack tokens = .ok ((tokens.foldlM Postfix.step stack).bind Postfix.result) := by
  induction tokens generalizing stack with
  | nil => exact result_eq stack
  | cons token rest ih =>
    rw [run, step_eq, List.foldlM_cons]
    cases Postfix.step stack token with
    | error e => rfl
    | ok next => exact ih next

/-- **The only trap on the way from an expression to its outcome is a value without a text.** -/
theorem evaluate_eq (settings : Settings) (expression : List Char) :
    evaluate settings expression =
      (Evaluation.evaluate settings expression).mapError .noText := by
  unfold evaluate Evaluation.evaluate
  split
  · rfl
  · rw [Evaluation.value]
    cases Evaluation.orderedTokens expression with
    | error e => rfl
    | ok tokens =>
      have hrun : run [] tokens = .ok (Postfix.evaluate tokens) := run_eq [] tokens
      simp only [hrun, Except.bind]
      cases Postfix.evaluate tokens with
      | error e => rfl
      | ok v => rfl

end Guarded

end Reckoner
