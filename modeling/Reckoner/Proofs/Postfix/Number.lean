import Reckoner.Proofs.Binary64.Closest
import Reckoner.Proofs.Guards
/-!
# `Reckoner/Proofs/Postfix/Number.lean` — the value of a number token

A token of digits and points need not be a number, and whether it is one is found out when its value
is needed. The free form of numbers is too wide for that: it has signs, exponents, underscores, blanks
and names. So the text is checked first, and only then read in free form.

> **Exactly the literals are numbers** (`numberValue_exactly_literals`). A literal has the value that
> its number is rounded to; every other text is an error, which carries it. No text gets through the
> check that could not be read.
-/

set_option autoImplicit false

namespace Reckoner.Postfix

theorem numberValue_eq_ok_iff {text : List Char} {v : Binary64} :
    numberValue text = .ok v ↔ Decimal.HasLiteralChars text ∧ v.isNegative = false ∧
      Binary64.RoundsTo (Decimal.literalNumber text) v := by
  rw [← Decimal.isLiteral_iff_hasLiteralChars, numberValue]
  cases hread : Decimal.ofLiteral? text with
  | none =>
    have hrefused := Decimal.ofLiteral?_eq_none_iff.mp hread
    simp [hrefused]
  | some d =>
    have hliteral := (Decimal.ofLiteral?_eq_some_iff.mp hread).1
    rw [Except.ok.injEq, Binary64.eq_ofDecimal_iff, Decimal.negative_of_ofLiteral? hread,
      Decimal.literalNumber_eq_value hread]
    exact (and_iff_right hliteral).symm

theorem numberValue_eq_error_iff {text : List Char} {e : EvalError} :
    numberValue text = .error e ↔ ¬ Decimal.HasLiteralChars text ∧ e = .malformedNumber text := by
  rw [← Decimal.isLiteral_iff_hasLiteralChars, numberValue]
  cases hread : Decimal.ofLiteral? text with
  | none =>
    have hrefused := Decimal.ofLiteral?_eq_none_iff.mp hread
    simp [hrefused, eq_comm]
  | some d =>
    have hliteral := (Decimal.ofLiteral?_eq_some_iff.mp hread).1
    simp [hliteral]

/-- **A number token is a number if and only if it is a literal**: digits and at most one point, and
at least one digit. Its value is the one closest to the number that the digits say, with ties to even,
or an infinity if that is out of range. Every other text is an error, which carries it.

The last part is about the two steps. A text is checked, and then read in free form; the second step
is not asked for a text that it cannot read. -/
theorem numberValue_exactly_literals (text : List Char) :
    ((numberValue text).isOk = true ↔ Decimal.HasLiteralChars text) ∧
      (∀ v, numberValue text = .ok v ↔ Decimal.HasLiteralChars text ∧ v.isNegative = false ∧
        Binary64.RoundsTo (Decimal.literalNumber text) v) ∧
      (∀ e, numberValue text = .error e ↔
        ¬ Decimal.HasLiteralChars text ∧ e = .malformedNumber text) ∧
      (EvalError.malformedNumber text).kind = .invalidExpression ∧
      Guarded.numberValue text = .ok (numberValue text) := by
  refine ⟨?_, fun v => numberValue_eq_ok_iff, fun e => numberValue_eq_error_iff, rfl,
    Guarded.numberValue_eq text⟩
  cases hvalue : numberValue text with
  | ok v => exact iff_of_true rfl (numberValue_eq_ok_iff.mp hvalue).1
  | error e => exact iff_of_false Bool.false_ne_true (numberValue_eq_error_iff.mp hvalue).1

/-- In free form it would be ten. -/
example : numberValue "1_0".toList = .error (.malformedNumber "1_0".toList) ∧
    (Binary64.ofText? "1_0".toList).isSome = true := by decide

end Reckoner.Postfix
