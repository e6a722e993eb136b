import Reckoner.Proofs.Decimal.Tidy
import Reckoner.Proofs.Display.RoundTrip
/-!
# `Reckoner/Proofs/Display/Typed.lean` — a typed number is shown as it is

A number can be typed with zeros that say nothing, and it is shown without them.

> **A literal of at most fifteen significant digits is shown tidy** (`evaluate_literal`), if its
> number is zero or lies between the bounds of the layout, and so is one behind a minus sign that is
> not zero. No digit is lost, and none is made up.

A shown text typed in again is the case in which there is nothing to tidy up. Only the digits that
are significant count, however many zeros stand on either side: the value is the one nearest to the
number of the literal, whatever its digits.
-/

set_option autoImplicit false

namespace Reckoner.Evaluation

variable {text : List Char} {d : Decimal}

/-- A literal without a digit but zeros is shown as a single zero. -/
theorem evaluate_literal_of_zero (hliteral : Decimal.ofLiteral? text = some d)
    (hzero : d.coefficient = 0) : evaluate Settings.default text = .ok (.ok ['0']) := by
  have hnearest : Binary64.nearest d.magnitude = 0 := by
    rw [Decimal.magnitude_eq_zero hzero, Binary64.nearest_zero]
  have hfinite : Binary64.nearest d.magnitude < (2 : Rat) ^ (1024 : Int) := by
    rw [hnearest]
    exact zpow_pos two_pos _
  obtain ⟨v, hvalue, hv, -, hmag⟩ := value_signed hliteral false hfinite
  have hne := Decimal.ne_nil_of_isLiteral (Decimal.ofLiteral?_eq_some_iff.mp hliteral).1
  exact (evaluate_eq_ok_iff hne).mpr
    ⟨v, hvalue, Display.text_default_of_zero hv (hmag.trans hnearest)⟩

/-- Behind a sign as without one, a literal is shown tidy. -/
theorem evaluate_signed_literal (hliteral : Decimal.ofLiteral? text = some d) (negative : Bool)
    (hlower : (10 : Rat) ^ (-6 : Int) ≤ d.magnitude) (hupper : d.magnitude < 10 ^ 10)
    (hdigits : (Decimal.significantDigits text).length ≤ 15) :
    evaluate Settings.default (Decimal.signText negative ++ text) =
      .ok (.ok (Decimal.signText negative ++ Decimal.tidy text)) := by
  have hplus : d.strip.negative = false := by
    rw [Decimal.negative_strip, Decimal.negative_of_ofLiteral? hliteral]
  have hfits := Decimal.coefficient_strip_lt hliteral hdigits
  -- What is shown is the stripped number, with the sign that was typed.
  obtain ⟨shown, hshown⟩ : ∃ shown : Decimal, { d.strip with negative := negative } = shown :=
    ⟨_, rfl⟩
  have hstripped : shown.IsStripped := hshown ▸ d.isStripped_strip
  have hmagnitude : shown.magnitude = d.magnitude := hshown ▸ d.magnitude_strip
  have htext : shown.positional = Decimal.signText negative ++ Decimal.tidy text := by
    rw [← hshown, Decimal.positional_eq_append _ hplus, Decimal.tidy_eq_positional hliteral]
  have hcoefficient : shown.coefficient < 10 ^ 15 := hshown ▸ hfits
  rw [← hmagnitude] at hlower hupper
  have hfinite := Display.nearest_lt_of_plain hcoefficient hlower hupper
  rw [hmagnitude] at hfinite
  obtain ⟨v, hvalue, hv, hneg, hmag⟩ := value_signed hliteral negative hfinite
  have hne := Decimal.ne_nil_of_isLiteral (Decimal.ofLiteral?_eq_some_iff.mp hliteral).1
  rw [← htext]
  refine (evaluate_eq_ok_iff (List.append_ne_nil_of_right_ne_nil _ hne)).mpr ⟨v, hvalue, ?_⟩
  refine Display.text_of_nearest hstripped hcoefficient hlower hupper hv ?_ ?_
  · rw [hneg, ← hshown]
  · rw [hmag, hmagnitude]

/-- **A literal of at most fifteen significant digits is shown tidy**, if its number is zero or lies
between the bounds of the layout. So is one behind a minus sign, if it is not zero. -/
theorem evaluate_literal (hliteral : Decimal.ofLiteral? text = some d)
    (hrange : d.magnitude = 0 ∨ (10 : Rat) ^ (-6 : Int) ≤ d.magnitude ∧ d.magnitude < 10 ^ 10)
    (hdigits : (Decimal.significantDigits text).length ≤ 15) :
    evaluate Settings.default text = .ok (.ok (Decimal.tidy text)) ∧
      (d.magnitude ≠ 0 →
        evaluate Settings.default ('-' :: text) = .ok (.ok ('-' :: Decimal.tidy text))) := by
  rcases hrange with hzero | ⟨hlower, hupper⟩
  · have hcoefficient : d.coefficient = 0 := by
      by_contra hne
      exact (Decimal.magnitude_pos hne).ne' hzero
    rw [Decimal.tidy_of_zero hliteral hcoefficient]
    exact ⟨evaluate_literal_of_zero hliteral hcoefficient, fun hne => absurd hzero hne⟩
  · exact ⟨evaluate_signed_literal hliteral false hlower hupper hdigits,
      fun _ => evaluate_signed_literal hliteral true hlower hupper hdigits⟩

/-- Fifteen significant digits between zeros are shown, and the zeros are not. -/
theorem evaluate_fifteen_digits :
    evaluate Settings.default "007.123456789012340".toList =
        .ok (.ok "7.12345678901234".toList) ∧
      evaluate Settings.default "-007.123456789012340".toList =
        .ok (.ok "-7.12345678901234".toList) :=
  have hliteral : Decimal.ofLiteral? "007.123456789012340".toList =
      some ⟨false, 7123456789012340, -15⟩ := by decide +kernel
  have hrange : (10 : Rat) ^ (-6 : Int) ≤ (⟨false, 7123456789012340, -15⟩ : Decimal).magnitude ∧
      (⟨false, 7123456789012340, -15⟩ : Decimal).magnitude < 10 ^ 10 := by
    norm_num [Decimal.magnitude]
  have htidy : Decimal.tidy "007.123456789012340".toList = "7.12345678901234".toList := by
    decide +kernel
  have hshown := evaluate_literal hliteral (.inr hrange) (by decide +kernel)
  htidy ▸ ⟨hshown.1, hshown.2 (by norm_num [Decimal.magnitude])⟩

end Reckoner.Evaluation
