import Reckoner.Proofs.Keypad.Faults
import Reckoner.Proofs.Keypad.Results
/-!
# `Reckoner/Proofs/Keypad/Percent.lean` — what percent divides

A result is known by its text, and so is a result that is divided by a hundred: percent takes the
text of the expression's value, reads it, and shows the quotient.

> **Percent divides the number that is shown of the value** (`press_percent`), rounded to the digits
> that are shown, and not the value itself. It makes no difference if the value has no more digits
> than are shown of it.

It can make one if it has more: `10000000001` is shown as `1.000000E+10`, and one percent of it as
`100000000` (`press_percent_of_eleven_digits`).
-/

set_option autoImplicit false

namespace Reckoner

namespace Display

/-- **The value has no more digits than are shown of it.** It is the one nearest to a decimal of so
many digits, which is zero or not too small for as many. -/
def ShownInFull (settings : Settings) (v : Binary64) : Prop :=
  ∃ d : Decimal, d.coefficient < 10 ^ shownDigits settings v ∧
    (d.coefficient = 0 ∨ (2 : Rat) ^ (-1022 : Int) ≤ d.magnitude) ∧
    v.magnitude = Binary64.nearest d.magnitude

theorem shownDigits_default_le (v : Binary64) : shownDigits Settings.default v ≤ 15 := by
  unfold shownDigits
  split
  · decide
  · decide

/-- A value that is shown in full is the one nearest to what is shown. -/
theorem nearest_rounded_of_shownInFull {v : Binary64} (h : ShownInFull Settings.default v) :
    Binary64.nearest (rounded (shownDigits Settings.default v) v).magnitude = v.magnitude := by
  obtain ⟨d, hfits, hnormal, hmag⟩ := h
  rcases hnormal with hzero | hnormal
  · have hvzero : v.magnitude = 0 := by
      rw [hmag, Decimal.magnitude_eq_zero hzero, Binary64.nearest_zero]
    rw [Decimal.magnitude_eq_zero (coefficient_rounded_eq_zero hvzero), Binary64.nearest_zero,
      hvzero]
  · obtain ⟨b, hb⟩ := exists_magnitude_rounded (shownDigits Settings.default v) v
    have hround := Binary64.roundDigits_nearest .awayFromZero (shownDigits_default_le v) hfits
      (min_le_right b d.exponent) hnormal
    rw [hb (min b d.exponent) (min_le_left _ _), hmag]
    exact congrArg Binary64.nearest hround

/-- **A hundredth of what is shown is a hundredth of the value**, if that is shown in full; of the
two zeros, either may be the one. -/
theorem text_hundredth_of_shownInFull {v : Binary64} {d : Decimal} (hv : v.isFinite = true)
    (hd : (Binary64.ofDecimal d).isFinite = true)
    (hvalue : d.value = (rounded (shownDigits Settings.default v) v).value)
    (h : ShownInFull Settings.default v) :
    Display.text Settings.default (v.div (.ofDecimal ⟨false, 100, 0⟩)) =
      Display.text Settings.default ((Binary64.ofDecimal d).div (.ofDecimal ⟨false, 100, 0⟩)) := by
  obtain ⟨hmag, hneg⟩ := Decimal.magnitude_eq_of_value_eq hvalue
  have hsame : (Binary64.ofDecimal d).magnitude = v.magnitude := by
    rw [Binary64.ofDecimal_eq_ofRat] at hd ⊢
    rw [Binary64.magnitude_ofRat d.magnitude_nonneg hd, hmag, nearest_rounded_of_shownInFull h]
  rw [Binary64.hundredth_eq_ofRat hv, Binary64.hundredth_eq_ofRat hd, hsame]
  rcases v.magnitude_nonneg.eq_or_lt with hzero | hpos
  · have hshown : ∀ negative, Display.text Settings.default
        (Binary64.ofRat negative (v.magnitude / 100)) = .ok ['0'] := by
      intro negative
      rw [← hzero, zero_div]
      exact text_default_of_zero rfl (Binary64.magnitude_zero negative)
    rw [hshown, hshown]
  · have hdpos : 0 < d.magnitude := by
      rw [hmag]
      exact Decimal.magnitude_pos
        (coefficient_rounded_ne_zero (shownDigits_pos Settings.digitsWithin_default v) hpos)
    rw [Binary64.ofDecimal_eq_ofRat, Binary64.isNegative_ofRat _ d.magnitude_nonneg, hneg hdpos,
      negative_rounded]

end Display

namespace Keypad.State

variable {s : State} {v : Binary64}

/-- **Percent divides what is shown of the value by a hundred.** With the default settings, in a
state without an error whose expression has a value: the text of the value is read as the value
nearest to the number that it says, and the text of a hundredth of that is shown, and put in the
expression's place. If the value has no more digits than are shown of it, that is the text of a
hundredth of the value. -/
theorem press_percent (hflag : s.hasError = false) (hne : s.expression ≠ [])
    (hvalue : Evaluation.value s.expression = .ok v) :
    ∃ shown d text, Display.text Settings.default v = .ok shown ∧
      Decimal.ofNumeral? shown = some d ∧ Binary64.ofText? shown = some (.ofDecimal d) ∧
      Display.text Settings.default
        ((Binary64.ofDecimal d).div (.ofDecimal ⟨false, 100, 0⟩)) = .ok text ∧
      s.press Settings.default .percent =
        ({ s with expression := text, display := text, showsResult := true }, none) ∧
      (Display.ShownInFull Settings.default v →
        Display.text Settings.default (v.div (.ofDecimal ⟨false, 100, 0⟩)) = .ok text) := by
  have hv := Evaluation.isFinite_of_value hvalue
  obtain ⟨shown, hshown⟩ := Display.exists_text Settings.digitsWithin_default (by decide) hv
  obtain ⟨d, hread, hdvalue, hnumber⟩ := Display.exists_ofText?_of_text hshown
  have hd : (Binary64.ofDecimal d).isFinite = true := by
    obtain ⟨w, hw, hfinite⟩ := Display.exists_isFinite_ofText? hshown
    rw [hnumber] at hw
    exact Option.some.inj hw ▸ hfinite
  have hhundredth : hundredth shown = (Binary64.ofDecimal d).div (.ofDecimal ⟨false, 100, 0⟩) := by
    rw [hundredth, hnumber]
    rfl
  obtain ⟨text, htext⟩ := Display.exists_text Settings.digitsWithin_default (by decide)
    (isFinite_hundredth hshown)
  refine ⟨shown, d, text, hshown, hread, hnumber, hhundredth ▸ htext, ?_, ?_⟩
  · have hevaluate := (Evaluation.evaluate_eq_ok_iff hne).mpr ⟨v, hvalue, hshown⟩
    rw [press_percent_of_result hflag hne hevaluate, showNumber, htext]
    rfl
  · intro hfull
    rw [Display.text_hundredth_of_shownInFull hv hd hdvalue hfull, ← hhundredth]
    exact htext

/-- Two thirds have more digits than are shown of them, and the last one is rounded up. A tenth is no
value, but the one nearest to it is shown in full, and percent shows a hundredth of that. -/
theorem press_percent_of_two_thirds_and_a_tenth :
    (∃ s v, s = initial.pressAll Settings.default
        [.digit ['2'], .operator ['/'], .digit ['3']] ∧
      s.hasError = false ∧ s.expression ≠ [] ∧ Evaluation.value s.expression = .ok v ∧
      ∃ shown d text, Display.text Settings.default v = .ok shown ∧
        Decimal.ofNumeral? shown = some d ∧ Binary64.ofText? shown = some (.ofDecimal d) ∧
        Display.text Settings.default
          ((Binary64.ofDecimal d).div (.ofDecimal ⟨false, 100, 0⟩)) = .ok text ∧
        s.press Settings.default .percent =
          ({ s with expression := text, display := text, showsResult := true }, none) ∧
        (Display.ShownInFull Settings.default v →
          Display.text Settings.default (v.div (.ofDecimal ⟨false, 100, 0⟩)) = .ok text) ∧
        text = "0.00666666666666667".toList) ∧
    ∃ s v text, s = initial.pressAll Settings.default [.digit ['0'], .point, .digit ['1']] ∧
      s.hasError = false ∧ s.expression ≠ [] ∧ Evaluation.value s.expression = .ok v ∧
      Display.ShownInFull Settings.default v ∧
      s.press Settings.default .percent =
        ({ s with expression := text, display := text, showsResult := true }, none) ∧
      Display.text Settings.default (v.div (.ofDecimal ⟨false, 100, 0⟩)) = .ok text ∧
      text = "0.001".toList := by
  constructor
  · obtain ⟨shown, d, text, hshown, hread, hnumber, htext, hpress, hfull⟩ :=
      press_percent (s := initial.pressAll Settings.default
          [.digit ['2'], .operator ['/'], .digit ['3']])
        (v := .finite false 6004799503160661 (-53) (by decide))
        (by decide +kernel) (by decide +kernel) (by decide +kernel)
    refine ⟨_, _, rfl, by decide +kernel, by decide +kernel, by decide +kernel, shown, d, text,
      hshown, hread, hnumber, htext, hpress, hfull, ?_⟩
    have hdisplay := congrArg (fun pressed : Pressed => pressed.1.display) hpress
    exact hdisplay.symm.trans (by decide +kernel)
  · have hvalue : Evaluation.value (initial.pressAll Settings.default
        [.digit ['0'], .point, .digit ['1']]).expression =
          .ok (.ofRat false (1 / 10)) := by decide +kernel
    have hinFull : Display.ShownInFull Settings.default (.ofRat false (1 / 10)) :=
      ⟨⟨false, 1, -1⟩, by decide +kernel, .inr (by decide +kernel), by decide +kernel⟩
    obtain ⟨-, -, text, -, -, -, -, hpress, hfull⟩ :=
      press_percent (by decide +kernel) (by decide +kernel) hvalue
    have hdisplay := congrArg (fun pressed : Pressed => pressed.1.display) hpress
    exact ⟨_, _, text, rfl, by decide +kernel, by decide +kernel, hvalue, hinFull, hpress,
      hfull hinFull, hdisplay.symm.trans (by decide +kernel)⟩

/-- Of eleven digits seven are shown, and the last one is lost. -/
theorem press_percent_of_eleven_digits :
    ∃ s v, s = initial.pressAll Settings.default
        ("10000000001".toList.map fun c => .digit [c]) ∧
      s.hasError = false ∧ s.expression ≠ [] ∧ Evaluation.value s.expression = .ok v ∧
      (s.press Settings.default .percent).1.display = "100000000".toList ∧
      Display.text Settings.default (v.div (.ofDecimal ⟨false, 100, 0⟩)) =
        .ok "100000000.01".toList ∧
      Display.text Settings.default (v.div (.ofDecimal ⟨false, 100, 0⟩)) ≠
        .ok (s.press Settings.default .percent).1.display :=
  ⟨_, .ofDecimal ⟨false, 10000000001, 0⟩, rfl, by decide +kernel, by decide +kernel,
    by decide +kernel, by decide +kernel, by decide +kernel, by decide +kernel⟩

end Keypad.State

end Reckoner
