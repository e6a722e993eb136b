import Reckoner.Proofs.Display.Text
import Reckoner.Proofs.Rounding.Closest
/-!
# `Reckoner/Proofs/Display/Closest.lean` — a shown number is the closest one

A value is an exact number, of hundreds of digits if need be, and so is what is shown of it. The two
layouts round to different counts of digits, drop zeros or fill up with them, and write the number
out or not. None of this matters to the number that the text denotes:

> **It is the number of so many digits that is closest to the value**, and of two that are equally
> close the larger one (`text_isClosest`).

A carry that makes nines into a power of ten is not a case of its own, and neither is an integer that
has more digits than are shown. Where the layouts change over plays no part either: the settings may
put the bounds anywhere, and a bound need not even be a number.
-/

set_option autoImplicit false

namespace Reckoner

namespace Display

variable {settings : Settings} {count : Nat} {v : Binary64}

/-! ## The number -/

theorem hasDigits_rounded (hcount : 0 < count) (v : Binary64) :
    HasDigits count (rounded count v).value :=
  ⟨_, _, coefficient_rounded_lt hcount v, Decimal.abs_value _⟩

theorem closer_magnitude_rounded (hcount : 0 < count) (v : Binary64) {y : Rat}
    (hy : HasDigits count y) : Closer v.magnitude (rounded count v).magnitude y := by
  obtain ⟨n, k, hfits, hvalue⟩ := hy
  obtain ⟨bound, hbound⟩ := exists_magnitude_rounded count v
  have hcloser := closer_roundDigits (b := 10) (p := count) (l := min bound k) (by simp) hcount
    v.magnitude_nonneg hfits (min_le_right _ _)
  rw [← hbound _ (min_le_left _ _), Nat.cast_ofNat, ← hvalue] at hcloser
  exact hcloser.of_abs v.magnitude_nonneg

/-- **A value rounded to be shown is rounded to the closest number.** -/
theorem isClosest_rounded (hcount : 0 < count) (v : Binary64) :
    IsClosest (HasDigits count) v.value (rounded count v).value := by
  refine ⟨hasDigits_rounded hcount v, fun y hy => ?_⟩
  rw [Decimal.value, negative_rounded, Binary64.value]
  split
  · -- The other sign, on both sides.
    have hcloser := (closer_magnitude_rounded hcount v hy.neg).neg
    rwa [neg_neg] at hcloser
  · exact closer_magnitude_rounded hcount v hy

/-! ## The text -/

/-- **What is shown is correctly rounded.** With any settings of up to a thousand digits, a finite
value has a text, and the text denotes the number of as many digits that is closest to the value, the
larger one of two. -/
theorem text_isClosest (hdigits : settings.DigitsWithin 1000) (hv : v.isFinite = true) :
    ∃ text d, Display.text settings v = .ok text ∧ Decimal.ofNumeral? text = some d ∧
      IsClosest (HasDigits (shownDigits settings v)) v.value d.value := by
  obtain ⟨text, htext⟩ := exists_text hdigits (by decide) hv
  obtain ⟨d, hread, hvalue⟩ := exists_ofNumeral?_of_text htext
  refine ⟨text, d, htext, hread, ?_⟩
  rw [hvalue]
  exact isClosest_rounded (shownDigits_pos hdigits v) v

/-- A tie is carried into a third digit, where the settings have no bounds between the layouts. -/
theorem text_isClosest_of_tie :
    (⟨2, 1, .nan, .nan⟩ : Settings).DigitsWithin 1000 ∧
      (Binary64.ofDecimal ⟨false, 995, -1⟩).isFinite = true ∧
      ∃ text d, Display.text ⟨2, 1, .nan, .nan⟩ (.ofDecimal ⟨false, 995, -1⟩) = .ok text ∧
        Decimal.ofNumeral? text = some d ∧
        IsClosest (HasDigits (shownDigits ⟨2, 1, .nan, .nan⟩ (.ofDecimal ⟨false, 995, -1⟩)))
          (Binary64.ofDecimal ⟨false, 995, -1⟩).value d.value ∧
        text = "100".toList := by
  have hdigits : (⟨2, 1, .nan, .nan⟩ : Settings).DigitsWithin 1000 := by
    constructor
    all_goals decide
  have hv : (Binary64.ofDecimal ⟨false, 995, -1⟩).isFinite = true := by decide +kernel
  obtain ⟨text, d, htext, hread, hclosest⟩ := text_isClosest hdigits hv
  have hshown : Display.text ⟨2, 1, .nan, .nan⟩ (.ofDecimal ⟨false, 995, -1⟩) =
      .ok "100".toList := by decide +kernel
  refine ⟨hdigits, hv, text, d, htext, hread, hclosest, ?_⟩
  rw [htext] at hshown
  exact Except.ok.inj hshown

end Display

end Reckoner
