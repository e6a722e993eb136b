import Reckoner.Proofs.Binary64.Order
import Reckoner.Proofs.Display.Operand
import Reckoner.Proofs.Display.RoundTrip
/-!
# `Reckoner/Proofs/Display/Order.lean` — shown numbers in order

By default a value is rounded to seven digits or to fifteen, and its magnitude says to how many. Two
values that are close to each other, on the two sides of a bound between the layouts, are rounded on
different grids. Can the smaller one be shown as the larger number?

> **No: shown numbers are in the order of the values** (`text_default_monotone`). Values that differ
> may be shown as the same number, but never the other way round.

Within a layout this is the order of rounding. Across a bound, both sides are held apart by the bound
itself: `1e10` is a number of seven digits and of fifteen, and so is `1e-6`, to which the lower bound
is rounded, although it is a little less. So neither side is rounded beyond it.

The sign takes no part in rounding, and the text of the opposite value is the text behind a minus sign
(`text_neg`).
-/

set_option autoImplicit false

namespace Reckoner

namespace Display

variable {settings : Settings} {count : Nat} {v w : Binary64}

/-! ## Magnitudes -/

/-- Within a layout, shown numbers are in the order of the values. -/
theorem magnitude_rounded_mono (hcount : 0 < count) (h : v.magnitude ≤ w.magnitude) :
    (rounded count v).magnitude ≤ (rounded count w).magnitude := by
  obtain ⟨b, hb⟩ := exists_magnitude_rounded count v
  obtain ⟨c, hc⟩ := exists_magnitude_rounded count w
  rw [hb (min b c) (min_le_left _ _), hc (min b c) (min_le_right _ _)]
  exact roundDigits_mono .awayFromZero (by simp) hcount v.magnitude_nonneg h

theorem magnitude_rounded_of_zero (h : v.magnitude = 0) : (rounded count v).magnitude = 0 :=
  Decimal.magnitude_eq_zero (coefficient_rounded_eq_zero h)

/-- **Shown magnitudes are in the order of the magnitudes**, whichever layouts they have. -/
theorem magnitude_shown_mono (hv : v.isFinite = true) (hw : w.isFinite = true)
    (h : v.magnitude ≤ w.magnitude) :
    (rounded (shownDigits Settings.default v) v).magnitude ≤
      (rounded (shownDigits Settings.default w) w).magnitude := by
  cases hvuses : usesScientific Settings.default v with
  | false =>
    cases hwuses : usesScientific Settings.default w with
    | false =>
      rw [shownDigits, shownDigits, hvuses, hwuses]
      exact magnitude_rounded_mono (Nat.succ_pos 14) h
    | true =>
      rw [shownDigits, shownDigits, hvuses, hwuses]
      rcases (usesScientific_default_iff hw).mp hwuses with hlarge | ⟨-, hsmall⟩
      · exact (magnitude_rounded_le_of_plain hv hvuses).trans (le_magnitude_rounded_of_large hlarge)
      · -- Nothing but zero is written out below the lower bound.
        have hzero : v.magnitude = 0 := by
          by_contra hne
          have hpos := v.magnitude_nonneg.lt_of_ne' hne
          exact absurd (leastPlain_le_of_plain hv hpos hvuses) (not_le.mpr (h.trans_lt hsmall))
        rw [magnitude_rounded_of_zero hzero]
        exact Decimal.magnitude_nonneg _
  | true =>
    cases hwuses : usesScientific Settings.default w with
    | false =>
      rw [shownDigits, shownDigits, hvuses, hwuses]
      rcases (usesScientific_default_iff hv).mp hvuses with hlarge | ⟨hpos, hsmall⟩
      · exact absurd (magnitude_lt_of_plain hw hwuses) (not_lt.mpr (hlarge.trans h))
      · have hne := coefficient_rounded_ne_zero (Nat.succ_pos 14) (hpos.trans_le h)
        exact (magnitude_rounded_le_of_small hsmall).trans
          (magnitude_rounded_of_plain hw hwuses hne).1
    | true =>
      rw [shownDigits, shownDigits, hvuses, hwuses]
      exact magnitude_rounded_mono (Nat.succ_pos 6) h

/-! ## Signs -/

/-- **Shown numbers are in the order of the values.** -/
theorem value_shown_mono (hv : v.isFinite = true) (hw : w.isFinite = true)
    (h : v.value ≤ w.value) : (rounded (shownDigits Settings.default v) v).value ≤
      (rounded (shownDigits Settings.default w) w).value := by
  have hvnonneg := v.magnitude_nonneg
  have hwnonneg := w.magnitude_nonneg
  rw [Decimal.value, Decimal.value, negative_rounded, negative_rounded]
  rw [Binary64.value, Binary64.value] at h
  cases hvneg : v.isNegative with
  | false =>
    cases hwneg : w.isNegative with
    | false =>
      simp only [hvneg, hwneg, Bool.false_eq_true, ↓reduceIte] at h ⊢
      exact magnitude_shown_mono hv hw h
    | true =>
      -- Two zeros, the second one with a sign.
      simp only [hvneg, hwneg, Bool.false_eq_true, ↓reduceIte] at h ⊢
      rw [magnitude_rounded_of_zero (v := v) (by linarith),
        magnitude_rounded_of_zero (v := w) (by linarith), neg_zero]
  | true =>
    have hvshown := (rounded (shownDigits Settings.default v) v).magnitude_nonneg
    have hwshown := (rounded (shownDigits Settings.default w) w).magnitude_nonneg
    cases hwneg : w.isNegative with
    | false =>
      simp only [Bool.false_eq_true, ↓reduceIte]
      linarith
    | true =>
      simp only [hvneg, hwneg, ↓reduceIte] at h ⊢
      exact neg_le_neg (magnitude_shown_mono hw hv (neg_le_neg_iff.mp h))

/-- Rounding does not see the sign. -/
theorem rounded_neg (hv : v.isFinite = true) (count : Nat) :
    rounded count v.neg = { rounded count v with negative := !v.isNegative } := by
  obtain ⟨-, hneg, hmag, -⟩ := Binary64.parts_neg hv
  have hstripped : { rounded count v with negative := !v.isNegative }.IsStripped :=
    isStripped_rounded count v
  apply Decimal.eq_of_isStripped (isStripped_rounded count v.neg) hstripped
  · rw [negative_rounded, hneg]
  · show (rounded count v.neg).magnitude = (rounded count v).magnitude
    obtain ⟨b, hb⟩ := exists_magnitude_rounded count v.neg
    obtain ⟨c, hc⟩ := exists_magnitude_rounded count v
    rw [hb (min b c) (min_le_left _ _), hc (min b c) (min_le_right _ _), hmag]

theorem usesScientific_neg (hv : v.isFinite = true) :
    usesScientific settings v.neg = usesScientific settings v := by
  obtain ⟨-, -, -, habs⟩ := Binary64.parts_neg hv
  rw [usesScientific, usesScientific, habs]

theorem scientificText_neg (hv : v.isFinite = true) (hplus : v.isNegative = false) (places : Nat) :
    scientificText places v.neg = '-' :: scientificText places v := by
  have hsign : (rounded (places + 1) v).negative = false := (negative_rounded _ v).trans hplus
  rw [scientificText, scientificText, rounded_neg hv, hplus]
  simp [Decimal.scientific, Decimal.signText, Decimal.digits, Decimal.leadingExponent, hsign]

theorem plainText_neg (hv : v.isFinite = true) (hplus : v.isNegative = false)
    (hpos : 0 < v.magnitude) (hcount : 0 < count) :
    plainText count v.neg = '-' :: plainText count v := by
  have hsign : (rounded count v).negative = false := (negative_rounded _ v).trans hplus
  have hne := coefficient_rounded_ne_zero hcount hpos
  have hpositional := Decimal.positional_eq_append _ hsign true
  rw [plainText, plainText, rounded_neg hv, hplus]
  simp only [hne, ↓reduceIte, Bool.not_false]
  exact hpositional

/-- **The text of the opposite of a value above zero is its text behind a minus sign**, with any
settings. -/
theorem text_neg (hdigits : settings.DigitsWithin 1000) (hv : v.isFinite = true)
    (hpos : 0 < v.value) : ∃ text, Display.text settings v = .ok text ∧
      Display.text settings v.neg = .ok ('-' :: text) := by
  obtain ⟨hplus, hmag⟩ := Binary64.isNegative_of_value_pos hpos
  obtain ⟨hfinite, -, -, -⟩ := Binary64.parts_neg hv
  obtain ⟨text, htext⟩ := exists_text hdigits (by decide) hv
  obtain ⟨opposite, hopposite⟩ := exists_text hdigits (by decide) hfinite
  refine ⟨text, htext, hopposite.trans (congrArg Except.ok ?_)⟩
  obtain ⟨-, ⟨huses, rfl⟩ | ⟨hplain, rfl⟩⟩ := text_cases htext
  · obtain ⟨-, ⟨-, rfl⟩ | ⟨hplain', -⟩⟩ := text_cases hopposite
    · exact scientificText_neg hv hplus _
    · rw [usesScientific_neg hv, huses] at hplain'
      cases hplain'
  · obtain ⟨-, ⟨huses', -⟩ | ⟨-, rfl⟩⟩ := text_cases hopposite
    · rw [usesScientific_neg hv, hplain] at huses'
      cases huses'
    · exact plainText_neg hv hplus hmag hdigits.significantDigits_pos

/-! ## Texts -/

/-- **Shown numbers are in the order of the values.** By default, of two finite values the lesser one
is not shown as the larger number, whichever layouts they have; and the opposite of a value above zero
is shown by the same text behind a minus sign. -/
theorem text_default_monotone :
    (∀ v w : Binary64, v.isFinite = true → w.isFinite = true → v.le w = true →
      ∃ lower upper d e, Display.text Settings.default v = .ok lower ∧
        Display.text Settings.default w = .ok upper ∧ Decimal.ofNumeral? lower = some d ∧
        Decimal.ofNumeral? upper = some e ∧ d.value ≤ e.value) ∧
      ∀ v : Binary64, v.isFinite = true → (Binary64.zero false).lt v = true →
        ∃ text, Display.text Settings.default v = .ok text ∧
          Display.text Settings.default v.neg = .ok ('-' :: text) := by
  constructor
  · intro v w hv hw hle
    obtain ⟨lower, hlower⟩ := exists_text Settings.digitsWithin_default (by decide) hv
    obtain ⟨upper, hupper⟩ := exists_text Settings.digitsWithin_default (by decide) hw
    obtain ⟨d, hd, hdvalue⟩ := exists_ofNumeral?_of_text hlower
    obtain ⟨e, he, hevalue⟩ := exists_ofNumeral?_of_text hupper
    refine ⟨lower, upper, d, e, hlower, hupper, hd, he, ?_⟩
    rw [hdvalue, hevalue]
    exact value_shown_mono hv hw ((Binary64.le_iff_value_le hv hw).mp hle)
  · intro v hv hpos
    rw [Binary64.lt_iff_value_lt rfl hv, Binary64.value_zero] at hpos
    exact text_neg Settings.digitsWithin_default hv hpos

/-- The two values beside the lower bound are shown in the two layouts, as the same number. -/
theorem text_default_monotone_at_bound :
    ∃ v w, v = Binary64.finite false 4722366482869644 (-72) (by decide) ∧
      w = Binary64.finite false 4722366482869645 (-72) (by decide) ∧
      v.isFinite = true ∧ w.isFinite = true ∧ v.le w = true ∧ (Binary64.zero false).lt v = true ∧
      Display.text Settings.default v = .ok "1.000000E-06".toList ∧
      Display.text Settings.default w = .ok "0.000001".toList ∧
      (∃ lower upper d e, Display.text Settings.default v = .ok lower ∧
        Display.text Settings.default w = .ok upper ∧ Decimal.ofNumeral? lower = some d ∧
        Decimal.ofNumeral? upper = some e ∧ d.value ≤ e.value) ∧
      ∃ text, Display.text Settings.default v = .ok text ∧
        Display.text Settings.default v.neg = .ok ('-' :: text) :=
  ⟨_, _, rfl, rfl, rfl, rfl, by decide +kernel, by decide +kernel, by decide +kernel,
    by decide +kernel, text_default_monotone.1 _ _ rfl rfl (by decide +kernel),
    text_default_monotone.2 _ rfl (by decide +kernel)⟩

end Display

end Reckoner
