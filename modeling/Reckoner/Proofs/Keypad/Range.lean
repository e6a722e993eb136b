import Reckoner.Proofs.Display.Denotation
import Reckoner.Proofs.Display.Range
import Reckoner.Proofs.Expression.Parentheses
import Reckoner.Proofs.Keypad.Faults
/-!
# `Reckoner/Proofs/Keypad/Range.lean` — going on from the end of the range

A result is finite, and so is the number that is shown of it. But who goes on from the result goes on
from the shown number, be it as an operand or by the keys that read the display, and that number may
be nearest to no value.

> **A result can be gone on from if and only if it is below the border** of what is shown in range
> (`continuable_iff`). With the default bounds between the layouts, all results can be gone on from
> unless one, two, three, four, nine, ten, fourteen or fifteen places are asked for.

Six places, the default, are among those that are safe.
-/

set_option autoImplicit false

namespace Reckoner

variable {settings : Settings} {v : Binary64} {text : List Char}

/-- What it takes to go on from a shown text: read as a number, evaluated as an operand, and taken a
hundredth or a root of, it does not become an infinity. -/
structure Continuable (settings : Settings) (text : List Char) : Prop where
  reads : ∃ w, Binary64.ofText? text = some w ∧ w.isFinite = true
  evaluates : ∀ grouped, ∃ operand result, Operand.ofDisplay grouped text = .ok operand ∧
    Evaluation.evaluate settings operand = .ok (.ok result)
  isFinite_hundredth : (Keypad.State.hundredth text).isFinite = true
  isFinite_root : ∀ {w root}, Binary64.ofText? text = some w →
    Operation.squareRoot w = .ok root → root.isFinite = true

/-! ## Operands -/

/-- Parentheses change nothing in a value. -/
theorem Evaluation.value_group (h : value text = .ok v) : value (Operand.group text) = .ok v := by
  unfold Operand.group
  split
  · have hsurround := value_surround ⟨1, 1⟩ text
    rw [h] at hsurround
    exact hsurround
  · exact h

/-- With up to 27 places, the operand of a shown text is the shown number written out. -/
theorem Operand.exists_expand_of_places (hplaces : settings.mantissaDigits < precision)
    (htext : Display.text settings v = .ok text) :
    ∃ d : Decimal, expand text = .ok d.positional ∧
      d.magnitude = (Display.rounded (Display.shownDigits settings v) v).magnitude := by
  have hthousand : settings.mantissaDigits ≤ 1000 := hplaces.le.trans (by simp [precision])
  obtain ⟨shown, written, hshown, hexpand, hiff⟩ := exists_expand_of_text hthousand htext
  obtain ⟨d, hread, hvalue⟩ := Display.exists_ofNumeral?_of_text htext
  obtain rfl := Option.some.inj (hread.symm.trans hshown)
  have hwritten := hiff.mpr (hasDigits_of_text hplaces htext hshown)
  exact ⟨written, hexpand, (Decimal.magnitude_eq_of_value_eq (hwritten.trans hvalue)).1⟩

/-- **An operand that denotes a number in range has a result.** -/
theorem Evaluation.exists_result_of_expand {bound : Nat} (hdigits : settings.DigitsWithin bound)
    (hbound : bound < Display.maxDigits) {d : Decimal}
    (hexpand : Operand.expand text = .ok d.positional)
    (hrange : d.magnitude < Binary64.overflow) (grouped : Bool) :
    ∃ operand result, Operand.ofDisplay grouped text = .ok operand ∧
      evaluate settings operand = .ok (.ok result) := by
  obtain ⟨w, hvalue, hw, -⟩ :=
    value_positional ((Binary64.nearest_lt_iff d.magnitude_nonneg).mpr hrange)
  obtain ⟨result, hresult⟩ := Display.exists_text hdigits hbound hw
  refine ⟨if grouped then Operand.group d.positional else d.positional, result, ?_, ?_⟩
  · rw [Operand.ofDisplay, hexpand]
    rfl
  · cases grouped with
    | false => exact (evaluate_eq_ok_iff d.positional_ne_nil).mpr ⟨w, hvalue, hresult⟩
    | true =>
      have hne : Operand.group d.positional ≠ [] := by
        unfold Operand.group
        split
        · simp
        · exact d.positional_ne_nil
      exact (evaluate_eq_ok_iff hne).mpr ⟨w, value_group hvalue, hresult⟩

/-! ## The border -/

/-- **A shown text can be gone on from if and only if the shown number is in range.** -/
theorem continuable_iff_rounded (hdigits : settings.DigitsWithin 27)
    (htext : Display.text settings v = .ok text) : Continuable settings text ↔
      (Display.rounded (Display.shownDigits settings v) v).magnitude < Binary64.overflow := by
  obtain ⟨negative, hread⟩ := Display.ofText?_of_text htext
  have hfinite : (Binary64.ofRat negative _).isFinite = true ↔ _ := Binary64.isFinite_ofRat_iff_lt
    (Decimal.magnitude_nonneg (Display.rounded (Display.shownDigits settings v) v))
  constructor
  · intro h
    obtain ⟨w, hw, hisFinite⟩ := h.reads
    obtain rfl := Option.some.inj (hread.symm.trans hw)
    exact hfinite.mp hisFinite
  · intro hrange
    have hw := hfinite.mpr hrange
    have hplaces : settings.mantissaDigits < Operand.precision :=
      Nat.lt_succ_of_le hdigits.mantissaDigits_le
    obtain ⟨d, hexpand, hmag⟩ := Operand.exists_expand_of_places hplaces htext
    rw [← hmag] at hrange
    refine ⟨⟨_, hread, hw⟩, ?_, ?_, ?_⟩
    · exact Evaluation.exists_result_of_expand hdigits (by decide) hexpand hrange
    · exact Keypad.State.isFinite_hundredth_of_ofText? hread hw
    · intro w root hw' hroot
      obtain rfl := Option.some.inj (hread.symm.trans hw')
      exact Binary64.isFinite_of_squareRoot hw hroot

/-- The shown number is in range if and only if the value is below the border, in either layout. -/
theorem Display.rounded_shownDigits_lt_overflow_iff (hdigits : settings.DigitsWithin 27)
    (hupper : settings.scientificUpper = Settings.default.scientificUpper)
    (hlower : settings.scientificLower = Settings.default.scientificLower)
    (hv : v.isFinite = true) :
    (rounded (shownDigits settings v) v).magnitude < Binary64.overflow ↔
      v.magnitude < border settings.mantissaDigits := by
  have hlayout : usesScientific settings v = usesScientific Settings.default v := by
    rw [usesScientific, usesScientific, hupper, hlower]
  by_cases huses : usesScientific settings v = true
  · rw [shownDigits, if_pos huses]
    exact rounded_lt_overflow_iff hdigits.mantissaDigits_pos hdigits.mantissaDigits_le v
  · rw [shownDigits, if_neg huses]
    have hplain : v.magnitude < (10 : Rat) ^ (10 : Int) := by
      rw [hlayout, Bool.not_eq_true] at huses
      exact_mod_cast magnitude_lt_of_plain hv huses
    have hpower : (10 : Rat) ^ (10 : Int) < (10 : Rat) ^ (308 : Int) :=
      zpow_lt_zpow_right₀ (by simp) (by simp)
    have hcount := hdigits.significantDigits_pos
    have hrounded := magnitude_rounded_le (n := 1) (k := 10) (v := v) hcount
      (Nat.one_lt_pow (Nat.one_le_iff_ne_zero.mp hcount) (by simp))
    rw [Nat.cast_one, one_mul] at hrounded
    have hborder := ten_pow_lt_border hdigits.mantissaDigits_pos hdigits.mantissaDigits_le
    exact iff_of_true (((hrounded hplain.le).trans_lt hpower).trans ten_pow_lt_overflow)
      ((hplain.trans hpower).trans hborder)

/-- **A result can be gone on from if and only if it is below the border.** With up to 27 digits and
the default bounds between the layouts, every finite value has a text, and that can be gone on from
exactly then. So all can, unless the places are among those with which some value is beyond. -/
theorem continuable_iff (hdigits : settings.DigitsWithin 27)
    (hupper : settings.scientificUpper = Settings.default.scientificUpper)
    (hlower : settings.scientificLower = Settings.default.scientificLower) :
    (∀ v : Binary64, v.isFinite = true → ∃ text, Display.text settings v = .ok text ∧
      (Continuable settings text ↔ v.magnitude < Display.border settings.mantissaDigits)) ∧
    ((∀ (v : Binary64) (text : List Char), Display.text settings v = .ok text →
        Continuable settings text) ↔ settings.mantissaDigits ∉ Display.carryingPlaces) := by
  have hall : ∀ v : Binary64, v.isFinite = true → ∃ text, Display.text settings v = .ok text ∧
      (Continuable settings text ↔ v.magnitude < Display.border settings.mantissaDigits) := by
    intro v hv
    obtain ⟨text, htext⟩ := Display.exists_text hdigits (by decide) hv
    refine ⟨text, htext, (continuable_iff_rounded hdigits htext).trans ?_⟩
    exact Display.rounded_shownDigits_lt_overflow_iff hdigits hupper hlower hv
  refine ⟨hall, ?_⟩
  rw [← Display.greatest_lt_border_iff hdigits.mantissaDigits_pos hdigits.mantissaDigits_le]
  constructor
  · -- The greatest value can be gone on from, if all can.
    intro h
    obtain ⟨text, htext, hiff⟩ := hall (.finite false 9007199254740991 971 (by decide)) rfl
    exact hiff.mp (h _ text htext)
  · intro hgreatest v text htext
    obtain ⟨text', htext', hiff⟩ := hall v (Display.isFinite_of_text htext)
    obtain rfl := Except.ok.inj (htext.symm.trans htext')
    exact hiff.mpr (v.magnitude_le_greatest.trans_lt hgreatest)

/-- With five places, the greatest value can be gone on from. -/
theorem continuable_greatest_of_five_places :
    ∃ text, Display.text { Settings.default with mantissaDigits := 5 }
        (.finite false 9007199254740991 971 (by decide)) = .ok text ∧
      Continuable { Settings.default with mantissaDigits := 5 } text := by
  have hdigits : ({ Settings.default with mantissaDigits := 5 } : Settings).DigitsWithin 27 := by
    constructor
    all_goals decide
  obtain ⟨hall, -⟩ := continuable_iff hdigits rfl rfl
  obtain ⟨text, htext, hiff⟩ := hall (.finite false 9007199254740991 971 (by decide)) rfl
  exact ⟨text, htext, hiff.mpr (by decide +kernel)⟩

/-- **With one place, the greatest value is shown as a number beyond the range.** -/
theorem greatest_shown_beyond_range :
    Display.text { Settings.default with mantissaDigits := 1 }
        (.finite false 9007199254740991 971 (by decide)) = .ok "1.8E+308".toList ∧
      Binary64.ofText? "1.8E+308".toList = some (.infinity false) ∧
      (Operand.ofDisplay true "1.8E+308".toList).bind
          (Evaluation.evaluate { Settings.default with mantissaDigits := 1 }) =
        .ok (.error (.infinite (.infinity false))) := by
  decide +kernel

end Reckoner
