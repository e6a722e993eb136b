import Reckoner.Proofs.Display.Operand
import Reckoner.Proofs.Display.RoundTrip
/-!
# `Reckoner/Proofs/Display/Stability.lean` — results evaluated again

A result that is spelt as an operand and evaluated is a result again. Is it shown by the same text?
The digits survive, fifteen of them or seven (`rounded_of_nearest`, `rounded_seven_of_nearest`), so
it is if the layout stays. But the layout is chosen by the value before it is rounded:

> **A result evaluated again is shown by the same text, with four exceptions**
> (`evaluate_operand_iff`). They are the texts in which a number is rounded to a bound between the
> layouts, `1e10` or `1e-6` of either sign, from the side on which the other layout is used.

Every other text is on the same side as the values that it stands for: a number of seven digits
below `1e-6` is below it by a ten-millionth part at least.
-/

set_option autoImplicit false

namespace Reckoner

/-! ## Seven digits -/

namespace Display

/-- **Seven digits of a value survive**, with any least exponent that is low enough. -/
theorem roundDigits_nearest_rounded (v : Binary64) :
    ∃ bound : Int, ∀ least ≤ bound, roundDigits .awayFromZero 10 7 least
      (Binary64.nearest (rounded 7 v).magnitude) = (rounded 7 v).magnitude := by
  obtain ⟨b, hb⟩ := exists_magnitude_rounded 7 v
  refine ⟨min b (min (-324) (rounded 7 v).exponent), fun least hle => ?_⟩
  exact Binary64.roundDigits_nearest_roundDigits _ v (by omega) (by omega)
    (coefficient_rounded_lt (by simp) v) (hb least (by omega)).symm

theorem rounded_seven_of_nearest {v w : Binary64} (hneg : w.isNegative = v.isNegative)
    (hmag : w.magnitude = Binary64.nearest (rounded 7 v).magnitude) : rounded 7 w = rounded 7 v := by
  apply Decimal.eq_of_isStripped (isStripped_rounded 7 w) (isStripped_rounded 7 v)
  · rw [negative_rounded, negative_rounded, hneg]
  · obtain ⟨b, hb⟩ := exists_magnitude_rounded 7 w
    obtain ⟨c, hc⟩ := roundDigits_nearest_rounded v
    rw [hb (min b c) (by omega), hmag, hc (min b c) (by omega)]

theorem nearest_rounded_pos {v : Binary64} (hpos : 0 < v.magnitude) :
    0 < Binary64.nearest (rounded 7 v).magnitude := by
  apply (Binary64.nearest_nonneg (Decimal.magnitude_nonneg _)).lt_of_ne
  intro hzero
  obtain ⟨b, hb⟩ := roundDigits_nearest_rounded v
  have hround := hb b (Int.le_refl b)
  rw [← hzero, roundDigits_zero] at hround
  exact absurd hround
    (Decimal.magnitude_pos (coefficient_rounded_ne_zero (by simp) hpos)).ne

theorem magnitude_rounded_le_greatest (v : Binary64) :
    (rounded 7 v).magnitude ≤ Binary64.greatest := by
  obtain ⟨b, hb⟩ := exists_magnitude_rounded 7 v
  rw [hb (min b 302) (by omega)]
  exact Binary64.roundDigits_le_greatest _ v (by omega)

theorem nearest_rounded_lt (v : Binary64) :
    Binary64.nearest (rounded 7 v).magnitude < (2 : Rat) ^ (1024 : Int) :=
  (Binary64.nearest_le_greatest (Decimal.magnitude_nonneg _)
    (magnitude_rounded_le_greatest v)).trans_lt Binary64.greatest_lt

/-! ## The layout stays -/

theorem le_nearest_rounded {v : Binary64} (h : 10 ^ 10 ≤ v.magnitude) :
    10 ^ 10 ≤ Binary64.nearest (rounded 7 v).magnitude := by
  have hle := le_magnitude_rounded_of_large h
  have hvalue : ((10 ^ 10 : Nat) : Rat) ≤ Binary64.nearest (rounded 7 v).magnitude :=
    Binary64.natCast_le_nearest (le_trans (by norm_num) hle) (by simp)
  rwa [Nat.cast_pow, Nat.cast_ofNat] at hvalue

/-- A number of seven digits below `1e-6` is read as a value below the bound of the layouts. -/
theorem nearest_rounded_lt_leastPlain {v : Binary64} (hlt : v.magnitude < leastPlain)
    (hne : (rounded 7 v).magnitude ≠ (10 : Rat) ^ (-6 : Int)) :
    Binary64.nearest (rounded 7 v).magnitude < leastPlain := by
  have hle := magnitude_rounded_le_of_small hlt
  have hbelow : (rounded 7 v).magnitude ≤ (4722366010632997 : Nat) * (2 : Rat) ^ (-72 : Int) := by
    have hfits : (rounded 7 v).coefficient < 10 ^ 7 := coefficient_rounded_lt (by simp) v
    rcases Decimal.magnitude_le_or_ge hfits (-13) with hsmall | hge
    · exact hsmall.trans (by norm_num)
    · exact absurd (le_antisymm hle hge) hne
  have hnear := Binary64.nearest_le_of_le (Decimal.magnitude_nonneg _) hbelow (by simp) (by simp)
  exact hnear.trans_lt (by norm_num [leastPlain])

/-- **The layout with an exponent stays**, unless the number is shown as `1e-6`. -/
theorem usesScientific_of_nearest {v w : Binary64} (hv : v.isFinite = true) (hw : w.isFinite = true)
    (huses : usesScientific Settings.default v = true)
    (hne : (rounded 7 v).magnitude ≠ (10 : Rat) ^ (-6 : Int))
    (hmag : w.magnitude = Binary64.nearest (rounded 7 v).magnitude) :
    usesScientific Settings.default w = true := by
  rw [usesScientific_default_iff hw, hmag]
  rcases (usesScientific_default_iff hv).mp huses with hlarge | ⟨hpos, hsmall⟩
  · exact .inl (le_nearest_rounded hlarge)
  · exact .inr ⟨nearest_rounded_pos hpos, nearest_rounded_lt_leastPlain hsmall hne⟩

/-! ## The exceptions -/

/-- The texts of numbers that are rounded to a bound between the layouts from the other side. -/
def boundaryTexts : List (List Char) :=
  ["10000000000".toList, "-10000000000".toList, "1.000000E-06".toList, "-1.000000E-06".toList]

/-- A power of ten is shown by the digit one. -/
theorem rounded_eq_of_magnitude {count : Nat} {v : Binary64} {k : Int}
    (h : (rounded count v).magnitude = (10 : Rat) ^ k) : rounded count v = ⟨v.isNegative, 1, k⟩ := by
  apply Decimal.eq_of_isStripped (isStripped_rounded count v) (.inl (by simp))
  · exact negative_rounded count v
  · rw [h, Decimal.magnitude, Nat.cast_one, one_mul]

theorem plainText_mem_boundaryTexts {v : Binary64} (h : (rounded 15 v).magnitude = 10 ^ 10) :
    plainText 15 v ∈ boundaryTexts := by
  have hrounded := rounded_eq_of_magnitude (k := 10) (h.trans (by norm_num))
  simp only [plainText, hrounded]
  cases v.isNegative <;> decide

theorem scientificText_mem_boundaryTexts {v : Binary64}
    (h : (rounded 7 v).magnitude = (10 : Rat) ^ (-6 : Int)) :
    scientificText 6 v ∈ boundaryTexts := by
  rw [scientificText, rounded_eq_of_magnitude h]
  cases v.isNegative <;> decide

end Display

/-! ## Evaluating operands -/

namespace Evaluation

theorem evaluate_positional_of_scientific {v : Binary64} (hv : v.isFinite = true)
    (huses : Display.usesScientific Settings.default v = true)
    (hne : (Display.rounded 7 v).magnitude ≠ (10 : Rat) ^ (-6 : Int)) :
    evaluate Settings.default (Display.rounded 7 v).positional =
      .ok (.ok (Display.scientificText 6 v)) := by
  obtain ⟨w, hvalue, hw, hneg, hmag⟩ := value_positional (Display.nearest_rounded_lt v)
  rw [Display.negative_rounded] at hneg
  have hrounded := Display.rounded_seven_of_nearest hneg hmag
  have htext := Display.text_default_of_scientific hw
    (Display.usesScientific_of_nearest hv hw huses hne hmag)
  rw [Display.scientificText, hrounded] at htext
  exact (evaluate_eq_ok_iff (Decimal.positional_ne_nil _)).mpr ⟨w, hvalue, htext⟩

/-- A shown text has an operand, and except for those at a bound it is the result of the operand. -/
theorem exists_operand {v : Binary64} {text : List Char}
    (htext : Display.text Settings.default v = .ok text) :
    ∃ operand, Operand.ofDisplay false text = .ok operand ∧ ('E' ∉ text → operand = text) ∧
      (text ∉ Display.boundaryTexts → evaluate Settings.default operand = .ok (.ok text)) := by
  rcases Display.text_default_cases htext with ⟨hv, ⟨huses, rfl⟩ | ⟨hplain, rfl⟩⟩
  · refine ⟨(Display.rounded 7 v).positional, ?_, ?_, ?_⟩
    · rw [Operand.ofDisplay, Operand.expand_scientificText (by simp [Operand.precision]) v]
      rfl
    · intro hletter
      exact absurd hletter (by simp [Display.scientificText, Decimal.scientific])
    · intro hmem
      exact evaluate_positional_of_scientific hv huses fun hbound =>
        hmem (Display.scientificText_mem_boundaryTexts hbound)
  · refine ⟨Display.plainText 15 v, ?_, fun _ => rfl, ?_⟩
    · rw [Operand.ofDisplay, Operand.expand_plainText]
      rfl
    · intro hmem
      exact evaluate_plainText hv hplain fun hbound =>
        hmem (Display.plainText_mem_boundaryTexts hbound)

/-- A shown text can be spelt as an operand, grouped or not. -/
theorem exists_ofDisplay {v : Binary64} {text : List Char}
    (htext : Display.text Settings.default v = .ok text) (grouped : Bool) :
    ∃ operand, Operand.ofDisplay grouped text = .ok operand := by
  obtain ⟨operand, hoperand, -⟩ := exists_operand htext
  obtain ⟨plain, hplain, -⟩ := map_eq_ok_iff.mp hoperand
  exact ⟨_, map_eq_ok_iff.mpr ⟨plain, hplain, rfl⟩⟩

/-- The operands of the exceptions are numbers at the bounds, which are shown in the other layout.
-/
theorem evaluate_ne_of_boundary {text operand : List Char} (hmem : text ∈ Display.boundaryTexts)
    (h : Operand.ofDisplay false text = .ok operand) :
    evaluate Settings.default operand ≠ .ok (.ok text) := by
  have hoperand : ∀ text ∈ Display.boundaryTexts, ((Operand.ofDisplay false text).bind
      (evaluate Settings.default)) ≠ .ok (.ok text) := by
    decide +kernel
  have hbind := hoperand text hmem
  rw [h] at hbind
  exact hbind

/-- **A result evaluated again is shown by the same text**, unless that is one of the four at the
bounds of the layouts: with the default settings, the text of every expression and of every value
has an operand, which is the text itself if there is no exponent in it; and the operand evaluates to
the text if and only if it is none of the four. -/
theorem evaluate_operand_iff {text : List Char}
    (hresult : (∃ expression, evaluate Settings.default expression = .ok (.ok text)) ∨
      ∃ v, Display.text Settings.default v = .ok text) :
    ∃ operand, Operand.ofDisplay false text = .ok operand ∧ ('E' ∉ text → operand = text) ∧
      (evaluate Settings.default operand = .ok (.ok text) ↔ text ∉ Display.boundaryTexts) := by
  obtain ⟨v, htext⟩ : ∃ v, Display.text Settings.default v = .ok text := by
    rcases hresult with ⟨expression, h⟩ | h
    · exact exists_text_of_evaluate h
    · exact h
  obtain ⟨operand, hoperand, hplain, hstable⟩ := exists_operand htext
  refine ⟨operand, hoperand, hplain, ?_, hstable⟩
  intro heval hmem
  exact evaluate_ne_of_boundary hmem hoperand heval

/-- A power of two is shown with an exponent, and its operand evaluates to the same text. -/
theorem evaluate_operand_of_power :
    (∃ expression, evaluate Settings.default expression = .ok (.ok "8.507059E+37".toList)) ∧
      ∃ operand, Operand.ofDisplay false "8.507059E+37".toList = .ok operand ∧
        ('E' ∉ "8.507059E+37".toList → operand = "8.507059E+37".toList) ∧
        (evaluate Settings.default operand = .ok (.ok "8.507059E+37".toList) ↔
          "8.507059E+37".toList ∉ Display.boundaryTexts) :=
  have hpower : evaluate Settings.default "2^126".toList = .ok (.ok "8.507059E+37".toList) := by
    decide +kernel
  ⟨⟨_, hpower⟩, evaluate_operand_iff (.inl ⟨_, hpower⟩)⟩

/-- The text of the value just below `1e10` denotes `1e10`, which is shown with an exponent. -/
theorem evaluate_below_bound_unstable :
    evaluate Settings.default "9999999999.999998".toList = .ok (.ok "10000000000".toList) ∧
      Operand.ofDisplay false "10000000000".toList = .ok "10000000000".toList ∧
      evaluate Settings.default "10000000000".toList = .ok (.ok "1.000000E+10".toList) := by
  decide +kernel

end Evaluation

end Reckoner
