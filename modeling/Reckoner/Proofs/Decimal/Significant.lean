import Mathlib.Tactic.NormNum
import Reckoner.Decimal.Basic
import Reckoner.Proofs.Rounding
/-!
# `Reckoner/Proofs/Decimal/Significant.lean` — the significant digits of a decimal

What the two steps on the way to a shown number do to the number: rounding to so many digits is
`roundDigits` on the magnitude (`magnitude_round`), and dropping the zeros at the end does nothing
to it.

> **A stripped decimal is determined by its number** (`eq_of_isStripped`), so to compare two shown
> numbers is to compare two magnitudes.
-/

set_option autoImplicit false

namespace Reckoner.Decimal

/-! ## Magnitude -/

theorem magnitude_nonneg (d : Decimal) : 0 ≤ d.magnitude :=
  mul_nonneg (Nat.cast_nonneg _) (zpow_pos (by simp) _).le

theorem magnitude_pos {d : Decimal} (h : d.coefficient ≠ 0) : 0 < d.magnitude :=
  mul_pos (by exact_mod_cast Nat.pos_of_ne_zero h) (zpow_pos (by simp) _)

theorem magnitude_eq_zero {d : Decimal} (h : d.coefficient = 0) : d.magnitude = 0 := by
  rw [magnitude, h, Nat.cast_zero, zero_mul]

/-- Zeros at the end of a coefficient count as well in the exponent. -/
theorem magnitude_eq_of_shift {a b : Decimal} {n : Nat}
    (hcoefficient : a.coefficient = b.coefficient * 10 ^ n)
    (hexponent : b.exponent = a.exponent + n) : a.magnitude = b.magnitude := by
  rw [magnitude, magnitude, hcoefficient, hexponent, Nat.cast_mul, Nat.cast_pow, Nat.cast_ofNat,
    mul_assoc, zpow_add₀ (by simp), zpow_natCast, mul_comm ((10 : Rat) ^ n)]

/-- A number of `p` digits is not between a power of ten and the number of `p` nines before it. -/
theorem magnitude_le_or_ge {d : Decimal} {p : Nat} (hfits : d.coefficient < 10 ^ p) (k : Int) :
    d.magnitude ≤ (10 ^ p - 1 : Nat) * (10 : Rat) ^ k ∨ (10 : Rat) ^ (p + k) ≤ d.magnitude := by
  rcases Int.le_total d.exponent k with hle | hle
  · refine .inl (mul_le_mul ?_ (zpow_le_zpow_right₀ (by simp) hle) (zpow_pos (by simp) _).le
      (Nat.cast_nonneg _))
    exact_mod_cast Nat.le_sub_one_of_lt hfits
  · have hshift := natCast_mul_zpow (show 1 < 10 by simp) d.coefficient hle
    rw [Nat.cast_ofNat] at hshift
    rw [magnitude, hshift]
    rcases Nat.lt_or_ge (d.coefficient * 10 ^ (d.exponent - k).toNat) (10 ^ p) with hlt | hge
    · refine .inl (mul_le_mul_of_nonneg_right ?_ (zpow_pos (by simp) k).le)
      exact_mod_cast Nat.le_sub_one_of_lt hlt
    · refine .inr ?_
      rw [zpow_add₀ (by simp), zpow_natCast]
      exact mul_le_mul_of_nonneg_right (by exact_mod_cast hge) (zpow_pos (by simp) k).le

/-! ## Value -/

theorem abs_value (d : Decimal) : |d.value| = d.magnitude := by
  unfold value
  split
  · rw [abs_neg, abs_of_nonneg d.magnitude_nonneg]
  · rw [abs_of_nonneg d.magnitude_nonneg]

theorem value_eq_zero {d : Decimal} (h : d.coefficient = 0) : d.value = 0 := by
  rw [← abs_eq_zero, abs_value, magnitude_eq_zero h]

theorem value_eq_of_magnitude_eq {a b : Decimal} (hneg : a.negative = b.negative)
    (hmag : a.magnitude = b.magnitude) : a.value = b.value := by
  rw [value, value, hneg, hmag]

/-- A number has one magnitude, and one sign unless it is zero. -/
theorem magnitude_eq_of_value_eq {a b : Decimal} (h : a.value = b.value) :
    a.magnitude = b.magnitude ∧ (0 < a.magnitude → a.negative = b.negative) := by
  have hmag : a.magnitude = b.magnitude := by rw [← a.abs_value, h, b.abs_value]
  refine ⟨hmag, ?_⟩
  intro hpos
  unfold value at h
  rw [← hmag] at h
  cases hneg : a.negative with
  | false =>
    cases hneg' : b.negative with
    | false => rfl
    | true =>
      simp only [hneg, hneg', Bool.false_eq_true, ↓reduceIte] at h
      linarith
  | true =>
    cases hneg' : b.negative with
    | true => rfl
    | false =>
      simp only [hneg, hneg', Bool.false_eq_true, ↓reduceIte] at h
      linarith

/-! ## Digits -/

theorem length_digits (d : Decimal) : d.digits.length = Nat.log 10 d.coefficient + 1 :=
  length_toDigits_eq_log Nat.one_lt_ofNat _

theorem coefficient_lt_pow_length (d : Decimal) : d.coefficient < 10 ^ d.digits.length := by
  rw [length_digits]
  exact Nat.lt_pow_succ_log_self Nat.one_lt_ofNat _

/-- **The place of the leading digit is the floor of the logarithm.** -/
theorem leadingExponent_eq_log {d : Decimal} (h : d.coefficient ≠ 0) :
    d.leadingExponent = Int.log 10 d.magnitude := by
  have hpos := magnitude_pos h
  have hlower : (10 : Rat) ^ d.leadingExponent ≤ d.magnitude := by
    have hle := zpow_log_le_natCast 10 h
    rw [leadingExponent, length_digits, magnitude]
    calc (10 : Rat) ^ (d.exponent + ((Nat.log 10 d.coefficient + 1 : Nat) : Int) - 1)
        = (10 : Rat) ^ (Nat.log 10 d.coefficient : Int) * (10 : Rat) ^ d.exponent := by
          rw [← zpow_add₀ (by simp)]
          congr 1
          omega
      _ ≤ d.coefficient * (10 : Rat) ^ d.exponent :=
          mul_le_mul_of_nonneg_right (by exact_mod_cast hle) (zpow_pos (by simp) _).le
  have hupper : d.magnitude < (10 : Rat) ^ (d.leadingExponent + 1) := by
    have hlt := natCast_lt_zpow_log (show 1 < 10 by simp) d.coefficient
    rw [leadingExponent, length_digits, magnitude]
    calc d.coefficient * (10 : Rat) ^ d.exponent
        < (10 : Rat) ^ ((Nat.log 10 d.coefficient : Int) + 1) * (10 : Rat) ^ d.exponent :=
          mul_lt_mul_of_pos_right (by exact_mod_cast hlt) (zpow_pos (by simp) _)
      _ = (10 : Rat) ^ (d.exponent + ((Nat.log 10 d.coefficient + 1 : Nat) : Int) - 1 + 1) := by
          rw [← zpow_add₀ (by simp)]
          congr 1
          omega
  exact (log_eq_of_bounds Nat.one_lt_ofNat hpos (by exact_mod_cast hlower)
    (by exact_mod_cast hupper)).symm

/-! ## Rounding -/

theorem coefficient_dropDigits_zero (tie : Tie) (d : Decimal) : d.dropDigits tie 0 = d := by
  simp [dropDigits, roundNat_natCast]

/-- **Rounding a decimal rounds its magnitude.** The least exponent is any that is low enough. -/
theorem magnitude_round (tie : Tie) {count : Nat} {least : Int} (d : Decimal)
    (hleast : least ≤ d.leadingExponent + 1 - count) (hexponent : least ≤ d.exponent) :
    (d.round tie count).magnitude = roundDigits tie 10 count least d.magnitude := by
  have hlength := d.coefficient_lt_pow_length
  rcases Nat.le_total d.digits.length count with hle | hle
  · -- There is nothing to round.
    have hfits : d.coefficient < 10 ^ count :=
      hlength.trans_le (Nat.pow_le_pow_right (by simp) hle)
    have hfix := roundDigits_mul_zpow tie (b := 10) Nat.one_lt_ofNat hfits hexponent
    rw [round, Nat.sub_eq_zero_of_le hle, coefficient_dropDigits_zero, magnitude]
    exact_mod_cast hfix.symm
  · rcases eq_or_ne d.coefficient 0 with hzero | hne
    · rw [magnitude_eq_zero hzero, roundDigits_zero]
      refine magnitude_eq_zero ?_
      show roundNat tie _ = 0
      rw [hzero, Nat.cast_zero, zero_div, roundNat_zero]
    · have hlast : lastExponent 10 count least d.magnitude =
          d.exponent + (d.digits.length - count : Nat) := by
        rw [lastExponent_eq_log Nat.one_lt_ofNat (magnitude_pos hne), ← leadingExponent_eq_log hne,
          max_eq_left hleast, leadingExponent]
        omega
      have hscale : d.magnitude / (10 : Rat) ^ (d.exponent + (d.digits.length - count : Nat)) =
          d.coefficient / (10 : Rat) ^ (d.digits.length - count) := by
        rw [magnitude, zpow_add₀ (by simp), zpow_natCast, mul_comm (d.coefficient : Rat),
          mul_div_mul_left _ _ (zpow_pos (by simp) _).ne']
      rw [roundDigits, hlast, Nat.cast_ofNat, hscale]
      rfl

theorem exists_magnitude_round (tie : Tie) (count : Nat) (d : Decimal) :
    ∃ bound : Int, ∀ least ≤ bound,
      (d.round tie count).magnitude = roundDigits tie 10 count least d.magnitude :=
  ⟨min (d.leadingExponent + 1 - count) d.exponent, fun _ hle =>
    d.magnitude_round tie (hle.trans (min_le_left _ _)) (hle.trans (min_le_right _ _))⟩

theorem round_eq_self (tie : Tie) {count : Nat} {d : Decimal} (h : d.coefficient < 10 ^ count)
    (hcount : 0 < count) : d.round tie count = d := by
  have hlength : d.digits.length ≤ count :=
    (Nat.length_toDigits_le_iff (by simp) hcount).mpr h
  rw [round, Nat.sub_eq_zero_of_le hlength, coefficient_dropDigits_zero]

theorem coefficient_round_le (tie : Tie) {count : Nat} (d : Decimal) :
    (d.round tie count).coefficient ≤ 10 ^ count := by
  have hlength := d.coefficient_lt_pow_length
  refine roundNat_le_natCast tie ?_
  rw [div_le_iff₀ (pow_pos (by simp) _)]
  have hle : d.coefficient ≤ 10 ^ count * 10 ^ (d.digits.length - count) := by
    rw [← Nat.pow_add]
    exact hlength.le.trans (Nat.pow_le_pow_right (by simp) (by omega))
  exact_mod_cast hle

/-! ## Zeros at the end -/

/-- The coefficient does not end in a zero, unless it is one. -/
def IsStripped (d : Decimal) : Prop :=
  d.coefficient % 10 ≠ 0 ∨ d.coefficient = 0 ∧ d.exponent = 0

theorem stripWithin_spec (fuel : Nat) (d : Decimal) :
    (d.stripWithin fuel).negative = d.negative ∧ (d.stripWithin fuel).magnitude = d.magnitude ∧
      (d.stripWithin fuel).coefficient ≤ d.coefficient ∧
      (d.coefficient ≠ 0 → d.coefficient < 10 ^ fuel → (d.stripWithin fuel).coefficient % 10 ≠ 0) := by
  induction fuel generalizing d with
  | zero => exact ⟨rfl, rfl, Nat.le_refl _, fun hne hlt => absurd hlt (by simpa using hne)⟩
  | succ fuel ih =>
    rw [stripWithin]
    split
    · next hmod =>
      obtain ⟨hneg, hmag, hle, hstripped⟩ :=
        ih { d with coefficient := d.coefficient / 10, exponent := d.exponent + 1 }
      refine ⟨hneg, hmag.trans ?_, hle.trans (Nat.div_le_self _ _), fun hne hlt => ?_⟩
      · refine (magnitude_eq_of_shift (n := 1) ?_ rfl).symm
        show d.coefficient = d.coefficient / 10 * 10 ^ 1
        omega
      · exact hstripped (by show d.coefficient / 10 ≠ 0; omega)
          (by show d.coefficient / 10 < _; rw [Nat.pow_succ] at hlt; omega)
    · next hmod => exact ⟨rfl, rfl, Nat.le_refl _, fun _ _ => hmod⟩

theorem negative_strip (d : Decimal) : d.strip.negative = d.negative := by
  unfold strip
  split
  · rfl
  · exact (stripWithin_spec _ d).1

theorem magnitude_strip (d : Decimal) : d.strip.magnitude = d.magnitude := by
  unfold strip
  split
  · next hzero => rw [magnitude_eq_zero hzero, magnitude_eq_zero]; exact hzero
  · exact (stripWithin_spec _ d).2.1

theorem coefficient_strip_le (d : Decimal) : d.strip.coefficient ≤ d.coefficient := by
  unfold strip
  split
  · exact Nat.le_refl _
  · exact (stripWithin_spec _ d).2.2.1

theorem isStripped_strip (d : Decimal) : d.strip.IsStripped := by
  unfold strip
  split
  · next hzero => exact .inr ⟨hzero, rfl⟩
  · next hne => exact .inl ((stripWithin_spec _ d).2.2.2 hne d.coefficient_lt_pow_length)

/-- Rounded and stripped, a number has no more digits than it is rounded to: a carry leaves a zero at
the end. -/
theorem coefficient_strip_round_lt (tie : Tie) {count : Nat} (hcount : 0 < count) (d : Decimal) :
    (d.round tie count).strip.coefficient < 10 ^ count := by
  have hle := ((d.round tie count).coefficient_strip_le).trans (coefficient_round_le tie d)
  refine Nat.lt_of_le_of_ne hle ?_
  intro heq
  obtain ⟨k, rfl⟩ : ∃ k, count = k + 1 := ⟨count - 1, by omega⟩
  rcases (d.round tie (k + 1)).isStripped_strip with hmod | ⟨hzero, -⟩
  · rw [heq, Nat.pow_succ] at hmod
    omega
  · rw [heq] at hzero
    exact absurd hzero (by simp)

theorem eq_of_le_of_magnitude_eq {a b : Decimal} (ha : a.coefficient % 10 ≠ 0)
    (hle : a.exponent ≤ b.exponent) (hmag : a.magnitude = b.magnitude) :
    a.coefficient = b.coefficient ∧ a.exponent = b.exponent := by
  have hshift := natCast_mul_zpow (show 1 < 10 by simp) b.coefficient hle
  rw [magnitude, magnitude, ← Nat.cast_ofNat (R := Rat), hshift] at hmag
  have hcoeff : a.coefficient = b.coefficient * 10 ^ (b.exponent - a.exponent).toNat := by
    exact_mod_cast mul_right_cancel₀ (zpow_pos (by norm_num) _).ne' hmag
  rcases hle.eq_or_lt with heq | hlt
  · rw [heq, Int.sub_self] at hcoeff
    exact ⟨by simpa using hcoeff, heq⟩
  · obtain ⟨k, hk⟩ : ∃ k, (b.exponent - a.exponent).toNat = k + 1 :=
      ⟨(b.exponent - a.exponent).toNat - 1, by omega⟩
    rw [hk, Nat.pow_succ, ← Nat.mul_assoc] at hcoeff
    omega

/-- **A stripped decimal is determined by its number.** -/
theorem eq_of_isStripped {a b : Decimal} (ha : a.IsStripped) (hb : b.IsStripped)
    (hneg : a.negative = b.negative) (hmag : a.magnitude = b.magnitude) : a = b := by
  have hparts : a.coefficient = b.coefficient ∧ a.exponent = b.exponent := by
    rcases ha with ha | ⟨ha, hea⟩
    · rcases hb with hb | ⟨hb, -⟩
      · rcases Int.le_total a.exponent b.exponent with hle | hle
        · exact eq_of_le_of_magnitude_eq ha hle hmag
        · have heq := eq_of_le_of_magnitude_eq hb hle hmag.symm
          exact ⟨heq.1.symm, heq.2.symm⟩
      · have hpos := magnitude_pos (d := a) (by omega)
        rw [hmag, magnitude_eq_zero hb] at hpos
        exact absurd hpos (lt_irrefl _)
    · rcases hb with hb | ⟨hb, heb⟩
      · have hpos := magnitude_pos (d := b) (by omega)
        rw [← hmag, magnitude_eq_zero ha] at hpos
        exact absurd hpos (lt_irrefl _)
      · exact ⟨ha.trans hb.symm, hea.trans heb.symm⟩
  cases a
  cases b
  simp_all

end Reckoner.Decimal
