import Mathlib.Tactic.Linarith
import Reckoner.Proofs.Binary64.Nearest
/-!
# `Reckoner/Proofs/Binary64/Order.lean` — finite values in order

Finite values are in the order of the numbers that they are, and the number is a sign and a magnitude.
Only zero is two values: they are one number, and are told apart by the sign (`eq_zero_of_isZero`).
So a value is known by its number and its sign (`eq_of_value_eq`).
-/

set_option autoImplicit false

namespace Reckoner.Binary64

theorem exists_eq_finite {v : Binary64} (hv : v.isFinite = true) :
    ∃ negative m e, ∃ canonical : Canonical m e, v = .finite negative m e canonical := by
  cases v with
  | nan => cases hv
  | infinity negative => cases hv
  | finite negative m e canonical => exact ⟨negative, m, e, canonical, rfl⟩

/-! ## Order -/

/-- Finite values are in the order of the numbers that they are. -/
theorem le_iff_value_le {v w : Binary64} (hv : v.isFinite = true) (hw : w.isFinite = true) :
    v.le w = true ↔ v.value ≤ w.value := by
  obtain ⟨s, m, e, hm, rfl⟩ := exists_eq_finite hv
  obtain ⟨t, n, f, hn, rfl⟩ := exists_eq_finite hw
  simp [le, lt]

theorem lt_iff_value_lt {v w : Binary64} (hv : v.isFinite = true) (hw : w.isFinite = true) :
    v.lt w = true ↔ v.value < w.value := by
  obtain ⟨s, m, e, hm, rfl⟩ := exists_eq_finite hv
  obtain ⟨t, n, f, hn, rfl⟩ := exists_eq_finite hw
  simp [lt]

/-! ## Signs -/

/-- What is above zero has no sign. -/
theorem isNegative_of_value_pos {v : Binary64} (h : 0 < v.value) :
    v.isNegative = false ∧ 0 < v.magnitude := by
  unfold value at h
  split at h
  · have hmag := v.magnitude_nonneg
    linarith
  · next hneg => exact ⟨by simpa using hneg, h⟩

/-- What is below zero has a sign. -/
theorem isNegative_of_value_neg {v : Binary64} (h : v.value < 0) :
    v.isNegative = true ∧ 0 < v.magnitude := by
  unfold value at h
  split at h
  · next hneg => exact ⟨hneg, by linarith⟩
  · have hmag := v.magnitude_nonneg
    linarith

/-- A number that is not below zero is its magnitude, sign or not. -/
theorem value_eq_magnitude {v : Binary64} (h : 0 ≤ v.value) : v.value = v.magnitude := by
  have hmag := v.magnitude_nonneg
  unfold value at h ⊢
  split
  · next hneg =>
    rw [if_pos hneg] at h
    linarith
  · rfl

/-- The opposite of a finite value has the other sign, and the same magnitude. -/
theorem parts_neg {v : Binary64} (hv : v.isFinite = true) : v.neg.isFinite = true ∧
    v.neg.isNegative = !v.isNegative ∧ v.neg.magnitude = v.magnitude ∧ v.neg.abs = v.abs := by
  obtain ⟨s, m, e, hm, rfl⟩ := exists_eq_finite hv
  exact ⟨rfl, rfl, rfl, rfl⟩

theorem neg_involutive : Function.Involutive neg := by
  intro v
  cases v with
  | nan => rfl
  | infinity negative => rw [neg, neg, Bool.not_not]
  | finite s m e h =>
    rw [neg, neg]
    simp only [Bool.not_not]

theorem value_neg {v : Binary64} (hv : v.isFinite = true) : v.neg.value = -v.value := by
  obtain ⟨-, hneg, hmag, -⟩ := parts_neg hv
  rw [value, value, hneg, hmag]
  cases v.isNegative <;> simp

/-! ## Zeros -/

theorem value_zero (negative : Bool) : (zero negative).value = 0 := by
  simp [value]

/-- The sign of a number that is not zero can be told by comparing. -/
theorem lt_zero_eq_isNegative {v : Binary64} (hv : v.isFinite = true) (hne : v.value ≠ 0) :
    v.lt (zero false) = v.isNegative := by
  rcases lt_or_gt_of_ne hne with hneg | hpos
  · rw [(isNegative_of_value_neg hneg).1, lt_iff_value_lt hv rfl, value_zero]
    exact hneg
  · rw [(isNegative_of_value_pos hpos).1, Bool.eq_false_iff, Ne, lt_iff_value_lt hv rfl, value_zero]
    exact hpos.not_gt

/-- A zero is one of two values. -/
theorem eq_zero_of_isZero {v : Binary64} (h : v.isZero = true) : v = zero v.isNegative := by
  cases v with
  | nan => cases h
  | infinity negative => cases h
  | finite negative m e canonical =>
    obtain rfl : m = 0 := by simpa [isZero] using h
    obtain rfl : e = -1074 := by simpa using canonical.2.2.2
    rfl

/-- Neither of the zeros is below the other. -/
theorem lt_zero_of_isZero {v : Binary64} (h : v.isZero = true) : v.lt (zero false) = false := by
  rw [eq_zero_of_isZero h, Bool.eq_false_iff, Ne, lt_iff_value_lt rfl rfl, value_zero, value_zero]
  exact lt_irrefl 0

/-- A finite value that is no zero has a magnitude. -/
theorem magnitude_pos {v : Binary64} (hv : v.isFinite = true) (hne : v.isZero = false) :
    0 < v.magnitude := by
  obtain ⟨negative, m, e, canonical, rfl⟩ := exists_eq_finite hv
  have hm : m ≠ 0 := by simpa [isZero] using hne
  exact mul_pos (Nat.cast_pos.mpr (Nat.pos_of_ne_zero hm)) (zpow_pos two_pos e)

theorem isZero_iff_value_eq_zero {v : Binary64} (hv : v.isFinite = true) :
    v.isZero = true ↔ v.value = 0 := by
  obtain ⟨negative, m, e, canonical, rfl⟩ := exists_eq_finite hv
  have hunit : (2 : Rat) ^ e ≠ 0 := (zpow_pos two_pos e).ne'
  cases negative <;> simp [isZero, value, magnitude, isNegative, hunit]

/-! ## One value for a number -/

/-- Of two canonical pairs for a number, neither has the smaller exponent. Its significand would be
at least twice the other one, which has all its bits. -/
theorem le_of_mul_zpow_eq {m n : Nat} {e f : Int} (hm : Canonical m e) (hn : Canonical n f)
    (h : m * (2 : Rat) ^ e = n * (2 : Rat) ^ f) : f ≤ e := by
  by_contra hlt
  rw [not_le] at hlt
  obtain ⟨hfits, hleast, -⟩ := hm
  have hfull : 4503599627370496 ≤ n := hn.2.2.2.resolve_right (by omega)
  have hshift := natCast_mul_zpow Nat.one_lt_two n hlt.le
  rw [Nat.cast_ofNat, ← h, mul_left_inj' (zpow_pos two_pos e).ne', Nat.cast_inj] at hshift
  have htwice : 2 ≤ 2 ^ (f - e).toNat := Nat.le_self_pow (by omega) 2
  have hdouble := Nat.mul_le_mul hfull htwice
  omega

/-- **A canonical pair is determined by its number.** -/
theorem eq_of_mul_zpow_eq {m n : Nat} {e f : Int} (hm : Canonical m e) (hn : Canonical n f)
    (h : m * (2 : Rat) ^ e = n * (2 : Rat) ^ f) : m = n ∧ e = f := by
  obtain rfl : e = f := le_antisymm (le_of_mul_zpow_eq hn hm h.symm) (le_of_mul_zpow_eq hm hn h)
  rw [mul_left_inj' (zpow_pos two_pos e).ne', Nat.cast_inj] at h
  exact ⟨h, rfl⟩

/-- **A finite value is determined by its number and its sign.** -/
theorem eq_of_value_eq {v w : Binary64} (hv : v.isFinite = true) (hw : w.isFinite = true)
    (hsign : v.isNegative = w.isNegative) (h : v.value = w.value) : v = w := by
  obtain ⟨s, m, e, hm, rfl⟩ := exists_eq_finite hv
  obtain ⟨t, n, f, hn, rfl⟩ := exists_eq_finite hw
  obtain rfl : s = t := hsign
  have hmag : m * (2 : Rat) ^ e = n * (2 : Rat) ^ f := by
    cases s with
    | false => exact h
    | true => exact neg_injective h
  obtain ⟨rfl, rfl⟩ := eq_of_mul_zpow_eq hm hn hmag
  rfl

end Reckoner.Binary64
