import Mathlib.Algebra.Order.Floor.Div
import Reckoner.Proofs.Binary64.Overflow
import Reckoner.Proofs.Display.Operand
import Reckoner.Proofs.Display.RoundTrip
import Reckoner.Proofs.Rounding.Closest
/-!
# `Reckoner/Proofs/Display/Range.lean` — shown numbers beyond the range

The greatest value is a little below `1.8e308`. Shown with one place it is `1.8E+308`, and that is
no longer nearest to any value. How far down this reaches depends on the places:

> **A shown number is in range if and only if the value is below a border**
> (`rounded_lt_overflow_iff`). The border is half a unit of the last place below the first number of
> that many places that is beyond the range; and for 19 of the counts of places up to 27, it is
> above all values (`greatest_lt_border_iff`).

For the other counts the digits of the greatest value, `1.7976931348623157…`, go on with a five or
more where they are cut off, and the middle of the last step, from where on nothing is read as a
value, comes before the number that they are carried to.
-/

set_option autoImplicit false

namespace Reckoner.Display

/-! ## The border -/

/-- The unit of the last of so many places of a number that begins at the 308th power of ten. -/
def lastUnit (places : Nat) : Nat := 10 ^ (308 - places)

/-- The first multiple of the unit that is beyond the range. -/
def firstBeyond (places : Nat) : Nat := (2 ^ 1024 - 2 ^ 970) ⌈/⌉ lastUnit places

/-- The least magnitude that is rounded beyond the range. -/
def border (places : Nat) : Rat := (firstBeyond places - 1 / 2) * lastUnit places

/-- The counts of places, up to 27, with which some value is shown beyond the range. -/
def carryingPlaces : List Nat := [1, 2, 3, 4, 9, 10, 14, 15]

/-- Where the borders of up to 27 places lie. -/
theorem border_cases : ∀ places < 28, 1 ≤ places →
    (10 : Rat) ^ (308 : Int) < border places ∧
      (Binary64.greatest < border places ↔ places ∉ carryingPlaces) := by
  decide +kernel

theorem greatest_lt_border_iff {places : Nat} (hpos : 1 ≤ places) (hle : places ≤ 27) :
    Binary64.greatest < border places ↔ places ∉ carryingPlaces :=
  (border_cases places (Nat.lt_succ_of_le hle) hpos).2

theorem ten_pow_lt_border {places : Nat} (hpos : 1 ≤ places) (hle : places ≤ 27) :
    (10 : Rat) ^ (308 : Int) < border places :=
  (border_cases places (Nat.lt_succ_of_le hle) hpos).1

theorem ten_pow_lt_overflow : (10 : Rat) ^ (308 : Int) < Binary64.overflow := by
  have hlog := Int.zpow_log_le_self (b := 10) Nat.one_lt_ofNat Binary64.greatest_pos
  rw [Binary64.log_greatest, Nat.cast_ofNat] at hlog
  exact hlog.trans_lt Binary64.greatest_lt_overflow

theorem lastUnit_pos (places : Nat) : 0 < lastUnit places := Nat.pow_pos (by simp)

/-- A number of so many places is in range below the first multiple of its unit that is not. -/
theorem natCast_mul_lt_overflow_iff {places n : Nat} :
    (n : Rat) * lastUnit places < Binary64.overflow ↔ n < firstBeyond places := by
  rw [Binary64.overflow_eq_natCast, ← Nat.cast_mul, Nat.cast_lt, ← not_le, ← not_le, firstBeyond,
    ceilDiv_le_iff_le_mul (lastUnit_pos places), Nat.mul_comm]

/-! ## Rounding near the end of the range -/

variable {places : Nat} {v : Binary64}

/-- A value that begins at the 308th power of ten is rounded to multiples of the unit. -/
theorem magnitude_rounded_of_le (hle : places ≤ 27)
    (hlarge : (10 : Rat) ^ (308 : Int) ≤ v.magnitude) :
    (rounded (places + 1) v).magnitude =
      roundNat .awayFromZero (v.magnitude / lastUnit places) * lastUnit places := by
  have hpos : 0 < v.magnitude := (zpow_pos (by simp) _).trans_le hlarge
  have hlog : Int.log 10 v.magnitude = 308 := by
    have hupper := Int.log_mono_right (b := 10) hpos v.magnitude_le_greatest
    rw [Binary64.log_greatest] at hupper
    have hpower : ((10 : Nat) : Rat) ^ (308 : Int) ≤ v.magnitude := by rwa [Nat.cast_ofNat]
    exact le_antisymm hupper ((Int.zpow_le_iff_le_log Nat.one_lt_ofNat hpos).mp hpower)
  obtain ⟨bound, hbound⟩ := exists_magnitude_rounded (places + 1) v
  have hlast : lastExponent 10 (places + 1) (min bound 0) v.magnitude = (308 - places : Nat) := by
    rw [lastExponent_eq_log Nat.one_lt_ofNat hpos, hlog]
    omega
  have hunit : ((10 : Nat) : Rat) ^ ((308 - places : Nat) : Int) = lastUnit places := by
    rw [zpow_natCast, lastUnit, Nat.cast_pow]
  rw [hbound _ (min_le_left _ _), roundDigits, hlast, hunit]

/-- **A shown number is in range if and only if the value is below the border.** -/
theorem rounded_lt_overflow_iff (hpos : 1 ≤ places) (hle : places ≤ 27) (v : Binary64) :
    (rounded (places + 1) v).magnitude < Binary64.overflow ↔ v.magnitude < border places := by
  rcases lt_or_ge v.magnitude ((10 : Rat) ^ (308 : Int)) with hsmall | hlarge
  · -- A power of ten is not crossed.
    have hrounded := magnitude_rounded_le (n := 1) (k := 308) (v := v) (Nat.succ_pos places)
      (Nat.one_lt_pow (Nat.succ_ne_zero places) (by simp))
    rw [Nat.cast_one, one_mul] at hrounded
    exact iff_of_true ((hrounded hsmall.le).trans_lt ten_pow_lt_overflow)
      (hsmall.trans (ten_pow_lt_border hpos hle))
  · have hunit : (0 : Rat) < lastUnit places := by exact_mod_cast lastUnit_pos places
    have hquot : 0 ≤ v.magnitude / lastUnit places := div_nonneg v.magnitude_nonneg hunit.le
    rw [magnitude_rounded_of_le hle hlarge, natCast_mul_lt_overflow_iff, ← not_le,
      le_roundNat_awayFromZero_iff hquot, not_le, div_lt_iff₀ hunit]
    rfl

end Reckoner.Display
