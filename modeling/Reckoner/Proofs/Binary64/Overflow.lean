import Reckoner.Proofs.Binary64.Decimal
/-!
# `Reckoner/Proofs/Binary64/Overflow.lean` — where the range ends

Above the greatest value there is still something to be rounded to it: what lies in the lower half
of the step from it to `2 ^ 1024`. The middle of the step is a tie, and the significand of the
greatest value is odd, so the tie goes out of range.

> **A magnitude has a nearest value if and only if it is below the middle**
> (`isFinite_ofRat_iff_lt`).
-/

set_option autoImplicit false

namespace Reckoner.Binary64

/-- The middle between the greatest value and `2 ^ 1024`. -/
def overflow : Rat := (2 : Rat) ^ (1024 : Int) - (2 : Rat) ^ (970 : Int)

theorem overflow_eq : overflow = greatest + (2 : Rat) ^ (970 : Int) := by
  rw [overflow, greatest, show (1024 : Int) = 970 + 54 by simp, zpow_add₀ two_ne_zero,
    show (971 : Int) = 970 + 1 by simp, zpow_add₀ two_ne_zero]
  ring

theorem overflow_eq_natCast : overflow = ((2 ^ 1024 - 2 ^ 970 : Nat) : Rat) := by
  have hle : (2 : Nat) ^ 970 ≤ 2 ^ 1024 :=
    pow_le_pow_right₀ one_le_two (Nat.le_add_right 970 54)
  rw [Nat.cast_sub hle, Nat.cast_pow, Nat.cast_pow]
  rfl

theorem greatest_lt_overflow : greatest < overflow := by
  rw [overflow_eq]
  exact lt_add_of_pos_right greatest (zpow_pos two_pos _)

theorem log_two_greatest : Int.log 2 greatest = 1023 := by
  have hlower : ((2 : Nat) : Rat) ^ (1023 : Int) ≤ greatest := by
    rw [greatest, show (1023 : Int) = 52 + 971 by simp, Nat.cast_ofNat, zpow_add₀ two_ne_zero]
    exact mul_le_mul_of_nonneg_right (by norm_num) (zpow_pos two_pos _).le
  have hupper : greatest < ((2 : Nat) : Rat) ^ (1024 : Int) := by
    rw [Nat.cast_ofNat]
    exact greatest_lt
  exact log_eq_of_bounds Nat.one_lt_two greatest_pos hlower hupper

/-- **The middle is rounded out of range.** -/
theorem nearest_overflow : nearest overflow = (2 : Rat) ^ (1024 : Int) := by
  decide +kernel

/-- Between the greatest value and the middle, the greatest value is nearest. -/
theorem nearest_eq_greatest {x : Rat} (hlower : greatest < x) (hupper : x < overflow) :
    nearest x = greatest := by
  have hpos : 0 < x := greatest_pos.trans hlower
  have hrange : x < ((2 : Nat) : Rat) ^ ((53 : Nat) + 971 : Int) := by
    refine hupper.trans_le ?_
    rw [overflow, Nat.cast_ofNat]
    exact sub_le_self _ (zpow_pos two_pos _).le
  have hlast : lastExponent 2 53 (-1074) x = 971 := by
    refine le_antisymm (lastExponent_le_of_lt Nat.one_lt_two hpos (by simp) hrange) ?_
    have hlog := Int.log_mono_right (b := 2) greatest_pos hlower.le
    rw [log_two_greatest] at hlog
    rw [lastExponent_eq_log Nat.one_lt_two hpos]
    omega
  have hhalf : ((2 : Nat) : Rat) ^ (971 : Int) / 2 = (2 : Rat) ^ (970 : Int) := by
    rw [Nat.cast_ofNat, show (971 : Int) = 970 + 1 by simp, zpow_add_one₀ two_ne_zero,
      mul_div_cancel_right₀ _ two_ne_zero]
  have hclose : |x - greatest| < (2 : Rat) ^ (970 : Int) := by
    rw [abs_of_pos (sub_pos.mpr hlower), sub_lt_iff_lt_add', ← overflow_eq]
    exact hupper
  refine roundDigits_eq_of_close _ Nat.one_lt_two hpos.le hlast.le ?_
  rw [hlast, hhalf]
  exact hclose

/-- **What is below the middle is not rounded out of range**, and everything else is. -/
theorem nearest_lt_iff {x : Rat} (hx : 0 ≤ x) :
    nearest x < (2 : Rat) ^ (1024 : Int) ↔ x < overflow := by
  constructor
  · intro hlt
    by_contra hge
    have hmono := nearest_mono (greatest_pos.trans greatest_lt_overflow).le (not_lt.mp hge)
    rw [nearest_overflow] at hmono
    exact absurd hlt (not_lt.mpr hmono)
  · intro hlt
    rcases le_or_gt x greatest with hle | hgt
    · exact (nearest_le_greatest hx hle).trans_lt greatest_lt
    · rw [nearest_eq_greatest hgt hlt]
      exact greatest_lt

theorem isFinite_ofRat_iff_lt {negative : Bool} {x : Rat} (hx : 0 ≤ x) :
    (ofRat negative x).isFinite = true ↔ x < overflow :=
  (isFinite_ofRat_iff hx).trans (nearest_lt_iff hx)

end Reckoner.Binary64
