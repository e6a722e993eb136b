import Reckoner.Proofs.Binary64.Decimal
/-!
# `Reckoner/Proofs/Binary64/SevenDigits.lean` — seven digits of every value survive

Below `2 ^ -1022` the values lie as far apart as the least of them, `2 ^ -1074`, so that the smaller
ones have fewer than seven digits, and a decimal of seven digits need not survive the way through
binary. But the shown ones do:

> **Seven digits of a value survive** (`roundDigits_nearest_roundDigits`): the value nearest to a
> value rounded to seven digits is rounded to the same seven digits.

Where the decimals lie closer together than the values, reading finds the value itself again; where
they lie further apart, it finds a value close enough to the decimal. The border is between `1e-324`
and `1e-323`, the units of seven digits on the two sides of `1e-317`. That number is the one decimal
whose neighbours below and above are of either sort; the value nearest to it is above it, which
decides the matter.

At the other end, the greatest value is rounded down to seven digits, so these are never out of
range (`roundDigits_le_greatest`). All that has to be computed is the place of one decimal among the
values, at each end (`border_bounds`, `greatest_bounds`).
-/

set_option autoImplicit false

namespace Reckoner.Binary64

/-- Every value is a multiple of the least one. -/
theorem exists_magnitude_eq (v : Binary64) :
    ∃ n : Nat, v.magnitude = n * (2 : Rat) ^ (-1074 : Int) := by
  cases v with
  | nan => exact ⟨0, by simp [magnitude]⟩
  | infinity negative => exact ⟨0, by simp [magnitude]⟩
  | finite negative m e h =>
    have hshift := natCast_mul_zpow Nat.one_lt_two m h.2.1
    rw [Nat.cast_ofNat] at hshift
    exact ⟨_, hshift⟩

/-! ## Where the unit is the least -/

section Small

variable {x : Rat}

theorem lastExponent_of_small (hx : 0 < x) (hsmall : x < (2 : Rat) ^ (-1022 : Int)) :
    lastExponent 2 53 (-1074) x = -1074 := by
  have hlog := (Int.lt_zpow_iff_log_lt (b := 2) Nat.one_lt_two hx).mp (by exact_mod_cast hsmall)
  rw [lastExponent_eq_log Nat.one_lt_two hx]
  omega

theorem two_zpow_eq_double : (2 : Rat) ^ (-1074 : Int) = 2 * (2 : Rat) ^ (-1075 : Int) := by
  rw [show (-1074 : Int) = 1 + -1075 by norm_num, zpow_add₀ two_ne_zero, zpow_one]

theorem half_unit : ((2 : Nat) : Rat) ^ (-1074 : Int) / 2 = (2 : Rat) ^ (-1075 : Int) := by
  rw [Nat.cast_ofNat, two_zpow_eq_double]
  ring

theorem abs_nearest_sub_le_of_small (hx : 0 < x) (hsmall : x < (2 : Rat) ^ (-1022 : Int)) :
    |nearest x - x| ≤ (2 : Rat) ^ (-1075 : Int) := by
  have herror := abs_roundDigits_sub_le .toEven (b := 2) (p := 53) (l := -1074) Nat.one_lt_two hx.le
  rwa [lastExponent_of_small hx hsmall, half_unit] at herror

/-- A multiple of the least value that is less than half of it away is the nearest value. -/
theorem nearest_eq_of_small (hx : 0 < x) (hsmall : x < (2 : Rat) ^ (-1022 : Int)) {n : Nat}
    (hclose : |x - n * (2 : Rat) ^ (-1074 : Int)| < (2 : Rat) ^ (-1075 : Int)) :
    nearest x = n * (2 : Rat) ^ (-1074 : Int) := by
  have hlast := lastExponent_of_small hx hsmall
  have hround := roundDigits_eq_of_close .toEven (b := 2) (p := 53) (l := -1074) (n := n)
    (k := -1074) Nat.one_lt_two hx.le hlast.le
  rw [hlast, half_unit, Nat.cast_ofNat] at hround
  exact hround hclose

end Small

/-! ## The border -/

/-- Fractions with powers for denominators are compared as natural numbers. -/
theorem mul_zpow_neg_lt_iff {a b : Nat} (ha : 0 < a) (hb : 0 < b) (m n j k : Nat) :
    (m : Rat) * (a : Rat) ^ (-(j : Int)) < n * (b : Rat) ^ (-(k : Int)) ↔
      m * b ^ k < n * a ^ j := by
  have hpa : (0 : Rat) < (a : Rat) ^ j := pow_pos (Nat.cast_pos.mpr ha) j
  have hpb : (0 : Rat) < (b : Rat) ^ k := pow_pos (Nat.cast_pos.mpr hb) k
  rw [zpow_neg, zpow_neg, zpow_natCast, zpow_natCast, ← div_eq_mul_inv, ← div_eq_mul_inv,
    div_lt_div_iff₀ hpa hpb]
  exact_mod_cast Iff.rfl

/-- **The place of the border** on the grid of the smaller values, in halves of its unit. -/
theorem border_bounds :
    4048045 * (2 : Rat) ^ (-1075 : Int) < (10 : Rat) ^ (-317 : Int) ∧
      (10 : Rat) ^ (-317 : Int) < 4048046 * (2 : Rat) ^ (-1075 : Int) := by
  have hplace : 4048045 * 10 ^ 317 < 1 * 2 ^ 1075 ∧ 1 * 2 ^ 1075 < 4048046 * 10 ^ 317 := by
    decide +kernel
  have hlower := (mul_zpow_neg_lt_iff (a := 2) (b := 10) (by simp) (by simp) 4048045 1 1075 317).mpr
    hplace.1
  have hupper := (mul_zpow_neg_lt_iff (a := 10) (b := 2) (by simp) (by simp) 1 4048046 317 1075).mpr
    hplace.2
  exact ⟨by simpa using hlower, by simpa using hupper⟩

theorem ten_zpow_border_lt : (10 : Rat) ^ (-317 : Int) < (2 : Rat) ^ (-1022 : Int) := by
  have hunit : (0 : Rat) < (2 : Rat) ^ (-1075 : Int) := zpow_pos two_pos _
  rw [show (-1022 : Int) = 53 + -1075 by norm_num, zpow_add₀ two_ne_zero]
  apply border_bounds.2.trans (mul_lt_mul_of_pos_right _ hunit)
  norm_num

/-- One unit of seven digits below the border is less than the least value. -/
theorem ten_zpow_lt_two_zpow : (10 : Rat) ^ (-324 : Int) < (2 : Rat) ^ (-1074 : Int) := by
  have hborder := border_bounds.2
  have hunit : (0 : Rat) < (2 : Rat) ^ (-1075 : Int) := zpow_pos two_pos _
  rw [show (-317 : Int) = 7 + -324 by norm_num, zpow_add₀ (by simp)] at hborder
  rw [two_zpow_eq_double]
  linarith

/-- One unit above the border is more. -/
theorem two_zpow_lt_ten_zpow : (2 : Rat) ^ (-1074 : Int) < (10 : Rat) ^ (-323 : Int) := by
  have hborder := border_bounds.1
  have hunit : (0 : Rat) < (2 : Rat) ^ (-1075 : Int) := zpow_pos two_pos _
  rw [show (-317 : Int) = 6 + -323 by norm_num, zpow_add₀ (by simp)] at hborder
  rw [two_zpow_eq_double]
  linarith

/-- The value nearest to the border is above it. -/
theorem ten_zpow_le_nearest : (10 : Rat) ^ (-317 : Int) ≤ nearest ((10 : Rat) ^ (-317 : Int)) := by
  obtain ⟨hlower, hupper⟩ := border_bounds
  have hnearest : nearest ((10 : Rat) ^ (-317 : Int)) =
      (2024023 : Nat) * (2 : Rat) ^ (-1074 : Int) := by
    apply nearest_eq_of_small (zpow_pos (by simp) _) ten_zpow_border_lt
    rw [two_zpow_eq_double, abs_lt, Nat.cast_ofNat]
    constructor <;> linarith
  rw [hnearest, two_zpow_eq_double, Nat.cast_ofNat]
  linarith

/-! ## Seven digits -/

section SevenDigits

variable (tie : Tie) {n : Nat} {k l : Int}

/-- Below the border, the decimals lie closer together than the values. -/
theorem roundDigits_nearest_of_lt_border (v : Binary64) (hl : l ≤ -324)
    (hround : roundDigits tie 10 7 l v.magnitude = n * (10 : Rat) ^ k)
    (hpos : 0 < n * (10 : Rat) ^ k) (hlt : n * (10 : Rat) ^ k < (10 : Rat) ^ (-317 : Int)) :
    roundDigits tie 10 7 l (nearest (n * (10 : Rat) ^ k)) = n * (10 : Rat) ^ k := by
  obtain ⟨m, hm⟩ := exists_magnitude_eq v
  have hvpos : 0 < v.magnitude := by
    refine v.magnitude_nonneg.lt_of_ne ?_
    intro hzero
    rw [← hzero, roundDigits_zero] at hround
    exact absurd hround hpos.ne
  have hvlt : v.magnitude < (10 : Rat) ^ (-317 : Int) := by
    by_contra hge
    have hle := le_roundDigits_of_le tie (b := 10) (p := 7) (l := l) (n := 1) (k := -317)
      (x := v.magnitude) (by simp) (by simp) (by simp) (by omega) (by simpa using hge)
    rw [hround] at hle
    exact absurd hlt (not_lt.mpr (by simpa using hle))
  have hlast : lastExponent 10 7 l v.magnitude ≤ -324 :=
    lastExponent_le_of_lt (by simp) hvpos hl (by simpa using hvlt)
  -- So the decimal is nearer to its value than half the distance of two values.
  have herror := abs_roundDigits_sub_le tie (b := 10) (p := 7) (l := l) (by simp) hvpos.le
  have hunit := zpow_le_zpow_of_le (show 1 < 10 by simp) hlast
  have hnearest : nearest (n * (10 : Rat) ^ k) = v.magnitude := by
    rw [hm]
    apply nearest_eq_of_small hpos (hlt.trans ten_zpow_border_lt)
    rw [← hm, ← hround]
    have hgrid := ten_zpow_lt_two_zpow
    rw [two_zpow_eq_double] at hgrid
    rw [Nat.cast_ofNat] at herror hunit
    linarith
  rw [hnearest, hround]

/-- Above it, they lie further apart. -/
theorem roundDigits_nearest_of_border_le (hk : l ≤ k) (hfits : n < 10 ^ 7)
    (hge : (10 : Rat) ^ (-317 : Int) ≤ n * (10 : Rat) ^ k)
    (hsmall : n * (10 : Rat) ^ k < (2 : Rat) ^ (-1022 : Int)) :
    roundDigits tie 10 7 l (nearest (n * (10 : Rat) ^ k)) = n * (10 : Rat) ^ k := by
  have hborder : (0 : Rat) < (10 : Rat) ^ (-317 : Int) := zpow_pos (by simp) _
  have hpos : 0 < n * (10 : Rat) ^ k := hborder.trans_le hge
  have hwge : (10 : Rat) ^ (-317 : Int) ≤ nearest (n * (10 : Rat) ^ k) :=
    ten_zpow_le_nearest.trans (nearest_mono hborder.le hge)
  have herror := abs_nearest_sub_le_of_small hpos hsmall
  have hhalf : (0 : Rat) < (2 : Rat) ^ (-1075 : Int) := zpow_pos two_pos _
  have hgrid := two_zpow_lt_ten_zpow
  rw [two_zpow_eq_double] at hgrid
  have hgap := mul_zpow_add_zpow_le (b := 10) (p := 7) (by simp) hfits k
  have hkge : -323 ≤ k := by
    have hlt : (10 : Rat) ^ (-317 : Int) < (10 : Rat) ^ (7 + k) := by
      refine hge.trans_lt (lt_of_lt_of_le ?_ hgap)
      simpa using zpow_pos (show (0 : Rat) < 10 by simp) k
    have := (zpow_lt_zpow_iff_right₀ (show (1 : Rat) < 10 by simp)).mp hlt
    omega
  have hunit := zpow_le_zpow_of_le (show 1 < 10 by simp) hkge
  generalize nearest (n * (10 : Rat) ^ k) = w at hwge herror ⊢
  have hwpos : 0 < w := hborder.trans_le hwge
  have hlog : -317 ≤ Int.log 10 w :=
    (Int.zpow_le_iff_le_log (by simp) hwpos).mp (by exact_mod_cast hwge)
  have hlast : -323 ≤ lastExponent 10 7 l w := by
    rw [lastExponent_eq_log (by simp) hwpos]
    omega
  have hwunit := zpow_le_zpow_of_le (show 1 < 10 by simp) hlast
  rw [Nat.cast_ofNat] at hgap hunit hwunit
  have hround := roundDigits_eq_of_close tie (b := 10) (p := 7) (l := l) (n := n) (k := k)
    (by simp) hwpos.le
  rw [Nat.cast_ofNat] at hround
  apply hround
  · apply lastExponent_le_of_lt (by simp) hwpos hk
    have hle := (le_abs_self _).trans herror
    rw [Nat.cast_ofNat]
    refine lt_of_lt_of_le ?_ hgap
    linarith
  · rw [abs_sub_comm] at herror
    rw [abs_sub_comm]
    linarith

/-- **Seven digits of a value survive**, whatever its size. -/
theorem roundDigits_nearest_roundDigits (v : Binary64) (hl : l ≤ -324) (hk : l ≤ k)
    (hfits : n < 10 ^ 7) (hround : roundDigits tie 10 7 l v.magnitude = n * (10 : Rat) ^ k) :
    roundDigits tie 10 7 l (nearest (n * (10 : Rat) ^ k)) = n * (10 : Rat) ^ k := by
  rcases Nat.eq_zero_or_pos n with rfl | hn
  · rw [Nat.cast_zero, zero_mul, nearest_zero, roundDigits_zero]
  · have hpos : 0 < n * (10 : Rat) ^ k := mul_pos (by exact_mod_cast hn) (zpow_pos (by simp) k)
    by_cases hnormal : (2 : Rat) ^ (-1022 : Int) ≤ n * (10 : Rat) ^ k
    · exact roundDigits_nearest tie (by simp) hfits hk hnormal
    · by_cases hborder : (10 : Rat) ^ (-317 : Int) ≤ n * (10 : Rat) ^ k
      · exact roundDigits_nearest_of_border_le tie hk hfits hborder (not_le.mp hnormal)
      · exact roundDigits_nearest_of_lt_border tie v hl hround hpos (not_le.mp hborder)

end SevenDigits

/-! ## The largest -/

/-- **The place of the greatest magnitude** among the decimals of seven digits. -/
theorem greatest_bounds : 1797693 * (10 : Rat) ^ (302 : Int) ≤ greatest ∧
    greatest < 1797693 * (10 : Rat) ^ (302 : Int) + (10 : Rat) ^ (302 : Int) / 2 := by
  have hplace : 1797693 * 10 ^ 302 ≤ 9007199254740991 * 2 ^ 971 ∧
      2 * (9007199254740991 * 2 ^ 971) < 2 * (1797693 * 10 ^ 302) + 10 ^ 302 := by
    decide +kernel
  have hlower : 1797693 * (10 : Rat) ^ (302 : Int) ≤ greatest := by
    rw [greatest_eq_natCast]
    exact_mod_cast hplace.1
  have hupper : 2 * greatest <
      2 * (1797693 * (10 : Rat) ^ (302 : Int)) + (10 : Rat) ^ (302 : Int) := by
    rw [greatest_eq_natCast]
    exact_mod_cast hplace.2
  exact ⟨hlower, by linarith⟩

theorem log_greatest : Int.log 10 greatest = 308 := by
  obtain ⟨hlower, hupper⟩ := greatest_bounds
  have hunit : (0 : Rat) < (10 : Rat) ^ (302 : Int) := zpow_pos (by simp) _
  have hge : ((10 : Nat) : Rat) ^ (308 : Int) ≤ greatest := by
    rw [show (308 : Int) = 6 + 302 by norm_num, Nat.cast_ofNat, zpow_add₀ (by simp)]
    generalize (10 : Rat) ^ (302 : Int) = unit at hlower hunit ⊢
    linarith only [hlower, hunit]
  have hlt : greatest < ((10 : Nat) : Rat) ^ (309 : Int) := by
    rw [show (309 : Int) = 7 + 302 by norm_num, Nat.cast_ofNat, zpow_add₀ (by simp)]
    generalize (10 : Rat) ^ (302 : Int) = unit at hupper hunit ⊢
    linarith only [hupper, hunit]
  exact log_eq_of_bounds Nat.one_lt_ofNat greatest_pos hge hlt

theorem roundDigits_greatest (tie : Tie) {l : Int} (hl : l ≤ 302) :
    roundDigits tie 10 7 l greatest = 1797693 * (10 : Rat) ^ (302 : Int) := by
  obtain ⟨hlower, hupper⟩ := greatest_bounds
  have hlast : lastExponent 10 7 l greatest = 302 := by
    rw [lastExponent_eq_log (by simp) greatest_pos, log_greatest]
    omega
  have hround := roundDigits_eq_of_close tie (b := 10) (p := 7) (l := l) (n := 1797693) (k := 302)
    (by simp) greatest_pos.le hlast.le
  simp only [hlast, Nat.cast_ofNat] at hround
  apply hround
  rw [abs_of_nonneg (sub_nonneg.mpr hlower)]
  generalize (10 : Rat) ^ (302 : Int) = unit at hupper ⊢
  linarith

/-- **Seven digits of a value do not lead out of range.** -/
theorem roundDigits_le_greatest (tie : Tie) (v : Binary64) {l : Int} (hl : l ≤ 302) :
    roundDigits tie 10 7 l v.magnitude ≤ greatest := by
  have hmono := roundDigits_mono tie (b := 10) (p := 7) (l := l) (by simp) (by simp)
    v.magnitude_nonneg v.magnitude_le_greatest
  rw [roundDigits_greatest tie hl] at hmono
  exact hmono.trans greatest_bounds.1

end Reckoner.Binary64
