import Reckoner.Binary64.Decimal
import Reckoner.Proofs.Binary64.Nearest
import Reckoner.Proofs.Decimal.Significant
/-!
# `Reckoner/Proofs/Binary64/Decimal.lean` — decimals on their way through binary

From binary to decimal nothing is lost (`magnitude_toDecimal`). The other way, a decimal becomes the
nearest value, however large or small it is (`ofDecimal_eq_ofRat`), and then

> **fifteen digits survive** (`roundDigits_nearest`): rounded back to fifteen digits, the value
> nearest to a decimal of at most fifteen digits is that decimal.

Very small numbers are excepted, which have fewer than 53 bits.
-/

set_option autoImplicit false

namespace Reckoner.Binary64

/-! ## To decimal -/

theorem negative_toDecimal (v : Binary64) : v.toDecimal.negative = v.isNegative := by
  cases v with
  | nan => rfl
  | infinity negative => rfl
  | finite negative m e h =>
    rw [toDecimal]
    split <;> rfl

theorem two_zpow_neg_eq {e : Int} (he : e < 0) :
    (2 : Rat) ^ e = (5 : Rat) ^ e.natAbs * (10 : Rat) ^ e := by
  obtain ⟨k, rfl⟩ : ∃ k : Nat, e = -k := ⟨e.natAbs, by omega⟩
  rw [Int.natAbs_neg, Int.natAbs_natCast, zpow_neg, zpow_neg, zpow_natCast, zpow_natCast,
    show (10 : Rat) = 5 * 2 by norm_num, mul_pow, mul_inv, ← mul_assoc,
    mul_inv_cancel₀ (pow_ne_zero k (by norm_num)), one_mul]

/-- **A finite value is a decimal.** -/
theorem magnitude_toDecimal (v : Binary64) : v.toDecimal.magnitude = v.magnitude := by
  cases v with
  | nan => exact Decimal.magnitude_eq_zero rfl
  | infinity negative => exact Decimal.magnitude_eq_zero rfl
  | finite negative m e h =>
    rw [toDecimal]
    split
    · next he =>
      obtain ⟨k, rfl⟩ : ∃ k : Nat, e = k := ⟨e.toNat, (Int.toNat_of_nonneg he).symm⟩
      show ((m * Nat.pow 2 (k : Int).toNat : Nat) : Rat) * (10 : Rat) ^ (0 : Int) =
        m * (2 : Rat) ^ (k : Int)
      rw [zpow_zero, mul_one, Int.toNat_natCast, zpow_natCast]
      exact_mod_cast rfl
    · next he =>
      show ((m * Nat.pow 5 e.natAbs : Nat) : Rat) * (10 : Rat) ^ e = m * (2 : Rat) ^ e
      rw [two_zpow_neg_eq (not_le.mp he), ← mul_assoc]
      exact_mod_cast rfl

/-! ## From decimal -/

theorem ofRat_of_large (negative : Bool) {x : Rat} (hx : (2 : Rat) ^ (1024 : Int) ≤ x) :
    ofRat negative x = .infinity negative := by
  have hpos : 0 ≤ x := (zpow_pos two_pos _).le.trans hx
  have hpower : (2 : Rat) ^ (1024 : Int) = (1 : Nat) * (2 : Rat) ^ (1024 : Int) := by
    rw [Nat.cast_one, one_mul]
  have hge : (2 : Rat) ^ (1024 : Int) ≤ nearest x := by
    rw [hpower] at hx ⊢
    exact le_nearest_of_le hx (by simp) (by simp)
  rcases ofRat_cases negative hpos with ⟨hlt, -⟩ | ⟨-, heq⟩
  · exact absurd hlt (not_lt.mpr hge)
  · exact heq

theorem nearest_of_small {x : Rat} (hx : 0 ≤ x) (hsmall : x < (2 : Rat) ^ (-1075 : Int)) :
    nearest x = 0 := by
  rcases hx.eq_or_lt with rfl | hpos
  · exact nearest_zero
  · have hlog := (Int.lt_zpow_iff_log_lt Nat.one_lt_two hpos).mp (by exact_mod_cast hsmall)
    have hlast : lastExponent 2 53 (-1074) x = -1074 := by
      rw [lastExponent_eq_log Nat.one_lt_two hpos]
      omega
    have hround : roundNat .toEven (x / (2 : Rat) ^ (-1074 : Int)) = 0 := by
      have hunit := zpow_pos (two_pos : (0 : Rat) < 2) (-1074)
      refine roundNat_eq_of_abs_sub_lt _ (div_pos hpos hunit).le ?_
      rw [Nat.cast_zero, sub_zero, abs_of_pos (div_pos hpos hunit), div_lt_iff₀ hunit]
      refine hsmall.trans_eq ?_
      rw [show (-1075 : Int) = -1 + -1074 by norm_num, zpow_add₀ two_ne_zero]
      norm_num
    rw [nearest, roundDigits, hlast, Nat.cast_ofNat, hround, Nat.cast_zero, zero_mul]

theorem ofRat_of_small (negative : Bool) {x : Rat} (hx : 0 ≤ x)
    (hsmall : x < (2 : Rat) ^ (-1075 : Int)) : ofRat negative x = zero negative := by
  have hzero := nearest_of_small hx hsmall
  rcases ofRat_cases negative hx with ⟨-, m, e, h, heq, hvalue⟩ | ⟨hge, -⟩
  · rw [hzero, mul_eq_zero_iff_right (zpow_pos two_pos e).ne', Nat.cast_eq_zero] at hvalue
    subst hvalue
    obtain rfl : e = -1074 := h.2.2.2.resolve_left (by simp)
    exact heq
  · rw [hzero] at hge
    exact absurd hge (not_le.mpr (zpow_pos two_pos _))

/-- Powers of two below powers of ten, at both ends of the range. -/
theorem two_pow_le_ten_pow : (2 : Nat) ^ 1024 ≤ 10 ^ 309 ∧ (2 : Nat) ^ 1075 ≤ 10 ^ 324 := by
  decide +kernel

theorem two_zpow_le_ten_zpow : (2 : Rat) ^ (1024 : Int) ≤ (10 : Rat) ^ (309 : Int) := by
  exact_mod_cast two_pow_le_ten_pow.1

theorem ten_zpow_le_two_zpow : (10 : Rat) ^ (-324 : Int) ≤ (2 : Rat) ^ (-1075 : Int) := by
  rw [zpow_neg, zpow_neg, inv_le_inv₀ (zpow_pos (by norm_num) _) (zpow_pos (by norm_num) _)]
  exact_mod_cast two_pow_le_ten_pow.2

/-- **A decimal becomes the nearest value**, whatever its size: the cases that are told by the place
of the leading digit are what rounding gives. -/
theorem ofDecimal_eq_ofRat (d : Decimal) : ofDecimal d = ofRat d.negative d.magnitude := by
  unfold ofDecimal
  split
  · next hzero => rw [Decimal.magnitude_eq_zero hzero, ofRat, if_pos le_rfl]
  · next hne =>
    have hpos := Decimal.magnitude_pos hne
    have hlog := Decimal.leadingExponent_eq_log hne
    split
    · next hlarge =>
      have hle := (Int.zpow_le_iff_le_log (b := 10) (x := 309) Nat.one_lt_ofNat hpos).mpr (by omega)
      exact (ofRat_of_large _ (two_zpow_le_ten_zpow.trans (by exact_mod_cast hle))).symm
    · split
      · next hsmall =>
        have hlt := (Int.lt_zpow_iff_log_lt (b := 10) (x := -324) Nat.one_lt_ofNat hpos).mpr (by omega)
        exact (ofRat_of_small _ hpos.le
          (lt_of_lt_of_le (by exact_mod_cast hlt) ten_zpow_le_two_zpow)).symm
      · rfl

/-! ## And back -/

/-- **Fifteen digits survive**, and so do fewer. -/
theorem roundDigits_nearest (tie : Tie) {n p : Nat} (hp : p ≤ 15) (hfits : n < 10 ^ p)
    {k least : Int} (hk : least ≤ k) (hnormal : (2 : Rat) ^ (-1022 : Int) ≤ n * (10 : Rat) ^ k) :
    roundDigits tie 10 p least (nearest (n * (10 : Rat) ^ k)) = n * (10 : Rat) ^ k := by
  have herror := abs_nearest_sub_le hnormal
  have hpos : 0 < nearest (n * (10 : Rat) ^ k) := by
    have hle := le_nearest_of_le (n := 1) (k := -1022) (x := n * (10 : Rat) ^ k)
      (by rwa [Nat.cast_one, one_mul]) (by simp) (by simp)
    rw [Nat.cast_one, one_mul] at hle
    exact (zpow_pos two_pos _).trans_le hle
  have hpow : ((10 : Nat) : Rat) ^ p ≤ 10 ^ 15 := by
    rw [Nat.cast_ofNat]
    exact pow_le_pow_right₀ (by norm_num) hp
  have hnear : 2 * ((10 : Nat) : Rat) ^ p * |nearest (n * (10 : Rat) ^ k) -
      n * ((10 : Nat) : Rat) ^ k| < nearest (n * (10 : Rat) ^ k) := by
    rw [Nat.cast_ofNat] at hpow ⊢
    generalize nearest (n * (10 : Rat) ^ k) = x at herror hpos ⊢
    calc 2 * (10 : Rat) ^ p * |x - n * (10 : Rat) ^ k|
        ≤ 2 * (10 : Rat) ^ 15 * |x - n * (10 : Rat) ^ k| :=
          mul_le_mul_of_nonneg_right (by linarith) (abs_nonneg _)
      _ ≤ 2 * (10 : Rat) ^ 15 * (x * (2 : Rat) ^ (-53 : Int)) :=
          mul_le_mul_of_nonneg_left herror (by norm_num)
      _ = 2 * (10 : Rat) ^ 15 * (2 : Rat) ^ (-53 : Int) * x := by ring
      _ < 1 * x := mul_lt_mul_of_pos_right (by norm_num) hpos
      _ = x := one_mul x
  exact_mod_cast roundDigits_eq_of_near tie (b := 10) Nat.one_lt_ofNat hfits hk hpos hnear

end Reckoner.Binary64
