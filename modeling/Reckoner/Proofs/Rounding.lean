import Mathlib.Algebra.Order.Field.Power
import Mathlib.Data.Int.Log
import Mathlib.Data.Rat.Floor
import Mathlib.Tactic.Linarith
import Mathlib.Tactic.Positivity
import Mathlib.Tactic.Ring
import Reckoner.Rounding
/-!
# `Reckoner/Proofs/Rounding.lean` — rounding to so many digits

The two functions that all rounding comes down to, and what they make together: a magnitude rounded
to so many significant digits of a base (`roundDigits`). Binary values and shown decimals are both
made that way, so the facts about them that matter are proved here once.

> **Rounding keeps the order and fixes what fits.** It is monotone (`roundDigits_mono`), and a number
> that has no more digits than are kept is its own rounding (`roundDigits_mul_zpow`).

Together the two say that rounding never crosses a number that fits. How far it goes is
`abs_roundDigits_sub_le`; and a number that fits is found again from anything near enough to it
(`roundDigits_eq_of_near`), which is why decimals survive the way through binary.

## What is not here

The digit below which nothing is kept is a parameter of its own. Binary values have one; decimals
have none, and take any that is low enough.
-/

set_option autoImplicit false

namespace Reckoner

/-! ## Powers of the base -/

theorem natCast_pos_of_one_lt {base : Nat} (hb : 1 < base) : (0 : Rat) < base :=
  Nat.cast_pos.mpr (Nat.zero_lt_of_lt hb)

theorem pow_mul_zpow {base : Nat} (hb : 1 < base) (n : Nat) (k : Int) :
    (base : Rat) ^ n * (base : Rat) ^ k = (base : Rat) ^ (n + k) := by
  rw [zpow_add₀ (natCast_pos_of_one_lt hb).ne', zpow_natCast]

theorem zpow_le_zpow_of_le {base : Nat} (hb : 1 < base) {j k : Int} (hjk : j ≤ k) :
    (base : Rat) ^ j ≤ (base : Rat) ^ k :=
  zpow_le_zpow_right₀ (Nat.one_le_cast.mpr hb.le) hjk

/-- A natural multiple of a power is one of each lower power. -/
theorem natCast_mul_zpow {base : Nat} (hb : 1 < base) (n : Nat) {j k : Int} (hjk : j ≤ k) :
    (n : Rat) * (base : Rat) ^ k = (n * base ^ (k - j).toNat : Nat) * (base : Rat) ^ j := by
  rw [Nat.cast_mul, Nat.cast_pow, mul_assoc, pow_mul_zpow hb, Int.toNat_of_nonneg (by omega)]
  congr 2
  omega

/-! ## The place of the leading digit -/

/-- A logarithm is determined by the powers on both sides. -/
theorem log_eq_of_bounds {base : Nat} (hb : 1 < base) {x : Rat} (hx : 0 < x) {k : Int}
    (hlower : (base : Rat) ^ k ≤ x) (hupper : x < (base : Rat) ^ (k + 1)) :
    Int.log base x = k := by
  have hle := (Int.zpow_le_iff_le_log hb hx).mp hlower
  have hlt := (Int.lt_zpow_iff_log_lt hb hx).mp hupper
  omega

theorem length_toDigits_eq_log {base : Nat} (hb : 1 < base) (n : Nat) :
    (Nat.toDigits base n).length = Nat.log base n + 1 := by
  -- The length is the least positive `k` with `n < base ^ k`, and so is the other side.
  have hle : ∀ k, (Nat.toDigits base n).length ≤ k + 1 ↔ Nat.log base n + 1 ≤ k + 1 := by
    intro k
    rw [Nat.length_toDigits_le_iff hb (Nat.succ_pos k), Nat.succ_le_iff]
    exact ⟨Nat.log_lt_of_lt_pow' (Nat.succ_ne_zero k), Nat.lt_pow_of_log_lt hb⟩
  have hpos : 0 < (Nat.toDigits base n).length := Nat.length_toDigits_pos
  refine Nat.le_antisymm ((hle _).mpr (Nat.le_refl _)) ?_
  have hlen := hle ((Nat.toDigits base n).length - 1)
  rw [Nat.sub_add_cancel hpos] at hlen
  exact hlen.mp (Nat.le_refl _)

theorem numeralLength_eq_log {base : Nat} (hb : 1 < base) (n : Nat) :
    numeralLength base n = Nat.log base n + 1 := by
  unfold numeralLength
  split
  · next htwo => rw [htwo, Nat.log2_eq_log_two]
  · exact length_toDigits_eq_log hb n

theorem zpow_log_le_natCast (base : Nat) {n : Nat} (hn : n ≠ 0) :
    (base : Rat) ^ (Nat.log base n : Int) ≤ n := by
  rw [zpow_natCast]
  exact_mod_cast Nat.pow_log_le_self base hn

theorem natCast_lt_zpow_log {base : Nat} (hb : 1 < base) (n : Nat) :
    (n : Rat) < (base : Rat) ^ ((Nat.log base n : Int) + 1) := by
  rw [← Nat.cast_succ, zpow_natCast]
  exact_mod_cast Nat.lt_pow_succ_log_self hb n

/-- A quotient lies between the two powers next to that of the difference of the logarithms. -/
theorem zpow_log_sub_log_bounds {base : Nat} (hb : 1 < base) {x : Rat} (hx : 0 < x) :
    (base : Rat) ^ ((Nat.log base x.num.natAbs : Int) - Nat.log base x.den - 1) < x ∧
      x < (base : Rat) ^ ((Nat.log base x.num.natAbs : Int) - Nat.log base x.den + 1) := by
  have hb0 : (0 : Rat) < base := natCast_pos_of_one_lt hb
  have hnum : x.num.natAbs ≠ 0 := Int.natAbs_ne_zero.mpr (Rat.num_pos.mpr hx).ne'
  have hden : (0 : Rat) < x.den := by exact_mod_cast x.den_pos
  have hxeq : x * x.den = x.num.natAbs := by
    rw [Rat.mul_den_eq_num, ← Int.cast_natCast, Int.natAbs_of_nonneg (Rat.num_pos.mpr hx).le]
  have hnle := zpow_log_le_natCast base hnum
  have hnlt := natCast_lt_zpow_log hb x.num.natAbs
  have hdle := zpow_log_le_natCast base x.den_pos.ne'
  have hdlt := natCast_lt_zpow_log hb x.den
  generalize (Nat.log base x.num.natAbs : Int) = a at hnle hnlt ⊢
  generalize (Nat.log base x.den : Int) = c at hdle hdlt ⊢
  constructor
  · refine lt_of_mul_lt_mul_right ?_ hden.le
    calc (base : Rat) ^ (a - c - 1) * x.den
        < (base : Rat) ^ (a - c - 1) * (base : Rat) ^ (c + 1) :=
          mul_lt_mul_of_pos_left hdlt (zpow_pos hb0 _)
      _ = (base : Rat) ^ a := by
          rw [← zpow_add₀ hb0.ne']
          congr 1
          omega
      _ ≤ x * x.den := hxeq ▸ hnle
  · refine lt_of_mul_lt_mul_right ?_ hden.le
    calc x * x.den
        < (base : Rat) ^ (a + 1) := hxeq ▸ hnlt
      _ = (base : Rat) ^ (a - c + 1) * (base : Rat) ^ c := by
          rw [← zpow_add₀ hb0.ne']
          congr 1
          omega
      _ ≤ (base : Rat) ^ (a - c + 1) * x.den :=
          mul_le_mul_of_nonneg_left hdle (zpow_pos hb0 _).le

/-- **The measure of size is the floor of the logarithm.** -/
theorem floorLog_eq_log {base : Nat} (hb : 1 < base) {x : Rat} (hx : 0 < x) :
    floorLog base x = Int.log base x := by
  obtain ⟨hlower, hupper⟩ := zpow_log_sub_log_bounds hb hx
  have hle := (Int.zpow_le_iff_le_log hb hx).mp hlower.le
  have hlt := (Int.lt_zpow_iff_log_lt hb hx).mp hupper
  unfold floorLog
  simp only [numeralLength_eq_log hb]
  generalize Nat.log base x.num.natAbs = a at hle hlt ⊢
  generalize Nat.log base x.den = c at hle hlt ⊢
  rw [show ((a + 1 : Nat) : Int) - ((c + 1 : Nat) : Int) = (a : Int) - c by omega]
  split
  · next h =>
    have := (Int.lt_zpow_iff_log_lt hb hx).mp h
    omega
  · next h =>
    have := (Int.zpow_le_iff_le_log hb hx).mp (not_lt.mp h)
    omega

/-! ## The nearest natural number -/

/-- The nearest natural number is one of two neighbours, and no further away than a half. -/
theorem roundNat_cases (tie : Tie) (x : Rat) :
    (roundNat tie x = ⌊x⌋₊ ∧ x - ⌊x⌋₊ ≤ 1 / 2) ∨
      (roundNat tie x = ⌊x⌋₊ + 1 ∧ 1 / 2 ≤ x - ⌊x⌋₊) := by
  have hfloor : x.floor.toNat = ⌊x⌋₊ := rfl
  unfold roundNat
  simp only [hfloor]
  split
  · next hlt => exact .inl ⟨rfl, hlt.le⟩
  · next hlt =>
    split
    · next hgt => exact .inr ⟨rfl, hgt.le⟩
    · next hgt =>
      have heq : x - ⌊x⌋₊ = 1 / 2 := le_antisymm (not_lt.mp hgt) (not_lt.mp hlt)
      cases tie with
      | awayFromZero => exact .inr ⟨rfl, heq.ge⟩
      | toEven =>
        simp only
        split
        · exact .inl ⟨rfl, heq.le⟩
        · exact .inr ⟨rfl, heq.ge⟩

theorem abs_roundNat_sub_le (tie : Tie) {x : Rat} (hx : 0 ≤ x) :
    |(roundNat tie x : Rat) - x| ≤ 1 / 2 := by
  have hle := Nat.floor_le hx
  have hlt := Nat.lt_floor_add_one x
  rcases roundNat_cases tie x with ⟨h, hh⟩ | ⟨h, hh⟩
  · rw [h, abs_le]
    constructor <;> linarith
  · rw [h, Nat.cast_add, Nat.cast_one, abs_le]
    constructor <;> linarith

theorem roundNat_eq_of_abs_sub_lt (tie : Tie) {x : Rat} (hx : 0 ≤ x) {n : Nat}
    (h : |x - n| < 1 / 2) : roundNat tie x = n := by
  have hround := abs_roundNat_sub_le tie hx
  have hdist : |((roundNat tie x : Int) - n : Rat)| < 1 := by
    calc |((roundNat tie x : Int) - n : Rat)|
        = |((roundNat tie x : Rat) - x) + (x - n)| := by
          congr 1
          push_cast
          ring
      _ ≤ |(roundNat tie x : Rat) - x| + |x - n| := abs_add_le _ _
      _ < 1 := by linarith
  have hzero : |(roundNat tie x : Int) - n| < 1 := by exact_mod_cast hdist
  have := Int.abs_lt_one_iff.mp hzero
  omega

theorem roundNat_natCast (tie : Tie) (n : Nat) : roundNat tie (n : Rat) = n :=
  roundNat_eq_of_abs_sub_lt tie (Nat.cast_nonneg n) (by simp)

theorem roundNat_zero (tie : Tie) : roundNat tie 0 = 0 := by
  exact_mod_cast roundNat_natCast tie 0

theorem roundNat_mono (tie : Tie) {x y : Rat} (hxy : x ≤ y) :
    roundNat tie x ≤ roundNat tie y := by
  have hfloor : ⌊x⌋₊ ≤ ⌊y⌋₊ := Nat.floor_le_floor hxy
  rcases roundNat_cases tie x with ⟨hx, -⟩ | ⟨hx, hge⟩
  · rcases roundNat_cases tie y with ⟨hy, -⟩ | ⟨hy, -⟩ <;> omega
  rcases roundNat_cases tie y with ⟨hy, hle⟩ | ⟨hy, -⟩
  · rcases Nat.lt_or_eq_of_le hfloor with hlt | heq
    · omega
    · -- Both are halfway between the same neighbours.
      have hsame : x = y := by
        rw [heq] at hge
        linarith
      rw [hsame]
  · omega

theorem natCast_le_roundNat (tie : Tie) {x : Rat} {n : Nat} (h : (n : Rat) ≤ x) :
    n ≤ roundNat tie x := by
  have hmono := roundNat_mono tie h
  rwa [roundNat_natCast] at hmono

theorem roundNat_le_natCast (tie : Tie) {x : Rat} {n : Nat} (h : x ≤ n) :
    roundNat tie x ≤ n := by
  have hmono := roundNat_mono tie h
  rwa [roundNat_natCast] at hmono

/-! ## Significant digits -/

section Significant

-- The base, the number of digits, and the least exponent.
variable (tie : Tie) (b p : Nat) (l : Int)

/-- The exponent of the last of `p` digits of a magnitude, or the least one that is kept. -/
def lastExponent (x : Rat) : Int := max (floorLog b x + 1 - p) l

/-- The magnitude rounded to `p` digits. -/
def roundDigits (x : Rat) : Rat :=
  roundNat tie (x / (b : Rat) ^ lastExponent b p l x) *
    (b : Rat) ^ lastExponent b p l x

variable {b p l}

theorem lastExponent_eq_log (hb : 1 < b) {x : Rat} (hx : 0 < x) :
    lastExponent b p l x = max (Int.log b x + 1 - p) l := by
  rw [lastExponent, floorLog_eq_log hb hx]

theorem lastExponent_mono (hb : 1 < b) {x y : Rat} (hx : 0 < x) (hxy : x ≤ y) :
    lastExponent b p l x ≤ lastExponent b p l y := by
  rw [lastExponent_eq_log hb hx, lastExponent_eq_log hb (hx.trans_le hxy)]
  have := Int.log_mono_right (b := b) hx hxy
  omega

theorem lastExponent_le_of_lt (hb : 1 < b) {x : Rat} (hx : 0 < x) {k : Int} (hk : l ≤ k)
    (h : x < (b : Rat) ^ (p + k)) : lastExponent b p l x ≤ k := by
  have := (Int.lt_zpow_iff_log_lt hb hx).mp h
  rw [lastExponent_eq_log hb hx]
  omega

/-- The last digit of a number that has no more digits than are kept is not cut off. -/
theorem lastExponent_mul_zpow_le (hb : 1 < b) {n : Nat} (hn : n ≠ 0) (hfits : n < b ^ p)
    {k : Int} (hk : l ≤ k) : lastExponent b p l (n * (b : Rat) ^ k) ≤ k := by
  have hb0 : (0 : Rat) < b := natCast_pos_of_one_lt hb
  apply lastExponent_le_of_lt hb _ hk
  · rw [← pow_mul_zpow hb]
    exact mul_lt_mul_of_pos_right (by exact_mod_cast hfits) (zpow_pos hb0 k)
  · exact mul_pos (by exact_mod_cast Nat.pos_of_ne_zero hn) (zpow_pos hb0 k)

theorem roundDigits_zero : roundDigits tie b p l 0 = 0 := by
  rw [roundDigits, zero_div, roundNat_zero, Nat.cast_zero, zero_mul]

/-- **A number that fits is its own rounding.** -/
theorem roundDigits_mul_zpow (hb : 1 < b) {n : Nat} (hfits : n < b ^ p) {k : Int}
    (hk : l ≤ k) :
    roundDigits tie b p l (n * (b : Rat) ^ k) = n * (b : Rat) ^ k := by
  rcases Nat.eq_zero_or_pos n with rfl | hn
  · rw [Nat.cast_zero, zero_mul, roundDigits_zero]
  · have hb0 : (0 : Rat) < b := natCast_pos_of_one_lt hb
    have hle := lastExponent_mul_zpow_le hb hn.ne' hfits hk
    unfold roundDigits
    generalize lastExponent b p l (n * (b : Rat) ^ k) = e at hle ⊢
    rw [natCast_mul_zpow hb n hle, mul_div_cancel_right₀ _ (zpow_pos hb0 e).ne', roundNat_natCast]

theorem abs_roundDigits_sub_le (hb : 1 < b) {x : Rat} (hx : 0 ≤ x) :
    |roundDigits tie b p l x - x| ≤
      (b : Rat) ^ lastExponent b p l x / 2 := by
  have hb0 : (0 : Rat) < b := natCast_pos_of_one_lt hb
  unfold roundDigits
  generalize lastExponent b p l x = e
  have hunit : (0 : Rat) < (b : Rat) ^ e := zpow_pos hb0 e
  have hround := abs_roundNat_sub_le tie (div_nonneg hx hunit.le)
  calc |(roundNat tie (x / (b : Rat) ^ e) : Rat) * (b : Rat) ^ e - x|
      = |(roundNat tie (x / (b : Rat) ^ e) - x / (b : Rat) ^ e) * (b : Rat) ^ e| := by
        rw [sub_mul, div_mul_cancel₀ _ hunit.ne']
    _ = |(roundNat tie (x / (b : Rat) ^ e) : Rat) - x / (b : Rat) ^ e| * (b : Rat) ^ e := by
        rw [abs_mul, abs_of_pos hunit]
    _ ≤ 1 / 2 * (b : Rat) ^ e := mul_le_mul_of_nonneg_right hround hunit.le
    _ = (b : Rat) ^ e / 2 := by ring

theorem lt_pow_mul_zpow_lastExponent (hb : 1 < b) {x : Rat} (hx : 0 < x) :
    x < (b : Rat) ^ p * (b : Rat) ^ lastExponent b p l x := by
  rw [pow_mul_zpow hb]
  refine (Int.lt_zpow_succ_log_self hb x).trans_le (zpow_le_zpow_of_le hb ?_)
  rw [lastExponent_eq_log hb hx]
  omega

/-- The digits that are kept, and a carry out of the leading one. -/
theorem roundNat_div_le (hb : 1 < b) {x : Rat} (hx : 0 < x) :
    roundNat tie (x / (b : Rat) ^ lastExponent b p l x) ≤ b ^ p := by
  have hb0 : (0 : Rat) < b := natCast_pos_of_one_lt hb
  have hunit := zpow_pos hb0 (lastExponent b p l x)
  refine roundNat_le_natCast tie ?_
  rw [div_le_iff₀ hunit, Nat.cast_pow]
  exact (lt_pow_mul_zpow_lastExponent hb hx).le

/-- Above the least exponent, all the digits are there. -/
theorem le_roundNat_div (hb : 1 < b) (hp : 0 < p) {x : Rat} (hx : 0 < x)
    (hleast : l < lastExponent b p l x) :
    b ^ (p - 1) ≤ roundNat tie (x / (b : Rat) ^ lastExponent b p l x) := by
  have hb0 : (0 : Rat) < b := natCast_pos_of_one_lt hb
  refine natCast_le_roundNat tie ?_
  rw [le_div_iff₀ (zpow_pos hb0 _), Nat.cast_pow, pow_mul_zpow hb]
  refine le_trans (zpow_le_zpow_of_le hb ?_) (Int.zpow_log_le_self hb hx)
  rw [lastExponent_eq_log hb hx] at hleast ⊢
  omega

/-- **Rounding keeps the order.** -/
theorem roundDigits_mono (hb : 1 < b) (hp : 0 < p) {x y : Rat} (hx : 0 ≤ x) (hxy : x ≤ y) :
    roundDigits tie b p l x ≤ roundDigits tie b p l y := by
  have hb0 : (0 : Rat) < b := natCast_pos_of_one_lt hb
  rcases hx.eq_or_lt with rfl | hx
  · rw [roundDigits_zero]
    exact mul_nonneg (Nat.cast_nonneg _) (zpow_pos hb0 _).le
  · have hle := lastExponent_mono (p := p) (l := l) hb hx hxy
    rcases hle.eq_or_lt with heq | hlt
    · unfold roundDigits
      rw [← heq]
      have hunit := zpow_pos hb0 (lastExponent b p l x)
      refine mul_le_mul_of_nonneg_right ?_ hunit.le
      exact_mod_cast roundNat_mono tie (div_le_div_of_nonneg_right hxy hunit.le)
    · -- The lower one cannot be rounded beyond the power of the base between the two.
      have hleast : l < lastExponent b p l y := lt_of_le_of_lt (le_max_right _ _) hlt
      have hupper := roundNat_div_le tie (p := p) (l := l) hb hx
      have hlower := le_roundNat_div tie hb hp (hx.trans_le hxy) hleast
      unfold roundDigits
      generalize lastExponent b p l x = e at hlt hupper ⊢
      generalize lastExponent b p l y = f at hlt hlower ⊢
      calc (roundNat tie (x / (b : Rat) ^ e) : Rat) * (b : Rat) ^ e
          ≤ (b ^ p : Nat) * (b : Rat) ^ e :=
            mul_le_mul_of_nonneg_right (by exact_mod_cast hupper) (zpow_pos hb0 e).le
        _ = (b : Rat) ^ (p + e) := by rw [Nat.cast_pow, pow_mul_zpow hb]
        _ ≤ (b : Rat) ^ ((p - 1 : Nat) + f) := zpow_le_zpow_of_le hb (by omega)
        _ = (b ^ (p - 1) : Nat) * (b : Rat) ^ f := by rw [Nat.cast_pow, pow_mul_zpow hb]
        _ ≤ roundNat tie (y / (b : Rat) ^ f) * (b : Rat) ^ f :=
            mul_le_mul_of_nonneg_right (by exact_mod_cast hlower) (zpow_pos hb0 f).le

theorem roundDigits_le_of_le (hb : 1 < b) (hp : 0 < p) {n : Nat} (hfits : n < b ^ p)
    {k : Int} (hk : l ≤ k) {x : Rat} (hx : 0 ≤ x) (h : x ≤ n * (b : Rat) ^ k) :
    roundDigits tie b p l x ≤ n * (b : Rat) ^ k := by
  have hmono := roundDigits_mono tie (l := l) hb hp hx h
  rwa [roundDigits_mul_zpow tie hb hfits hk] at hmono

theorem le_roundDigits_of_le (hb : 1 < b) (hp : 0 < p) {n : Nat} (hfits : n < b ^ p)
    {k : Int} (hk : l ≤ k) {x : Rat} (h : n * (b : Rat) ^ k ≤ x) :
    n * (b : Rat) ^ k ≤ roundDigits tie b p l x := by
  have hb0 : (0 : Rat) < b := natCast_pos_of_one_lt hb
  have hmono := roundDigits_mono tie (l := l) hb hp
    (mul_nonneg (Nat.cast_nonneg n) (zpow_pos hb0 k).le) h
  rwa [roundDigits_mul_zpow tie hb hfits hk] at hmono

/-- A number that fits is less than a power of the base by one unit of its last digit at least. -/
theorem mul_zpow_add_zpow_le (hb : 1 < b) {n : Nat} (hfits : n < b ^ p) (k : Int) :
    n * (b : Rat) ^ k + (b : Rat) ^ k ≤ (b : Rat) ^ (p + k) := by
  have hb0 : (0 : Rat) < b := natCast_pos_of_one_lt hb
  have hsucc : (n : Rat) + 1 ≤ (b : Rat) ^ p := by exact_mod_cast hfits
  calc n * (b : Rat) ^ k + (b : Rat) ^ k
      = (n + 1) * (b : Rat) ^ k := by ring
    _ ≤ (b : Rat) ^ p * (b : Rat) ^ k :=
        mul_le_mul_of_nonneg_right hsucc (zpow_pos hb0 k).le
    _ = (b : Rat) ^ (p + k) := pow_mul_zpow hb p k

/-- A number near to one that fits has no digit more in front: the next power is too far away. -/
theorem lastExponent_le_of_near (hb : 1 < b) {n : Nat} (hfits : n < b ^ p) {k : Int} (hk : l ≤ k)
    {x : Rat} (hx : 0 < x) (hnear : 2 * (b : Rat) ^ p * |x - n * (b : Rat) ^ k| < x) :
    lastExponent b p l x ≤ k := by
  have hb0 : (0 : Rat) < b := natCast_pos_of_one_lt hb
  have hone : (1 : Rat) ≤ (b : Rat) ^ p := one_le_pow₀ (Nat.one_le_cast.mpr hb.le)
  rw [lastExponent_eq_log hb hx, max_le_iff]
  refine ⟨?_, hk⟩
  by_contra hlog
  have hpow : (b : Rat) ^ (p + k) ≤ x := (Int.zpow_le_iff_le_log hb hx).mpr (by omega)
  have hgap := mul_zpow_add_zpow_le hb hfits k
  have hdist : x - (b : Rat) ^ (p + k) + (b : Rat) ^ k ≤ |x - n * (b : Rat) ^ k| :=
    le_trans (by linarith) (le_abs_self _)
  have hscaled := mul_le_mul_of_nonneg_left hdist (zero_le_one.trans hone)
  have hexcess := mul_le_mul_of_nonneg_right hone (sub_nonneg.mpr hpow)
  have hpos : (0 : Rat) < (b : Rat) ^ (p + k) := zpow_pos hb0 _
  rw [mul_add, pow_mul_zpow hb] at hscaled
  linarith

/-- What is less than half a unit away from a multiple of a unit that is kept is rounded to it. -/
theorem roundDigits_eq_of_close (hb : 1 < b) {n : Nat} {k : Int} {x : Rat} (hx : 0 ≤ x)
    (hle : lastExponent b p l x ≤ k)
    (hclose : |x - n * (b : Rat) ^ k| < (b : Rat) ^ lastExponent b p l x / 2) :
    roundDigits tie b p l x = n * (b : Rat) ^ k := by
  have hunit : (0 : Rat) < (b : Rat) ^ lastExponent b p l x :=
    zpow_pos (natCast_pos_of_one_lt hb) _
  unfold roundDigits
  generalize lastExponent b p l x = e at hle hclose hunit ⊢
  -- The number is a multiple of the unit that is kept.
  rw [natCast_mul_zpow hb n hle] at hclose ⊢
  generalize n * b ^ (k - e).toNat = m at hclose ⊢
  have hquot : |x / (b : Rat) ^ e - m| < 1 / 2 := by
    rw [← mul_lt_mul_iff_of_pos_right hunit]
    calc |x / (b : Rat) ^ e - m| * (b : Rat) ^ e
        = |(x / (b : Rat) ^ e - m) * (b : Rat) ^ e| := by rw [abs_mul, abs_of_pos hunit]
      _ = |x - m * (b : Rat) ^ e| := by rw [sub_mul, div_mul_cancel₀ _ hunit.ne']
      _ < (b : Rat) ^ e / 2 := hclose
      _ = 1 / 2 * (b : Rat) ^ e := by ring
  rw [roundNat_eq_of_abs_sub_lt tie (div_nonneg hx hunit.le) hquot]

/-- **A number that fits is the rounding of all that is near it**: of what differs from it by less
than half a unit of as many digits. -/
theorem roundDigits_eq_of_near (hb : 1 < b) {n : Nat} (hfits : n < b ^ p) {k : Int}
    (hk : l ≤ k) {x : Rat} (hx : 0 < x)
    (hnear : 2 * (b : Rat) ^ p * |x - n * (b : Rat) ^ k| < x) :
    roundDigits tie b p l x = n * (b : Rat) ^ k := by
  apply roundDigits_eq_of_close tie hb hx.le (lastExponent_le_of_near hb hfits hk hx hnear)
  have hlt := lt_pow_mul_zpow_lastExponent (p := p) (l := l) hb hx
  have hpow : (0 : Rat) ≤ (b : Rat) ^ p := pow_nonneg (Nat.cast_nonneg b) p
  have hdouble := lt_of_mul_lt_mul_left (a := (b : Rat) ^ p) (b := 2 * |x - n * (b : Rat) ^ k|)
    (c := (b : Rat) ^ lastExponent b p l x) (by linarith) hpow
  linarith

end Significant

end Reckoner
