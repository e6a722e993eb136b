import Mathlib.Data.Nat.Sqrt
import Reckoner.Operation
import Reckoner.Proofs.Binary64.Nearest
/-!
# `Reckoner/Proofs/Binary64/Root.lean` — how large a square root is

The root is computed by the integer square root on a grid of some size, and moved by half a step if
it is not exact. Against a whole number this makes little difference: the root of what is not above
its square is not above it by more than a half (`rootLike_le`), and the root of what is not below
its square is not below it (`le_rootLike`).

> **The root of a finite value is finite** (`isFinite_of_squareRoot`), with half of the range to
> spare.
-/

set_option autoImplicit false

namespace Reckoner.Binary64

/-- The step of the grid on which the root is computed, as an exponent of two. -/
def rootScale (x : Rat) : Int := 64 - floorLog 2 x / 2

theorem rootScale_eq {x : Rat} (hx : 0 < x) : rootScale x = 64 - Int.log 2 x / 2 := by
  rw [rootScale, floorLog_eq_log Nat.one_lt_two hx]

/-- Below `2 ^ 130` the grid is not coarser than one. -/
theorem rootScale_nonneg {x : Rat} (hx : 0 < x) (h : x < (2 : Rat) ^ (130 : Int)) :
    0 ≤ rootScale x := by
  have hlog := (Int.lt_zpow_iff_log_lt (b := 2) Nat.one_lt_two hx).mp (by rwa [Nat.cast_ofNat])
  rw [rootScale_eq hx]
  omega

theorem scaledRoot_eq (s : Int) (x : Rat) : scaledRoot s x = Nat.sqrt ⌊x * (4 : Rat) ^ s⌋₊ := rfl

theorem four_zpow_eq (s : Int) : (4 : Rat) ^ s = (2 : Rat) ^ s * (2 : Rat) ^ s := by
  rw [← mul_zpow]
  norm_num

/-- The root is the point of the grid, or half a step above it. -/
theorem rootLike_bounds (x : Rat) :
    (scaledRoot (rootScale x) x : Rat) / (2 : Rat) ^ rootScale x ≤ rootLike x ∧
      rootLike x ≤ (scaledRoot (rootScale x) x + 1 / 2 : Rat) / (2 : Rat) ^ rootScale x := by
  have hunit : (0 : Rat) < (2 : Rat) ^ rootScale x := zpow_pos two_pos _
  unfold rootLike
  rw [show (64 - floorLog 2 x / 2) = rootScale x from rfl]
  simp only
  split
  · exact ⟨le_refl _, div_le_div_of_nonneg_right (by norm_num) hunit.le⟩
  · exact ⟨div_le_div_of_nonneg_right (by norm_num) hunit.le, le_refl _⟩

theorem rootLike_le {x : Rat} {n : Nat} (h : x ≤ n ^ 2)
    (hscale : 0 ≤ rootScale x) : rootLike x ≤ n + 1 / 2 := by
  refine (rootLike_bounds x).2.trans ?_
  obtain ⟨k, hk⟩ : ∃ k : Nat, rootScale x = k := ⟨_, (Int.toNat_of_nonneg hscale).symm⟩
  have hroot : scaledRoot k x ≤ n * 2 ^ k := by
    rw [scaledRoot_eq, ← Nat.sqrt_eq' (n * 2 ^ k)]
    refine Nat.sqrt_le_sqrt (Nat.floor_le_of_le ?_)
    rw [four_zpow_eq, zpow_natCast, Nat.cast_pow, Nat.cast_mul, Nat.cast_pow, Nat.cast_ofNat,
      mul_pow, ← pow_two]
    exact mul_le_mul_of_nonneg_right h (by positivity)
  rw [hk, zpow_natCast, div_le_iff₀ (by positivity)]
  have hone : (1 : Rat) ≤ 2 ^ k := one_le_pow₀ one_le_two
  have hcast : (scaledRoot k x : Rat) ≤ n * 2 ^ k := by exact_mod_cast hroot
  linarith

theorem le_rootLike {x : Rat} {n : Nat} (hn : n ≤ 2 ^ 64) (hx : 0 < x) (h : (n : Rat) ^ 2 ≤ x) :
    n ≤ rootLike x := by
  refine le_trans ?_ (rootLike_bounds x).1
  rw [le_div_iff₀ (zpow_pos two_pos _)]
  rcases Int.le_total 0 (rootScale x) with hscale | hscale
  · obtain ⟨k, hk⟩ : ∃ k : Nat, rootScale x = k := ⟨_, (Int.toNat_of_nonneg hscale).symm⟩
    have hroot : n * 2 ^ k ≤ scaledRoot k x := by
      rw [scaledRoot_eq, Nat.le_sqrt']
      refine Nat.le_floor ?_
      rw [four_zpow_eq, zpow_natCast, Nat.cast_pow, Nat.cast_mul, Nat.cast_pow, Nat.cast_ofNat,
        mul_pow, ← pow_two]
      exact mul_le_mul_of_nonneg_right h (by positivity)
    rw [hk, zpow_natCast]
    exact_mod_cast hroot
  · -- The grid is coarser than one, and the root takes 64 bits of it.
    have hroot : 2 ^ 64 ≤ scaledRoot (rootScale x) x := by
      rw [scaledRoot_eq, Nat.le_sqrt']
      refine Nat.le_floor ?_
      have hlog := Int.zpow_log_le_self Nat.one_lt_two hx
      calc (((2 ^ 64) ^ 2 : Nat) : Rat)
          = (2 : Rat) ^ (128 : Int) := by norm_num
        _ ≤ (2 : Rat) ^ (Int.log 2 x + rootScale x + rootScale x) := by
            refine zpow_le_zpow_right₀ one_le_two ?_
            rw [rootScale_eq hx]
            omega
        _ = (2 : Rat) ^ Int.log 2 x * (4 : Rat) ^ rootScale x := by
            rw [four_zpow_eq, zpow_add₀ two_ne_zero, zpow_add₀ two_ne_zero, mul_assoc]
        _ ≤ x * (4 : Rat) ^ rootScale x :=
            mul_le_mul_of_nonneg_right (by exact_mod_cast hlog) (zpow_pos (by norm_num) _).le
    calc (n : Rat) * (2 : Rat) ^ rootScale x
        ≤ n * 1 := mul_le_mul_of_nonneg_left (zpow_le_one_of_nonpos₀ one_le_two hscale)
          (Nat.cast_nonneg n)
      _ = n := mul_one _
      _ ≤ scaledRoot (rootScale x) x := by exact_mod_cast hn.trans hroot

/-- The root of what is below a power of four is not above twice the power of two. -/
theorem rootLike_le_zpow {x : Rat} (hx : 0 < x) {n : Int} (h : x < (2 : Rat) ^ (2 * n)) :
    rootLike x ≤ (2 : Rat) ^ (n + 1) := by
  have hlog := (Int.lt_zpow_iff_log_lt (b := 2) Nat.one_lt_two hx).mp (by rwa [Nat.cast_ofNat])
  obtain ⟨k, hk⟩ : ∃ k : Nat, n + rootScale x = k := by
    refine ⟨_, (Int.toNat_of_nonneg ?_).symm⟩
    rw [rootScale_eq hx]
    omega
  have hunit : (0 : Rat) < (2 : Rat) ^ rootScale x := zpow_pos two_pos _
  have hpower : (2 : Rat) ^ n * (2 : Rat) ^ rootScale x = 2 ^ k := by
    rw [← zpow_add₀ two_ne_zero, hk, zpow_natCast]
  have hroot : scaledRoot (rootScale x) x ≤ 2 ^ k := by
    rw [scaledRoot_eq, ← Nat.sqrt_eq' (2 ^ k)]
    refine Nat.sqrt_le_sqrt (Nat.floor_le_of_le ?_)
    calc x * (4 : Rat) ^ rootScale x
        ≤ (2 : Rat) ^ (2 * n) * (4 : Rat) ^ rootScale x :=
          mul_le_mul_of_nonneg_right h.le (zpow_pos (by simp) _).le
      _ = ((2 : Rat) ^ n * (2 : Rat) ^ rootScale x) ^ 2 := by
          rw [four_zpow_eq, two_mul n, zpow_add₀ two_ne_zero]
          ring
      _ = ((2 ^ k) ^ 2 : Nat) := by
          rw [hpower]
          push_cast
          rfl
  have hone : (1 : Rat) ≤ 2 ^ k := one_le_pow₀ one_le_two
  have hcast : (scaledRoot (rootScale x) x : Rat) ≤ 2 ^ k := by exact_mod_cast hroot
  refine (rootLike_bounds x).2.trans ?_
  rw [div_le_iff₀ hunit, zpow_add_one₀ two_ne_zero, mul_right_comm, hpower]
  linarith

theorem rootLike_nonneg (x : Rat) : 0 ≤ rootLike x :=
  le_trans (div_nonneg (Nat.cast_nonneg _) (zpow_pos two_pos _).le) (rootLike_bounds _).1

/-! ## The root of a value -/

theorem squareRoot_finite {negative : Bool} {m : Nat} {e : Int} {h : Canonical m e} {v : Binary64}
    (hroot : Operation.squareRoot (finite negative m e h) = .ok v) :
    v = finite negative m e h ∧ m = 0 ∨
      0 < m * (2 : Rat) ^ e ∧ v = ofRat false (rootLike (m * (2 : Rat) ^ e)) := by
  unfold Operation.squareRoot at hroot
  split at hroot
  · cases hroot
  · next hnonneg =>
    cases hroot
    rcases Nat.eq_zero_or_pos m with rfl | hm
    · exact .inl ⟨by simp [sqrt, isNaN, isZero], rfl⟩
    · have hpos : 0 < m * (2 : Rat) ^ e := mul_pos (by exact_mod_cast hm) (zpow_pos two_pos e)
      refine .inr ⟨hpos, ?_⟩
      cases negative with
      | true =>
        refine absurd ?_ hnonneg
        simpa [lt, zero, value, isNegative, magnitude] using hpos
      | false => simp [sqrt, isNaN, isZero, isNegative, isInfinite, magnitude, hm.ne']

/-- **The root of a finite value is finite.** -/
theorem isFinite_of_squareRoot {v w : Binary64} (hv : v.isFinite = true)
    (hroot : Operation.squareRoot v = .ok w) : w.isFinite = true := by
  cases v with
  | nan => exact absurd hv (by simp [isFinite])
  | infinity negative => exact absurd hv (by simp [isFinite])
  | finite negative m e h =>
    have hlt : m * (2 : Rat) ^ e < (2 : Rat) ^ (2 * 512 : Int) :=
      (magnitude_le_greatest (finite negative m e h)).trans_lt greatest_lt
    rcases squareRoot_finite hroot with ⟨rfl, -⟩ | ⟨hpos, rfl⟩
    · rfl
    · apply isFinite_ofRat_of_le false (rootLike_nonneg _)
      exact (rootLike_le_zpow hpos hlt).trans (two_zpow_le_greatest (by simp))

end Reckoner.Binary64
