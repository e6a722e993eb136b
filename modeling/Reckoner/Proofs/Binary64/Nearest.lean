import Mathlib.Tactic.NormNum
import Reckoner.Binary64.Arithmetic
import Reckoner.Proofs.Rounding
/-!
# `Reckoner/Proofs/Binary64/Nearest.lean` — the value nearest to a rational

`ofRat` is the one place where a value is made. Here it is said what it makes:

> **A value is the magnitude rounded to 53 bits**, and an infinity if that is `2 ^ 1024` or more
> (`magnitude_ofRat`, `isFinite_ofRat_iff`).

So everything that holds of rounding to digits holds of it: no value is crossed (`nearest_le_of_le`,
`le_nearest_of_le`), and unless it is very small it is off by at most one part in `2 ^ 53`
(`abs_nearest_sub_le`). And nothing up to the greatest value is rounded out of range
(`isFinite_ofRat_of_le`).
-/

set_option autoImplicit false

namespace Reckoner.Binary64

/-- The magnitude rounded to 53 bits, none of them below `2 ^ -1074`. -/
def nearest (x : Rat) : Rat := roundDigits .toEven 2 53 (-1074) x

/-! ## Order -/

theorem nearest_zero : nearest 0 = 0 := roundDigits_zero _

theorem nearest_mono {x y : Rat} (hx : 0 ≤ x) (hxy : x ≤ y) : nearest x ≤ nearest y :=
  roundDigits_mono _ Nat.one_lt_two (Nat.succ_pos 52) hx hxy

theorem nearest_nonneg {x : Rat} (hx : 0 ≤ x) : 0 ≤ nearest x := by
  have hmono := nearest_mono (Rat.le_refl (a := 0)) hx
  rwa [nearest_zero] at hmono

theorem nearest_le_of_le {n : Nat} {k : Int} {x : Rat} (hx : 0 ≤ x) (h : x ≤ n * (2 : Rat) ^ k)
    (hfits : n < 2 ^ 53) (hk : -1074 ≤ k) : nearest x ≤ n * (2 : Rat) ^ k :=
  roundDigits_le_of_le (b := 2) _ Nat.one_lt_two (Nat.succ_pos 52) hfits hk hx (by exact_mod_cast h)

theorem le_nearest_of_le {n : Nat} {k : Int} {x : Rat} (h : n * (2 : Rat) ^ k ≤ x)
    (hfits : n < 2 ^ 53) (hk : -1074 ≤ k) : n * (2 : Rat) ^ k ≤ nearest x :=
  le_roundDigits_of_le (b := 2) _ Nat.one_lt_two (Nat.succ_pos 52) hfits hk (by exact_mod_cast h)

theorem nearest_le_natCast {n : Nat} {x : Rat} (hx : 0 ≤ x) (h : x ≤ n) (hfits : n < 2 ^ 53) :
    nearest x ≤ n := by
  have hle := nearest_le_of_le (k := 0) hx (by rwa [zpow_zero, mul_one]) hfits (by simp)
  rwa [zpow_zero, mul_one] at hle

theorem natCast_le_nearest {n : Nat} {x : Rat} (h : (n : Rat) ≤ x) (hfits : n < 2 ^ 53) :
    (n : Rat) ≤ nearest x := by
  have hle := le_nearest_of_le (n := n) (k := 0) (x := x) (by rwa [zpow_zero, mul_one]) hfits
    (by simp)
  rwa [zpow_zero, mul_one] at hle

/-- **Off by one part in `2 ^ 53` at most**, of what comes out. -/
theorem abs_nearest_sub_le {x : Rat} (hx : (2 : Rat) ^ (-1022 : Int) ≤ x) :
    |nearest x - x| ≤ nearest x * (2 : Rat) ^ (-53 : Int) := by
  have hpos : 0 < x := (zpow_pos two_pos _).trans_le hx
  have hlog : -1022 ≤ Int.log 2 x :=
    (Int.zpow_le_iff_le_log Nat.one_lt_two hpos).mp (by exact_mod_cast hx)
  have hlast : lastExponent 2 53 (-1074) x = Int.log 2 x - 52 := by
    rw [lastExponent_eq_log Nat.one_lt_two hpos]
    omega
  have herror := abs_roundDigits_sub_le .toEven (b := 2) (p := 53) (l := -1074) Nat.one_lt_two
    hpos.le
  rw [hlast] at herror
  -- The power of two below the magnitude is a value, so it is not crossed.
  have hlower : ((2 ^ 52 : Nat) : Rat) * (2 : Rat) ^ (Int.log 2 x - 52) ≤ nearest x := by
    refine le_nearest_of_le ?_ (by simp) (by omega)
    rw [Nat.cast_pow, Nat.cast_ofNat, ← zpow_natCast, ← zpow_add₀ two_ne_zero]
    refine le_trans (le_of_eq ?_) (Int.zpow_log_le_self Nat.one_lt_two hpos)
    rw [Nat.cast_ofNat]
    congr 1
    omega
  refine herror.trans ?_
  calc ((2 : Nat) : Rat) ^ (Int.log 2 x - 52) / 2
      = ((2 ^ 52 : Nat) : Rat) * (2 : Rat) ^ (Int.log 2 x - 52) * (2 : Rat) ^ (-53 : Int) := by
        norm_num
        ring
    _ ≤ nearest x * (2 : Rat) ^ (-53 : Int) :=
        mul_le_mul_of_nonneg_right hlower (zpow_pos two_pos _).le

/-! ## The value -/

theorem magnitude_nonneg (v : Binary64) : 0 ≤ v.magnitude := by
  cases v with
  | nan => exact Rat.le_refl
  | infinity negative => exact Rat.le_refl
  | finite negative m e h => exact mul_nonneg (Nat.cast_nonneg m) (zpow_pos two_pos e).le

@[simp] theorem magnitude_zero (negative : Bool) : (zero negative).magnitude = 0 := by
  simp [zero, magnitude]

theorem canonical_iff_lt {m : Nat} {e : Int} (hm : m < 9007199254740992) (he : -1074 ≤ e)
    (hfull : 4503599627370496 ≤ m ∨ e = -1074) :
    Canonical m e ↔ m * (2 : Rat) ^ e < (2 : Rat) ^ (1024 : Int) := by
  constructor
  · rintro ⟨-, -, hle, -⟩
    calc m * (2 : Rat) ^ e
        < (2 : Rat) ^ (53 : Int) * (2 : Rat) ^ e :=
          mul_lt_mul_of_pos_right (by norm_num; exact_mod_cast hm) (zpow_pos two_pos e)
      _ = (2 : Rat) ^ (53 + e) := (zpow_add₀ two_ne_zero 53 e).symm
      _ ≤ (2 : Rat) ^ (1024 : Int) := zpow_le_zpow_right₀ one_le_two (by omega)
  · intro hlt
    refine ⟨hm, he, ?_, hfull⟩
    by_contra hgt
    have hm' : 4503599627370496 ≤ m := hfull.resolve_right (by omega)
    refine absurd hlt (not_lt.mpr ?_)
    calc (2 : Rat) ^ (1024 : Int)
        ≤ (2 : Rat) ^ (52 + e) := zpow_le_zpow_right₀ one_le_two (by omega)
      _ = (2 : Rat) ^ (52 : Int) * (2 : Rat) ^ e := zpow_add₀ two_ne_zero 52 e
      _ ≤ m * (2 : Rat) ^ e :=
          mul_le_mul_of_nonneg_right (by norm_num; exact_mod_cast hm') (zpow_pos two_pos e).le

/-- What the parts make: the finite value, or an infinity if that is out of range. -/
theorem ofParts_cases (negative : Bool) {m : Nat} {e : Int} (hm : m < 9007199254740992)
    (he : -1074 ≤ e) (hfull : 4503599627370496 ≤ m ∨ e = -1074) :
    (m * (2 : Rat) ^ e < (2 : Rat) ^ (1024 : Int) ∧
        ∃ h, ofParts negative m e = .finite negative m e h) ∨
      ((2 : Rat) ^ (1024 : Int) ≤ m * (2 : Rat) ^ e ∧
        ofParts negative m e = .infinity negative) := by
  by_cases h : Canonical m e
  · exact .inl ⟨(canonical_iff_lt hm he hfull).mp h, h, dif_pos h⟩
  · exact .inr ⟨not_lt.mp fun hlt => h ((canonical_iff_lt hm he hfull).mpr hlt), dif_neg h⟩

/-- How a positive magnitude is made into a value: with the integer that it is rounded to, or with
half of it, if there was a carry out of the leading bit. -/
theorem ofRat_of_pos (negative : Bool) {x : Rat} (hx : 0 < x) :
    ofRat negative x =
      if roundNat .toEven (x / (2 : Rat) ^ lastExponent 2 53 (-1074) x) = 9007199254740992 then
        ofParts negative 4503599627370496 (lastExponent 2 53 (-1074) x + 1)
      else
        ofParts negative (roundNat .toEven (x / (2 : Rat) ^ lastExponent 2 53 (-1074) x))
          (lastExponent 2 53 (-1074) x) := by
  have hlast : max (floorLog 2 x - 52) (-1074) = lastExponent 2 53 (-1074) x := by
    rw [lastExponent]
    omega
  rw [ofRat, if_neg (not_le.mpr hx)]
  simp only [hlast]

/-- The parts of a rounded magnitude: a carry out of the leading bit is put into the exponent. -/
theorem exists_parts (negative : Bool) {x : Rat} (hx : 0 < x) :
    ∃ m e, m < 9007199254740992 ∧ -1074 ≤ e ∧ (4503599627370496 ≤ m ∨ e = -1074) ∧
      ofRat negative x = ofParts negative m e ∧ m * (2 : Rat) ^ e = nearest x := by
  have hle : -1074 ≤ lastExponent 2 53 (-1074) x := le_max_right _ _
  have hupper := roundNat_div_le .toEven (b := 2) (p := 53) (l := -1074) Nat.one_lt_two hx
  have hlower := le_roundNat_div .toEven (b := 2) (p := 53) (l := -1074) Nat.one_lt_two
    (Nat.succ_pos 52) hx
  rw [ofRat_of_pos negative hx]
  unfold nearest roundDigits
  simp only [Nat.cast_ofNat] at hupper hlower ⊢
  generalize lastExponent 2 53 (-1074) x = e at hle hupper hlower ⊢
  generalize roundNat .toEven (x / (2 : Rat) ^ e) = m at hupper hlower ⊢
  split
  · next hcarry =>
    refine ⟨4503599627370496, e + 1, by simp, by omega, .inl (Nat.le_refl _), rfl, ?_⟩
    rw [hcarry, zpow_add_one₀ two_ne_zero]
    norm_num
    ring
  · next hcarry =>
    refine ⟨m, e, lt_of_le_of_ne hupper hcarry, hle, ?_, rfl, rfl⟩
    rcases hle.eq_or_lt with heq | hlt
    · exact .inr heq.symm
    · exact .inl (hlower hlt)

/-- **What `ofRat` makes:** the magnitude rounded to 53 bits if it is in range, and else an
infinity. -/
theorem ofRat_cases (negative : Bool) {x : Rat} (hx : 0 ≤ x) :
    (nearest x < (2 : Rat) ^ (1024 : Int) ∧ ∃ m e h,
        ofRat negative x = .finite negative m e h ∧ m * (2 : Rat) ^ e = nearest x) ∨
      ((2 : Rat) ^ (1024 : Int) ≤ nearest x ∧ ofRat negative x = .infinity negative) := by
  rcases hx.eq_or_lt with rfl | hx
  · refine .inl ⟨by rw [nearest_zero]; exact zpow_pos two_pos _, 0, -1074, by decide, ?_, ?_⟩
    · rw [ofRat, if_pos le_rfl, zero]
    · rw [nearest_zero, Nat.cast_zero, zero_mul]
  · obtain ⟨m, e, hm, he, hfull, heq, hvalue⟩ := exists_parts negative hx
    rw [heq, ← hvalue]
    rcases ofParts_cases negative hm he hfull with ⟨hlt, h, hparts⟩ | ⟨hge, hparts⟩
    · exact .inl ⟨hlt, m, e, h, hparts, rfl⟩
    · exact .inr ⟨hge, hparts⟩

theorem isFinite_ofRat_iff {negative : Bool} {x : Rat} (hx : 0 ≤ x) :
    (ofRat negative x).isFinite = true ↔ nearest x < (2 : Rat) ^ (1024 : Int) := by
  rcases ofRat_cases negative hx with ⟨hlt, _, _, _, heq, -⟩ | ⟨hge, heq⟩
  · rw [heq]
    exact iff_of_true rfl hlt
  · rw [heq]
    exact iff_of_false (by simp [isFinite]) (not_lt.mpr hge)

theorem magnitude_ofRat {negative : Bool} {x : Rat} (hx : 0 ≤ x)
    (h : (ofRat negative x).isFinite = true) : (ofRat negative x).magnitude = nearest x := by
  rcases ofRat_cases negative hx with ⟨-, m, e, _, heq, hvalue⟩ | ⟨-, heq⟩
  · rw [heq, ← hvalue]
    rfl
  · rw [heq] at h
    exact absurd h (by simp [isFinite])

theorem isNegative_ofRat (negative : Bool) {x : Rat} (hx : 0 ≤ x) :
    (ofRat negative x).isNegative = negative := by
  rcases ofRat_cases negative hx with ⟨-, m, e, h, heq, -⟩ | ⟨-, heq⟩
  · rw [heq]
    rfl
  · rw [heq]
    rfl

/-! ## The greatest -/

/-- The greatest magnitude of a finite value. -/
def greatest : Rat := (9007199254740991 : Nat) * (2 : Rat) ^ (971 : Int)

theorem greatest_pos : 0 < greatest := mul_pos (by simp) (zpow_pos two_pos _)

theorem greatest_eq_natCast : greatest = (9007199254740991 * 2 ^ 971 : Nat) := by
  rw [greatest, Nat.cast_mul, Nat.cast_pow]
  rfl

theorem magnitude_le_greatest (v : Binary64) : v.magnitude ≤ greatest := by
  cases v with
  | nan => exact mul_nonneg (Nat.cast_nonneg _) (zpow_pos two_pos _).le
  | infinity negative => exact mul_nonneg (Nat.cast_nonneg _) (zpow_pos two_pos _).le
  | finite negative m e h =>
    obtain ⟨hm, -, he, -⟩ := h
    apply mul_le_mul _ (zpow_le_zpow_right₀ one_le_two he) (zpow_pos two_pos e).le
      (Nat.cast_nonneg _)
    exact_mod_cast Nat.le_of_lt_succ hm

theorem nearest_le_greatest {x : Rat} (hx : 0 ≤ x) (h : x ≤ greatest) : nearest x ≤ greatest :=
  nearest_le_of_le hx h (by simp) (by simp)

theorem greatest_lt : greatest < (2 : Rat) ^ (1024 : Int) := by
  rw [show (1024 : Int) = 53 + 971 by norm_num, zpow_add₀ two_ne_zero]
  apply mul_lt_mul_of_pos_right _ (zpow_pos two_pos _)
  norm_num

theorem two_zpow_le_greatest {k : Int} (hk : k ≤ 971) : (2 : Rat) ^ k ≤ greatest :=
  (zpow_le_zpow_right₀ one_le_two hk).trans
    (le_mul_of_one_le_left (zpow_pos two_pos _).le (by simp))

/-- What is not above the greatest magnitude is not rounded out of range. -/
theorem isFinite_ofRat_of_le (negative : Bool) {x : Rat} (hx : 0 ≤ x) (h : x ≤ greatest) :
    (ofRat negative x).isFinite = true :=
  (isFinite_ofRat_iff hx).mpr ((nearest_le_greatest hx h).trans_lt greatest_lt)

/-- A quotient by one or more is in range. -/
theorem isFinite_div {v w : Binary64} (hv : v.isFinite = true) (hw : w.isFinite = true)
    (hone : 1 ≤ w.magnitude) : (v.div w).isFinite = true := by
  cases v with
  | nan => exact absurd hv (by simp [isFinite])
  | infinity negative => exact absurd hv (by simp [isFinite])
  | finite negative m e h =>
    cases w with
    | nan => exact absurd hw (by simp [isFinite])
    | infinity negative' => exact absurd hw (by simp [isFinite])
    | finite negative' m' e' h' =>
      have hne : m' ≠ 0 := by
        rintro rfl
        simp only [magnitude, Nat.cast_zero, zero_mul] at hone
        exact absurd hone (by simp)
      have hle := magnitude_le_greatest (finite negative m e h)
      simp only [div, isNaN, isInfinite, isZero, hne, Bool.false_or, Bool.false_eq_true,
        ↓reduceIte, decide_false]
      apply isFinite_ofRat_of_le
      · exact div_nonneg (magnitude_nonneg _) (magnitude_nonneg _)
      · exact (div_le_self (magnitude_nonneg _) hone).trans hle

end Reckoner.Binary64
