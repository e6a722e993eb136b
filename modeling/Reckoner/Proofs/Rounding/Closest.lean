import Mathlib.Algebra.Ring.Parity
import Reckoner.Proofs.Rounding
/-!
# `Reckoner/Proofs/Rounding/Closest.lean` — the closest number of so many digits

A magnitude is rounded on the grid of its own last digit. The numbers of so many digits are on many
grids: the smaller they are, the closer together they lie. Yet none of them is missed:

> **No number of so many digits is closer than the rounded one** (`closer_roundDigits`), and one that
> is as close is not larger, if a tie goes away from zero.

A number off the grid is too small to matter (`abs_roundDigits_sub_lt`). The power of the base below
the magnitude is on the grid, and lies between the two.

> **If a tie goes to the even neighbour, the other one is odd** (`closer_or_tie_roundDigits`). So the
> rounded number is told from every other one, by its distance or by its last digit.
-/

set_option autoImplicit false

namespace Reckoner

/-! ## Natural numbers -/

section RoundNat

variable {x : Rat}

/-- Every other natural number is half a unit away, or more. -/
theorem half_le_abs_sub_of_ne (hx : 0 ≤ x) (tie : Tie) {n : Nat} (hne : n ≠ roundNat tie x) :
    1 / 2 ≤ |(n : Rat) - x| := by
  by_contra hlt
  rw [not_le, abs_sub_comm] at hlt
  exact hne (roundNat_eq_of_abs_sub_lt tie hx hlt).symm

/-- No natural number is closer than the rounded one. -/
theorem abs_roundNat_sub_le_abs_sub (hx : 0 ≤ x) (tie : Tie) (n : Nat) :
    |(roundNat tie x : Rat) - x| ≤ |(n : Rat) - x| := by
  rcases eq_or_ne n (roundNat tie x) with rfl | hne
  · exact le_rfl
  · exact (abs_roundNat_sub_le tie hx).trans (half_le_abs_sub_of_ne hx tie hne)

/-- A number that is a half away lies on one side of the fraction or the other. -/
theorem fract_eq_half_of_abs_sub_eq (hx : 0 ≤ x) {n : Nat} (h : |(n : Rat) - x| = 1 / 2) :
    x - ⌊x⌋₊ = 1 / 2 ∧ (n = ⌊x⌋₊ ∨ n = ⌊x⌋₊ + 1) := by
  have hlower := Nat.floor_le hx
  have hupper := Nat.lt_floor_add_one x
  generalize ⌊x⌋₊ = below at hlower hupper
  rcases (abs_eq (by simp)).mp h with habove | hbelow
  · have hn : n = below + 1 := by
      have hle : n < below + 2 := by exact_mod_cast (show (n : Rat) < below + 2 by linarith)
      have hge : below < n := by exact_mod_cast (show (below : Rat) < n by linarith)
      omega
    subst hn
    rw [Nat.cast_add, Nat.cast_one] at habove
    exact ⟨by linarith, .inr rfl⟩
  · have hn : n = below := by
      have hle : n < below + 1 := by exact_mod_cast (show (n : Rat) < below + 1 by linarith)
      have hge : below < n + 1 := by exact_mod_cast (show (below : Rat) < n + 1 by linarith)
      omega
    subst hn
    exact ⟨by linarith, .inl rfl⟩

theorem roundNat_toEven_of_half (h : x - ⌊x⌋₊ = 1 / 2) :
    roundNat .toEven x = if ⌊x⌋₊ % 2 = 0 then ⌊x⌋₊ else ⌊x⌋₊ + 1 := by
  have hfloor : x.floor.toNat = ⌊x⌋₊ := rfl
  rw [roundNat]
  simp only [hfloor, h, lt_self_iff_false, ↓reduceIte]

/-- **Of two natural numbers that are as close, the even one is taken**, and the other one is odd. -/
theorem roundNat_toEven_of_tie (hx : 0 ≤ x) {n : Nat} (hne : n ≠ roundNat .toEven x)
    (htie : |(n : Rat) - x| ≤ |(roundNat .toEven x : Rat) - x|) :
    roundNat .toEven x % 2 = 0 ∧ n % 2 = 1 := by
  have hhalf : |(n : Rat) - x| = 1 / 2 :=
    le_antisymm (htie.trans (abs_roundNat_sub_le .toEven hx)) (half_le_abs_sub_of_ne hx .toEven hne)
  obtain ⟨hfract, hn⟩ := fract_eq_half_of_abs_sub_eq hx hhalf
  rw [roundNat_toEven_of_half hfract] at hne ⊢
  split at hne
  · next heven =>
    rw [if_pos heven]
    omega
  · next hodd =>
    rw [if_neg hodd]
    omega

end RoundNat

/-! ## Closer -/

/-- To `x`, `r` is at least as close as `y`; and `y` is not the larger one if it is as close. -/
def Closer (x r y : Rat) : Prop := |r - x| ≤ |y - x| ∧ (|y - x| = |r - x| → |y| ≤ |r|)

/-- Among the numbers of a kind, `r` is the closest to `x`, and the largest of those. -/
structure IsClosest (P : Rat → Prop) (x r : Rat) : Prop where
  mem : P r
  closer : ∀ y, P y → Closer x r y

/-- A number of at most `count` significant digits. -/
def HasDigits (count : Nat) (x : Rat) : Prop :=
  ∃ (n : Nat) (k : Int), n < 10 ^ count ∧ |x| = n * (10 : Rat) ^ k

theorem HasDigits.neg {count : Nat} {x : Rat} (h : HasDigits count x) : HasDigits count (-x) := by
  obtain ⟨n, k, hfits, hvalue⟩ := h
  exact ⟨n, k, hfits, by rwa [abs_neg]⟩

section Closer

variable {x r y : Rat}

theorem Closer.of_lt (h : |r - x| < |y - x|) : Closer x r y :=
  ⟨h.le, fun heq => absurd heq.symm h.ne⟩

theorem Closer.neg (h : Closer x r y) : Closer (-x) (-r) (-y) := by
  obtain ⟨hle, htie⟩ := h
  have hr : -r - -x = -(r - x) := by ring
  have hy : -y - -x = -(y - x) := by ring
  rw [Closer, hr, hy, abs_neg, abs_neg, abs_neg, abs_neg]
  exact ⟨hle, htie⟩

/-- A distance in units is a distance. -/
theorem abs_mul_sub_eq {u : Rat} (hu : 0 < u) (z x : Rat) : |z * u - x| = |z - x / u| * u := by
  rw [← abs_of_pos hu, ← abs_mul, abs_of_pos hu, sub_mul, div_mul_cancel₀ _ hu.ne']

/-- A unit may be taken out. -/
theorem Closer.mul_right {u : Rat} (hu : 0 < u) (h : Closer (x / u) r y) :
    Closer x (r * u) (y * u) := by
  obtain ⟨hle, htie⟩ := h
  refine ⟨?_, fun heq => ?_⟩
  · rw [abs_mul_sub_eq hu, abs_mul_sub_eq hu]
    exact mul_le_mul_of_nonneg_right hle hu.le
  · rw [abs_mul_sub_eq hu, abs_mul_sub_eq hu] at heq
    rw [abs_mul, abs_mul]
    exact mul_le_mul_of_nonneg_right (htie (mul_right_cancel₀ hu.ne' heq)) (abs_nonneg u)

/-- A number of the other sign is further away than its opposite. -/
theorem Closer.of_abs (hx : 0 ≤ x) (h : Closer x r |y|) : Closer x r y := by
  obtain ⟨hle, htie⟩ := h
  have hfar : |(|y| - x)| ≤ |y - x| := by
    have hdist := abs_abs_sub_abs_le y x
    rwa [abs_of_nonneg hx] at hdist
  refine ⟨hle.trans hfar, fun heq => ?_⟩
  have hsame : |(|y| - x)| = |r - x| := le_antisymm (hfar.trans_eq heq) hle
  have hlarger := htie hsame
  rwa [abs_abs] at hlarger

/-- What a tie away from zero leaves on either side. -/
theorem roundNat_awayFromZero_bounds (hx : 0 ≤ x) :
    x - 1 / 2 < roundNat .awayFromZero x ∧ roundNat .awayFromZero x ≤ x + 1 / 2 := by
  have hle := Nat.floor_le hx
  have hlt := Nat.lt_floor_add_one x
  have hfloor : x.floor.toNat = ⌊x⌋₊ := rfl
  unfold roundNat
  simp only [hfloor]
  split
  · next hbelow => constructor <;> linarith
  · next habove =>
    rw [not_lt] at habove
    split
    all_goals
      rw [Nat.cast_add, Nat.cast_one]
      constructor <;> linarith

/-- What is half a unit below a number, or more, is rounded to it, or beyond. -/
theorem le_roundNat_awayFromZero_iff (hx : 0 ≤ x) {n : Nat} :
    n ≤ roundNat .awayFromZero x ↔ (n : Rat) - 1 / 2 ≤ x := by
  obtain ⟨hlower, hupper⟩ := roundNat_awayFromZero_bounds hx
  generalize roundNat .awayFromZero x = m at hlower hupper
  constructor
  · intro hle
    have hcast : (n : Rat) ≤ m := by exact_mod_cast hle
    linarith
  · intro hle
    have hstep : (n : Rat) < m + 1 := by linarith
    exact Nat.le_of_lt_succ (by exact_mod_cast hstep)

theorem closer_roundNat (hx : 0 ≤ x) (m : Nat) : Closer x (roundNat .awayFromZero x) m := by
  refine ⟨abs_roundNat_sub_le_abs_sub hx .awayFromZero m, fun htie => ?_⟩
  have hlower := (roundNat_awayFromZero_bounds hx).1
  have herror := abs_roundNat_sub_le .awayFromZero hx
  generalize roundNat .awayFromZero x = n at htie hlower herror ⊢
  rw [Nat.abs_cast, Nat.abs_cast, Nat.cast_le]
  by_contra hlt
  have hstep : (n : Rat) + 1 ≤ m := by exact_mod_cast not_le.mp hlt
  have hfar := le_abs_self ((m : Rat) - x)
  linarith

end Closer

/-! ## Digits -/

variable {b p : Nat} {l : Int} {x : Rat}

/-- No multiple of the unit that is kept is closer. -/
theorem abs_roundDigits_sub_le_grid (tie : Tie) (hb : 1 < b) (hx : 0 ≤ x) (n : Nat) :
    |roundDigits tie b p l x - x| ≤ |n * (b : Rat) ^ lastExponent b p l x - x| := by
  have hunit := zpow_pos (natCast_pos_of_one_lt hb) (lastExponent b p l x)
  rw [roundDigits, abs_mul_sub_eq hunit, abs_mul_sub_eq hunit]
  exact mul_le_mul_of_nonneg_right
    (abs_roundNat_sub_le_abs_sub (div_nonneg hx hunit.le) tie n) hunit.le

/-- **What is off the grid is further away**: it is below a power of the base that is on it. -/
theorem abs_roundDigits_sub_lt (tie : Tie) (hb : 1 < b) (hp : 0 < p) (hx : 0 < x) {n : Nat}
    (hfits : n < b ^ p) {k : Int} (hk : l ≤ k) (hlt : k < lastExponent b p l x) :
    |roundDigits tie b p l x - x| < |n * (b : Rat) ^ k - x| := by
  have hlog : lastExponent b p l x = Int.log b x + 1 - p := by
    rw [lastExponent_eq_log hb hx] at hlt ⊢
    omega
  have hpower : (b : Rat) ^ Int.log b x =
      (b ^ (p - 1) : Nat) * (b : Rat) ^ lastExponent b p l x := by
    rw [Nat.cast_pow, pow_mul_zpow hb, hlog]
    congr 1
    omega
  have hbelow : n * (b : Rat) ^ k < (b : Rat) ^ Int.log b x := by
    have hgap := mul_zpow_add_zpow_le hb hfits k
    have hstep := zpow_le_zpow_of_le hb (show p + k ≤ Int.log b x by omega)
    have hunit := zpow_pos (natCast_pos_of_one_lt hb) k
    linarith
  have hself := Int.zpow_log_le_self hb hx
  refine (abs_roundDigits_sub_le_grid tie hb hx.le (b ^ (p - 1))).trans_lt ?_
  rw [← hpower, abs_sub_comm, abs_of_nonneg (sub_nonneg.mpr hself), abs_sub_comm,
    abs_of_nonneg (by linarith)]
  linarith

/-- **No number of so many digits is closer than the rounded one.** -/
theorem closer_roundDigits (hb : 1 < b) (hp : 0 < p) (hx : 0 ≤ x) {n : Nat} (hfits : n < b ^ p)
    {k : Int} (hk : l ≤ k) :
    Closer x (roundDigits .awayFromZero b p l x) (n * (b : Rat) ^ k) := by
  rcases hx.eq_or_lt with rfl | hpos
  · rw [roundDigits_zero, Closer, sub_zero, sub_zero, abs_zero]
    exact ⟨abs_nonneg _, fun heq => heq.le⟩
  · rcases le_or_gt (lastExponent b p l x) k with hle | hlt
    · have hunit := zpow_pos (natCast_pos_of_one_lt hb) (lastExponent b p l x)
      rw [natCast_mul_zpow hb n hle]
      exact (closer_roundNat (div_nonneg hx hunit.le) _).mul_right hunit
    · exact Closer.of_lt (abs_roundDigits_sub_lt .awayFromZero hb hp hpos hfits hk hlt)

/-- **A number of so many digits is further away than the rounded one, or else it is as far away and
odd**, and the rounded one is even. -/
theorem closer_or_tie_roundDigits (hb : 1 < b) (hp : 0 < p) (hx : 0 < x) {n : Nat}
    (hfits : n < b ^ p) {k : Int} (hk : l ≤ k)
    (hne : n * (b : Rat) ^ k ≠ roundDigits .toEven b p l x) :
    |roundDigits .toEven b p l x - x| < |n * (b : Rat) ^ k - x| ∨
      |roundDigits .toEven b p l x - x| = |n * (b : Rat) ^ k - x| ∧
        roundNat .toEven (x / (b : Rat) ^ lastExponent b p l x) % 2 = 0 ∧ n % 2 = 1 := by
  rcases le_or_gt (lastExponent b p l x) k with hle | hlt
  · have hunit := zpow_pos (natCast_pos_of_one_lt hb) (lastExponent b p l x)
    rw [natCast_mul_zpow hb n hle] at hne ⊢
    have hgrid := abs_roundDigits_sub_le_grid .toEven (p := p) (l := l) hb hx.le
      (n * b ^ (k - lastExponent b p l x).toNat)
    refine hgrid.lt_or_eq.imp_right fun heq => ⟨heq, ?_⟩
    have htie := heq.ge
    rw [roundDigits] at hne
    rw [roundDigits, abs_mul_sub_eq hunit, abs_mul_sub_eq hunit, mul_le_mul_iff_left₀ hunit] at htie
    obtain ⟨heven, hodd⟩ := roundNat_toEven_of_tie (div_pos hx hunit).le
      (fun hsame => hne (by rw [hsame])) htie
    -- A product is odd only if its factors are.
    have hproduct := Nat.odd_mul.mp (Nat.odd_iff.mpr hodd)
    exact ⟨heven, Nat.odd_iff.mp hproduct.1⟩
  · exact .inl (abs_roundDigits_sub_lt .toEven hb hp hx hfits hk hlt)

end Reckoner
