import Reckoner.Proofs.Binary64.Order
import Reckoner.Proofs.Binary64.Overflow
import Reckoner.Proofs.Rounding.Closest
/-!
# `Reckoner/Proofs/Binary64/Closest.lean` — the value that a number has

`ofRat` computes a value from a number, by a logarithm, a quotient and a carry. What is computed can
be said without any of these, by comparing the value to all others: none is closer to the number, and
one that is as close has an odd significand (`Preferred`). Only where the range ends nothing is
compared. From half a step above the greatest value on, a number has an infinity for its value.

> **A decimal is made into the value that it has** (`roundsTo_ofDecimal`), and it has no other, but
> for the sign of a zero (`RoundsTo.unique`).
-/

set_option autoImplicit false

namespace Reckoner.Binary64

/-- A finite value whose last bit is zero. -/
def isEven : Binary64 → Bool
  | .finite _ significand _ _ => significand % 2 = 0
  | _ => false

/-- To a number, the first value is closer than the second one; or it is as close, and even, and the
other one is odd. -/
def Preferred (x : Rat) (v w : Binary64) : Prop :=
  |v.value - x| < |w.value - x| ∨
    |v.value - x| = |w.value - x| ∧ v.isEven = true ∧ w.isEven = false

/-- What a number is rounded to: the closest finite value, with ties to even, or an infinity. -/
inductive RoundsTo (x : Rat) : Binary64 → Prop where
  | finite {v : Binary64} (isFinite : v.isFinite = true) (below : |x| < overflow)
      (preferred : ∀ w : Binary64, w.isFinite = true → w.value ≠ v.value → Preferred x v w) :
      RoundsTo x v
  | infinite (above : overflow ≤ |x|) : RoundsTo x (.infinity (decide (x < 0)))

variable {x : Rat} {v w : Binary64}

/-! ## No number has two values -/

theorem Preferred.asymm (h : Preferred x v w) : ¬ Preferred x w v := by
  rintro (hlt | ⟨heq, heven, -⟩)
  · rcases h with hlt' | ⟨heq', -⟩
    · exact lt_asymm hlt hlt'
    · exact hlt.ne heq'.symm
  · rcases h with hlt' | ⟨-, -, hodd⟩
    · exact hlt'.ne heq.symm
    · rw [heven] at hodd
      cases hodd

/-- **A number has one value**, up to the sign of a zero. -/
theorem RoundsTo.unique (hv : RoundsTo x v) (hw : RoundsTo x w)
    (hsign : v.isNegative = w.isNegative) : v = w := by
  cases hv with
  | infinite habove =>
    cases hw with
    | infinite => rfl
    | finite _ hbelow => exact absurd hbelow (not_lt.mpr habove)
  | finite hvfinite hbelow hvbest =>
    cases hw with
    | infinite habove => exact absurd hbelow (not_lt.mpr habove)
    | finite hwfinite _ hwbest =>
      refine eq_of_value_eq hvfinite hwfinite hsign ?_
      by_contra hne
      exact (hvbest w hwfinite (Ne.symm hne)).asymm (hwbest v hvfinite hne)

/-! ## Signs -/

theorem ofParts_true (m : Nat) (e : Int) : ofParts true m e = (ofParts false m e).neg := by
  unfold ofParts
  split
  · rfl
  · rfl

/-- A sign is put on after rounding. -/
theorem ofRat_true (x : Rat) : ofRat true x = (ofRat false x).neg := by
  unfold ofRat
  split
  · rfl
  · dsimp only
    split
    · exact ofParts_true _ _
    · exact ofParts_true _ _

theorem isEven_neg (v : Binary64) : v.neg.isEven = v.isEven := by
  cases v <;> rfl

theorem Preferred.neg (hv : v.isFinite = true) (hw : w.isFinite = true) (h : Preferred x v w) :
    Preferred (-x) v.neg w.neg := by
  have hdist : ∀ y : Rat, |-y - -x| = |y - x| := by
    intro y
    rw [← abs_neg]
    congr 1
    ring
  rwa [Preferred, value_neg hv, value_neg hw, isEven_neg, isEven_neg, hdist, hdist]

/-- The opposite number has the opposite value. -/
theorem RoundsTo.neg (h : RoundsTo x v) : RoundsTo (-x) v.neg := by
  cases h with
  | infinite habove =>
    have hne : x ≠ 0 := by
      rintro rfl
      rw [abs_zero] at habove
      exact absurd (greatest_pos.trans greatest_lt_overflow) (not_lt.mpr habove)
    have hsign : (!decide (x < 0)) = decide (-x < 0) := by
      rw [← decide_not, decide_eq_decide, not_lt, Left.neg_neg_iff]
      exact hne.symm.le_iff_lt
    rw [Binary64.neg, hsign]
    exact .infinite (by rwa [abs_neg])
  | finite hv hbelow hbest =>
    refine .finite (parts_neg hv).1 (by rwa [abs_neg]) fun w hw hne => ?_
    obtain ⟨hwneg, -⟩ := parts_neg hw
    have hpreferred := hbest w.neg hwneg fun heq => hne <| by
      rw [value_neg hv, ← heq, value_neg hw, neg_neg]
    rw [← neg_involutive w]
    exact hpreferred.neg hv hwneg

/-! ## The value that is made -/

theorem isEven_ofParts {negative : Bool} {m : Nat} {e : Int}
    (hfinite : (ofParts negative m e).isFinite = true) (heven : m % 2 = 0) :
    (ofParts negative m e).isEven = true := by
  unfold ofParts at hfinite ⊢
  split
  · simpa [isEven] using heven
  · next hout =>
    rw [dif_neg hout] at hfinite
    cases hfinite

/-- The last bit is that of the integer that the magnitude is rounded to. After a carry there is a
power of two. -/
theorem isEven_ofRat {negative : Bool} (hx : 0 < x) (hfinite : (ofRat negative x).isFinite = true)
    (heven : roundNat .toEven (x / (2 : Rat) ^ lastExponent 2 53 (-1074) x) % 2 = 0) :
    (ofRat negative x).isEven = true := by
  rw [ofRat_of_pos negative hx] at hfinite ⊢
  split
  · next hcarry =>
    rw [if_pos hcarry] at hfinite
    exact isEven_ofParts hfinite rfl
  · next hcarry =>
    rw [if_neg hcarry] at hfinite
    exact isEven_ofParts hfinite heven

theorem value_ofRat (hx : 0 ≤ x) (hfinite : (ofRat false x).isFinite = true) :
    (ofRat false x).value = nearest x := by
  rw [value, isNegative_ofRat false hx, magnitude_ofRat hx hfinite]
  rfl

/-- Zero is not closer than the nearest magnitude. -/
theorem abs_nearest_sub_le_self (hx : 0 ≤ x) : |nearest x - x| ≤ x := by
  have hle := abs_roundDigits_sub_le_grid .toEven (b := 2) (p := 53) (l := -1074)
    Nat.one_lt_two hx 0
  rwa [Nat.cast_zero, zero_mul, zero_sub, abs_neg, abs_of_nonneg hx] at hle

/-- The value of a positive number is preferred to every other value. -/
theorem preferred_ofRat (hx : 0 < x) (hfinite : (ofRat false x).isFinite = true)
    (hw : w.isFinite = true) (hne : w.value ≠ (ofRat false x).value) :
    Preferred x (ofRat false x) w := by
  rw [value_ofRat hx.le hfinite] at hne
  rw [Preferred, value_ofRat hx.le hfinite]
  rcases lt_or_ge w.value 0 with hneg | hnonneg
  · -- On the other side of zero everything is further away than zero is.
    left
    rw [abs_sub_comm w.value, abs_of_pos (sub_pos.mpr (hneg.trans hx))]
    have hzero := abs_nearest_sub_le_self hx.le
    linarith
  · obtain ⟨s, m, e, hm, rfl⟩ := exists_eq_finite hw
    have hvalue : (finite s m e hm).value = m * (2 : Rat) ^ e := value_eq_magnitude hnonneg
    rw [hvalue] at hne ⊢
    obtain ⟨hfits, hleast, -⟩ := hm
    have hcloser := closer_or_tie_roundDigits (b := 2) (p := 53) (l := -1074) Nat.one_lt_two
      (Nat.succ_pos 52) hx hfits hleast (by rwa [Nat.cast_ofNat])
    rw [Nat.cast_ofNat] at hcloser
    refine hcloser.imp_right fun ⟨heq, heven, hodd⟩ => ?_
    exact ⟨heq, isEven_ofRat hx hfinite heven, by simpa [isEven] using hodd⟩

/-- **A magnitude is made into its value.** -/
theorem roundsTo_ofRat (hx : 0 ≤ x) : RoundsTo x (ofRat false x) := by
  rcases ofRat_cases false hx with ⟨hlt, -⟩ | ⟨hge, heq⟩
  · have hbelow := (nearest_lt_iff hx).mp hlt
    have hfinite : (ofRat false x).isFinite = true := (isFinite_ofRat_iff hx).mpr hlt
    refine .finite hfinite (by rwa [abs_of_nonneg hx]) fun w hw hne => ?_
    rcases hx.eq_or_lt with rfl | hpos
    · have hzero : (ofRat false 0).value = 0 := by rw [value_ofRat le_rfl hfinite, nearest_zero]
      rw [Preferred, hzero, sub_zero, sub_zero, abs_zero]
      exact .inl (abs_pos.mpr (by rwa [← hzero]))
    · exact preferred_ofRat hpos hfinite hw hne
  · have habove := not_lt.mp fun hlt => not_lt.mpr hge ((nearest_lt_iff hx).mpr hlt)
    have hsign : decide (x < 0) = false := decide_eq_false (not_lt.mpr hx)
    rw [heq, ← hsign]
    exact .infinite (by rwa [abs_of_nonneg hx])

/-- **A decimal is made into its value**, whatever its size. -/
theorem roundsTo_ofDecimal (d : Decimal) : RoundsTo d.value (ofDecimal d) := by
  have hvalue := roundsTo_ofRat d.magnitude_nonneg
  rw [ofDecimal_eq_ofRat, Decimal.value]
  cases d.negative with
  | false => exact hvalue
  | true =>
    rw [ofRat_true]
    exact hvalue.neg

theorem isNegative_ofDecimal (d : Decimal) : (ofDecimal d).isNegative = d.negative := by
  rw [ofDecimal_eq_ofRat, isNegative_ofRat _ d.magnitude_nonneg]

/-- **And into no other value.** -/
theorem eq_ofDecimal_iff {d : Decimal} :
    ofDecimal d = v ↔ v.isNegative = d.negative ∧ RoundsTo d.value v := by
  constructor
  · rintro rfl
    exact ⟨isNegative_ofDecimal d, roundsTo_ofDecimal d⟩
  · rintro ⟨hsign, hvalue⟩
    exact (roundsTo_ofDecimal d).unique hvalue ((isNegative_ofDecimal d).trans hsign.symm)

end Reckoner.Binary64
