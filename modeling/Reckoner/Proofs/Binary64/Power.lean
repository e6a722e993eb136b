import Reckoner.Operation
import Reckoner.Proofs.Binary64.Order
/-!
# `Reckoner/Proofs/Binary64/Power.lean` — powers and their exceptional cases

The floating-point standard gives every pair of values a power. It lays down which one it is for zeros,
infinities and not a number, and of all others it says the sign: a power of a negative number is
negative if the exponent is odd. This is `IsStandardPower`, which leaves open how a power is rounded,
and `pow` is such a function (`isStandardPower_pow`).

The operator asks for a power by way of a function that sets the exceptional cases apart, and then has to
find their values again, from the operands alone:

> **It finds the value in all cases but one** (`Operation.power_eq_pow_iff`). The power of minus zero
> to a negative odd exponent is minus infinity, and the operator gives plus infinity.

Every other sign is right, that of a power that is too large included.
-/

set_option autoImplicit false

namespace Reckoner

namespace Binary64

/-! ## The standard -/

/-- The value is a number, or infinite, and has this sign. -/
def HasSign (negative : Bool) (v : Binary64) : Prop :=
  v.isNaN = false ∧ v.isNegative = negative

/-- What the floating-point standard says of powers, whatever the rounding. -/
structure IsStandardPower (f : Binary64 → Binary64 → Binary64) : Prop where
  exponent_zero : ∀ base exponent, exponent.isZero = true → f base exponent = one
  base_one : ∀ exponent, f one exponent = one
  base_nan : ∀ exponent, exponent.isZero = false → f .nan exponent = .nan
  exponent_nan : ∀ base, base ≠ one → f base .nan = .nan
  minus_one : ∀ negative, f one.neg (.infinity negative) = one
  above_one : ∀ base, one.lt base.abs = true →
    f base (.infinity false) = .infinity false ∧ f base (.infinity true) = zero false
  below_one : ∀ base, base.abs.lt one = true →
    f base (.infinity false) = zero false ∧ f base (.infinity true) = .infinity false
  base_zero : ∀ base exponent, base.isZero = true → exponent.isFinite = true →
    (0 < exponent.value → f base exponent = zero (base.isNegative && exponent.isOddInteger)) ∧
    (exponent.value < 0 → f base exponent = .infinity (base.isNegative && exponent.isOddInteger))
  base_infinite : ∀ base exponent, base.isInfinite = true → exponent.isFinite = true →
    (0 < exponent.value →
      f base exponent = .infinity (base.isNegative && exponent.isOddInteger)) ∧
    (exponent.value < 0 → f base exponent = zero (base.isNegative && exponent.isOddInteger))
  fractional : ∀ base exponent, base.isFinite = true → base.value < 0 → exponent.isFinite = true →
    exponent.isInteger = false → f base exponent = .nan
  sign : ∀ base exponent, base.isFinite = true → base.value ≠ 0 → exponent.isFinite = true →
    (0 < base.value ∨ exponent.isInteger = true) →
    HasSign (base.isNegative && exponent.isOddInteger) (f base exponent)

/-! ## The sign of a rounded power -/

theorem HasSign.eq_infinity {negative : Bool} {v : Binary64} (h : HasSign negative v)
    (hinfinite : v.isInfinite = true) : v = .infinity negative := by
  cases v with
  | nan => cases hinfinite
  | infinity sign => exact congrArg infinity h.2
  | finite sign m e canonical => cases hinfinite

theorem hasSign_ofParts (negative : Bool) (m : Nat) (e : Int) :
    HasSign negative (ofParts negative m e) := by
  unfold ofParts
  split
  · exact ⟨rfl, rfl⟩
  · exact ⟨rfl, rfl⟩

theorem hasSign_ofRat (negative : Bool) (x : Rat) : HasSign negative (ofRat negative x) := by
  unfold ofRat
  split
  · exact ⟨rfl, rfl⟩
  · simp only
    split
    · exact hasSign_ofParts negative _ _
    · exact hasSign_ofParts negative _ _

/-- Whatever the precision at which it is settled, a power is the value of some rational. -/
theorem exists_eq_of_settle {round : Rat → Binary64} {power? : Nat → Option Enclosure}
    {fuel bits : Nat} {v : Binary64} (h : settle round power? fuel bits = some v) :
    ∃ x, v = round x := by
  induction fuel generalizing bits with
  | zero =>
    obtain ⟨enclosure, -, rfl⟩ := Option.map_eq_some_iff.mp h
    exact ⟨_, rfl⟩
  | succ fuel ih =>
    obtain ⟨enclosure, -, hsettled⟩ := Option.bind_eq_some_iff.mp h
    split at hsettled
    · cases hsettled
      exact ⟨_, rfl⟩
    · exact ih hsettled

theorem hasSign_powAboveOne (negative inverted : Bool) (base : Rat) (n k : Nat) :
    HasSign negative (powAboveOne negative inverted base n k) := by
  unfold powAboveOne
  simp only
  split
  · exact hasSign_ofRat negative _
  · split
    · next hsettle =>
      obtain ⟨x, rfl⟩ := exists_eq_of_settle hsettle
      exact hasSign_ofRat negative _
    · cases inverted with
      | true => exact ⟨rfl, rfl⟩
      | false => exact ⟨rfl, rfl⟩

theorem hasSign_powRat (negative : Bool) (base exponent : Rat) :
    HasSign negative (powRat negative base exponent) := by
  unfold powRat
  simp only
  split
  · exact hasSign_ofRat negative _
  · split
    · exact hasSign_powAboveOne negative _ _ _ _
    · exact hasSign_powAboveOne negative _ _ _ _

/-! ## The power is a standard one -/

theorem one_eq : one = .finite false 4503599627370496 (-52) (by decide) := by
  decide +kernel

theorem value_one : one.value = 1 := by
  rw [one_eq]
  norm_num [value, isNegative, magnitude]

theorem kind_of_one : one.isFinite = true ∧ one.isZero = false ∧ one.isInfinite = false ∧
    one.abs = one ∧ one.neg ≠ one := by
  rw [one_eq]
  exact ⟨rfl, rfl, rfl, rfl, nofun⟩

theorem isZero_eq_false {v : Binary64} (hv : v.isFinite = true) (hne : v.value ≠ 0) :
    v.isZero = false := by
  rw [Bool.eq_false_iff]
  exact mt (isZero_iff_value_eq_zero hv).mp hne

/-- A zero is an integer, and an even one. -/
theorem isInteger_of_isZero {v : Binary64} (h : v.isZero = true) :
    v.isInteger = true ∧ v.isOddInteger = false := by
  have hmag : v.magnitude = 0 := by
    rw [eq_zero_of_isZero h, magnitude_zero]
  have hfinite : v.isFinite = true := by
    rw [eq_zero_of_isZero h]
    rfl
  rw [isOddInteger, isInteger, hmag, hfinite]
  exact ⟨rfl, rfl⟩

theorem kind_of_isFinite {v : Binary64} (h : v.isFinite = true) :
    v.isNaN = false ∧ v.isInfinite = false := by
  cases v with
  | nan => cases h
  | infinity negative => cases h
  | finite negative m e canonical => exact ⟨rfl, rfl⟩

/-- With a finite exponent, the standard leaves the zero exponent and the base one to be told first. -/
theorem pow_of_isFinite {base exponent : Binary64} (hbase : base ≠ one) (hnan : base.isNaN = false)
    (hexponent : exponent.isFinite = true) (hne : exponent.isZero = false) :
    pow base exponent =
      if base.isZero then
        if exponent.isNegative then .infinity (base.isNegative && exponent.isOddInteger)
        else zero (base.isNegative && exponent.isOddInteger)
      else if base.isInfinite then
        if exponent.isNegative then zero (base.isNegative && exponent.isOddInteger)
        else .infinity (base.isNegative && exponent.isOddInteger)
      else if base.isNegative && !exponent.isInteger then .nan
      else powRat (base.isNegative && exponent.isOddInteger) base.magnitude exponent.value := by
  obtain ⟨hnumber, hbounded⟩ := kind_of_isFinite hexponent
  simp only [pow, hbase, hnan, hne, hnumber, hbounded, decide_false, Bool.or_self,
    Bool.false_eq_true, ↓reduceIte]

/-- Of a zero base only the sign counts. -/
theorem pow_zero_base {base exponent : Binary64} (hbase : base.isZero = true)
    (hexponent : exponent.isFinite = true) (hne : exponent.isZero = false) :
    pow base exponent =
      if exponent.isNegative then .infinity (base.isNegative && exponent.isOddInteger)
      else zero (base.isNegative && exponent.isOddInteger) := by
  have hone : base ≠ one := by
    rintro rfl
    rw [kind_of_one.2.1] at hbase
    cases hbase
  have hnan : base.isNaN = false := by
    rw [eq_zero_of_isZero hbase]
    rfl
  rw [pow_of_isFinite hone hnan hexponent hne, if_pos hbase]

/-- An infinite base is the inverse of a zero. -/
theorem pow_infinite_base {base exponent : Binary64} (hbase : base.isInfinite = true)
    (hexponent : exponent.isFinite = true) (hne : exponent.isZero = false) :
    pow base exponent =
      if exponent.isNegative then zero (base.isNegative && exponent.isOddInteger)
      else .infinity (base.isNegative && exponent.isOddInteger) := by
  have hone : base ≠ one := by
    rintro rfl
    rw [kind_of_one.2.2.1] at hbase
    cases hbase
  obtain ⟨hnan, hzero⟩ : base.isNaN = false ∧ ¬base.isZero = true := by
    cases base with
    | nan => cases hbase
    | infinity negative => exact ⟨rfl, nofun⟩
    | finite negative m e canonical => cases hbase
  rw [pow_of_isFinite hone hnan hexponent hne, if_neg hzero, if_pos hbase]

/-- Any other base has a power, unless it is negative and the exponent is a fraction. -/
theorem pow_finite_base {base exponent : Binary64} (hone : base ≠ one)
    (hbase : base.isFinite = true) (hvalue : base.value ≠ 0) (hexponent : exponent.isFinite = true)
    (hne : exponent.isZero = false) :
    pow base exponent =
      if base.isNegative && !exponent.isInteger then .nan
      else powRat (base.isNegative && exponent.isOddInteger) base.magnitude exponent.value := by
  obtain ⟨hnan, hbounded⟩ := kind_of_isFinite hbase
  rw [pow_of_isFinite hone hnan hexponent hne, if_neg (by simp [isZero_eq_false hbase hvalue]),
    if_neg (by simp [hbounded])]

theorem pow_infinity {base : Binary64} (hbase : base ≠ one) (hnan : base.isNaN = false)
    (negative : Bool) : pow base (.infinity negative) = powInfinite base negative := by
  have hinfinity : (infinity negative).isZero = false ∧ (infinity negative).isNaN = false ∧
      (infinity negative).isInfinite = true ∧ (infinity negative).isNegative = negative :=
    ⟨rfl, rfl, rfl, rfl⟩
  simp only [pow, hbase, hnan, hinfinity, decide_false, Bool.or_self, Bool.false_eq_true,
    ↓reduceIte]

/-- A magnitude that is not one tends to something. -/
theorem pow_infinity_of_abs_ne {base : Binary64}
    (h : one.lt base.abs = true ∨ base.abs.lt one = true) (negative : Bool) :
    pow base (.infinity negative) = powInfinite base negative := by
  have hone : base ≠ one := by
    rintro rfl
    rw [kind_of_one.2.2.2.1, lt_iff_value_lt kind_of_one.1 kind_of_one.1, or_self] at h
    exact lt_irrefl _ h
  have hnan : base.isNaN = false := by
    cases base with
    | nan =>
      rw [one_eq] at h
      rcases h with h | h
      · cases h
      · cases h
    | infinity negative => rfl
    | finite negative m e canonical => rfl
  exact pow_infinity hone hnan negative

theorem powInfinite_of_above_one {base : Binary64} (h : one.lt base.abs = true) :
    powInfinite base false = .infinity false ∧ powInfinite base true = zero false := by
  cases base with
  | nan =>
    rw [one_eq] at h
    cases h
  | infinity negative => simp [powInfinite, isInfinite]
  | finite negative m e canonical =>
    have habove : 1 < (finite negative m e canonical).magnitude := by
      rw [lt_iff_value_lt kind_of_one.1 rfl, value_one] at h
      exact h
    simp [powInfinite, isInfinite, habove, habove.ne']

theorem powInfinite_of_below_one {base : Binary64} (h : base.abs.lt one = true) :
    powInfinite base false = zero false ∧ powInfinite base true = .infinity false := by
  cases base with
  | nan => cases h
  | infinity negative =>
    rw [one_eq] at h
    cases h
  | finite negative m e canonical =>
    have hbelow : (finite negative m e canonical).magnitude < 1 := by
      rw [lt_iff_value_lt rfl kind_of_one.1, value_one] at h
      exact h
    simp [powInfinite, isInfinite, hbelow.ne, hbelow.not_gt]

theorem isStandardPower_pow : IsStandardPower pow where
  exponent_zero base exponent h := by simp [pow, h]
  base_one exponent := by simp [pow]
  base_nan exponent h := by
    have hone : (nan : Binary64) ≠ one := by rw [one_eq]; nofun
    simp [pow, h, hone, isNaN]
  exponent_nan base hbase := by simp [pow, hbase, isNaN, isZero]
  minus_one negative := by
    obtain ⟨hnan, hbounded, hmag⟩ : one.neg.isNaN = false ∧ one.neg.isInfinite = false ∧
        one.neg.magnitude = 1 := by
      rw [one_eq]
      exact ⟨rfl, rfl, by norm_num [neg, magnitude]⟩
    rw [pow_infinity kind_of_one.2.2.2.2 hnan]
    simp [powInfinite, hbounded, hmag]
  above_one base h := by
    rw [pow_infinity_of_abs_ne (.inl h), pow_infinity_of_abs_ne (.inl h)]
    exact powInfinite_of_above_one h
  below_one base h := by
    rw [pow_infinity_of_abs_ne (.inr h), pow_infinity_of_abs_ne (.inr h)]
    exact powInfinite_of_below_one h
  base_zero base exponent hbase hexponent := by
    constructor
    · intro hpos
      rw [pow_zero_base hbase hexponent (isZero_eq_false hexponent hpos.ne'),
        (isNegative_of_value_pos hpos).1]
      rfl
    · intro hneg
      rw [pow_zero_base hbase hexponent (isZero_eq_false hexponent hneg.ne),
        (isNegative_of_value_neg hneg).1]
      rfl
  base_infinite base exponent hbase hexponent := by
    constructor
    · intro hpos
      rw [pow_infinite_base hbase hexponent (isZero_eq_false hexponent hpos.ne'),
        (isNegative_of_value_pos hpos).1]
      rfl
    · intro hneg
      rw [pow_infinite_base hbase hexponent (isZero_eq_false hexponent hneg.ne),
        (isNegative_of_value_neg hneg).1]
      rfl
  fractional base exponent hbase hnegative hexponent hfraction := by
    have hone : base ≠ one := by
      rintro rfl
      rw [value_one] at hnegative
      exact absurd hnegative (by norm_num)
    have hzero : exponent.isZero = false := by
      rw [Bool.eq_false_iff]
      intro hzero
      rw [(isInteger_of_isZero hzero).1] at hfraction
      cases hfraction
    rw [pow_finite_base hone hbase hnegative.ne hexponent hzero,
      (isNegative_of_value_neg hnegative).1, hfraction]
    rfl
  sign base exponent hbase hne hexponent hreal := by
    by_cases hzero : exponent.isZero = true
    · have heq : pow base exponent = one := by simp [pow, hzero]
      rw [heq, (isInteger_of_isZero hzero).2, Bool.and_false, one_eq]
      exact ⟨rfl, rfl⟩
    by_cases hone : base = one
    · have heq : pow base exponent = one := by simp [pow, hone]
      rw [heq, hone, one_eq]
      exact ⟨rfl, rfl⟩
    have hdomain : (base.isNegative && !exponent.isInteger) = false := by
      rcases hreal with hpos | hinteger
      · rw [(isNegative_of_value_pos hpos).1, Bool.false_and]
      · rw [hinteger, Bool.not_true, Bool.and_false]
    rw [pow_finite_base hone hbase hne hexponent (by simpa using hzero), hdomain]
    exact hasSign_powRat _ _ _

end Binary64

/-! ## The operator -/

namespace Operation

open Binary64

variable {base exponent : Binary64}

/-- A negative number has no power to a fraction, and the operator gives none. -/
theorem power_of_fractional (hbase : base.isFinite = true) (hnegative : base.value < 0)
    (hexponent : exponent.isFinite = true) (hfraction : exponent.isInteger = false) :
    power base exponent = .nan := by
  have hbelow : base.lt (zero false) = true := by
    rwa [lt_iff_value_lt hbase rfl, value_zero]
  have hzero := isZero_eq_false hbase hnegative.ne
  simp [power, pow?, hbase, hbelow, hexponent, hfraction, hzero]

/-- The operator does not look at the sign of a zero base. -/
theorem power_of_isZero (hbase : base.isZero = true) (hexponent : exponent.lt (zero false) = true) :
    power base exponent = .infinity false := by
  simp [power, pow?, hbase, lt_zero_of_isZero hbase, hexponent]

/-- With the two cases without a real power out of the way, only a power that is too large is left to
be put in. -/
theorem power_of_regular (hdomain : base.isFinite = true → base.value < 0 →
      exponent.isFinite = true → exponent.isInteger = true)
    (hpole : base.isZero = true → exponent.lt (zero false) = false) :
    power base exponent =
      if base.isFinite && exponent.isFinite && (pow base exponent).isInfinite then
        .infinity (base.lt (zero false) && exponent.isOddInteger)
      else pow base exponent := by
  have hreal : (base.isFinite && base.lt (zero false) &&
      (exponent.isFinite && !exponent.isInteger)) = false := by
    rw [Bool.eq_false_iff]
    intro hfault
    simp only [Bool.and_eq_true, Bool.not_eq_true'] at hfault
    obtain ⟨⟨hbase, hbelow⟩, hexponent, hfraction⟩ := hfault
    rw [lt_iff_value_lt hbase rfl, value_zero] at hbelow
    rw [hdomain hbase hbelow hexponent] at hfraction
    cases hfraction
  have hbounded : (base.isZero && exponent.lt (zero false)) = false := by
    cases hzero : base.isZero with
    | true => rw [hpole hzero, Bool.and_false]
    | false => rfl
  simp only [power, pow?, hreal, hbounded, Bool.false_eq_true, ↓reduceIte]
  split
  · next hfound =>
    split at hfound
    · cases hfound
    · next hsmall =>
      cases hfound
      rw [if_neg hsmall]
  · next hfault =>
    split at hfault <;> cases hfault
  · next hfault =>
    split at hfault
    · next hlarge => rw [if_pos hlarge]
    · cases hfault

/-- A zero has no infinite power, but where it is divided by. -/
theorem isInfinite_pow_of_isZero (hbase : base.isZero = true) (hexponent : exponent.isFinite = true)
    (hpole : exponent.lt (zero false) = false) : (pow base exponent).isInfinite = false := by
  rcases lt_trichotomy exponent.value 0 with hnegative | hzero | hpos
  · rw [Bool.eq_false_iff] at hpole
    rw [Ne, lt_iff_value_lt hexponent rfl, value_zero] at hpole
    exact absurd hnegative hpole
  · rw [isStandardPower_pow.exponent_zero base exponent
      ((isZero_iff_value_eq_zero hexponent).mpr hzero), one_eq]
    rfl
  · rw [(isStandardPower_pow.base_zero base exponent hbase hexponent).1 hpos]
    rfl

/-- In all other cases it gives the power, and a power that is too large has the sign of the standard:
the base is no zero then, so its sign can be told by comparing. -/
theorem power_eq_pow (hdomain : base.isFinite = true → base.value < 0 → exponent.isFinite = true →
      exponent.isInteger = true)
    (hpole : base.isZero = true → exponent.lt (zero false) = false) :
    power base exponent = pow base exponent := by
  rw [power_of_regular hdomain hpole]
  split
  · next hlarge =>
    simp only [Bool.and_eq_true] at hlarge
    obtain ⟨⟨hbase, hexponent⟩, hinfinite⟩ := hlarge
    have hne : base.value ≠ 0 := by
      intro hvalue
      have hzero := (isZero_iff_value_eq_zero hbase).mpr hvalue
      rw [isInfinite_pow_of_isZero hzero hexponent (hpole hzero)] at hinfinite
      cases hinfinite
    have hreal : 0 < base.value ∨ exponent.isInteger = true := by
      rcases lt_or_gt_of_ne hne with hnegative | hpos
      · exact .inr (hdomain hbase hnegative hexponent)
      · exact .inl hpos
    have hsign := isStandardPower_pow.sign base exponent hbase hne hexponent hreal
    rw [hsign.eq_infinity hinfinite, lt_zero_eq_isNegative hbase hne]
  · rfl

/-! ## Division by zero -/

/-- The standard has an infinity with the sign that the power would have. -/
theorem pow_of_isZero (hbase : base.isZero = true) (hexponent : exponent.lt (zero false) = true) :
    pow base exponent = .infinity (base.isNegative && exponent.isOddInteger) := by
  cases exponent with
  | nan => cases hexponent
  | infinity negative =>
    obtain rfl : negative = true := hexponent
    have hbelow : base.abs.lt one = true := by
      rw [eq_zero_of_isZero hbase]
      show (zero false).lt one = true
      rw [lt_iff_value_lt rfl kind_of_one.1, value_zero, value_one]
      exact one_pos
    rw [(isStandardPower_pow.below_one base hbelow).2]
    exact congrArg infinity (Bool.and_false _).symm
  | finite negative m e canonical =>
    rw [lt_iff_value_lt rfl rfl, value_zero] at hexponent
    exact (isStandardPower_pow.base_zero base _ hbase rfl).2 hexponent

/-- An odd integer is no zero, so its sign can be told by comparing. -/
theorem lt_zero_of_isOddInteger (hodd : exponent.isOddInteger = true) :
    exponent.lt (zero false) = exponent.isNegative := by
  have hfinite : exponent.isFinite = true := by
    simp only [isOddInteger, isInteger, Bool.and_eq_true] at hodd
    exact hodd.1.1
  refine lt_zero_eq_isNegative hfinite fun hvalue => ?_
  rw [(isInteger_of_isZero ((isZero_iff_value_eq_zero hfinite).mpr hvalue)).2] at hodd
  cases hodd

/-- Minus zero to a negative odd integer. -/
def IsMinusPole (base exponent : Binary64) : Prop :=
  base = zero true ∧ exponent.isNegative = true ∧ exponent.isOddInteger = true

theorem isMinusPole_iff : IsMinusPole base exponent ↔
    (base.isZero = true ∧ exponent.lt (zero false) = true) ∧
      (base.isNegative && exponent.isOddInteger) = true := by
  rw [Bool.and_eq_true]
  constructor
  · rintro ⟨rfl, hnegative, hodd⟩
    exact ⟨⟨rfl, (lt_zero_of_isOddInteger hodd).trans hnegative⟩, rfl, hodd⟩
  · rintro ⟨⟨hzero, hbelow⟩, hnegative, hodd⟩
    refine ⟨?_, (lt_zero_of_isOddInteger hodd).symm.trans hbelow, hodd⟩
    rw [eq_zero_of_isZero hzero, hnegative]

/-- The operator never fails, and gives the value that the standard has for the power: of a negative
number to a fraction, of a zero to a negative number, of numbers whose power is too large, and of
infinities and not a number. It does so for all operands but minus zero with a negative odd integer,
where the standard has minus infinity and the operator gives plus infinity. -/
theorem power_eq_pow_iff (base exponent : Binary64) : IsStandardPower pow ∧
    (power base exponent = pow base exponent ↔ ¬IsMinusPole base exponent) ∧
    (IsMinusPole base exponent →
      power base exponent = .infinity false ∧ pow base exponent = .infinity true) := by
  refine ⟨isStandardPower_pow, ?_⟩
  by_cases hpole : base.isZero = true ∧ exponent.lt (zero false) = true
  · rw [isMinusPole_iff, power_of_isZero hpole.1 hpole.2, pow_of_isZero hpole.1 hpole.2]
    cases base.isNegative && exponent.isOddInteger with
    | true => simp [hpole]
    | false => simp
  · have heq : power base exponent = pow base exponent := by
      by_cases hdomain : base.isFinite = true → base.value < 0 → exponent.isFinite = true →
          exponent.isInteger = true
      · exact power_eq_pow hdomain fun hzero => by simpa [hzero] using hpole
      · push Not at hdomain
        obtain ⟨hbase, hnegative, hexponent, hfraction⟩ := hdomain
        rw [Ne, Bool.not_eq_true] at hfraction
        rw [power_of_fractional hbase hnegative hexponent hfraction,
          isStandardPower_pow.fractional base exponent hbase hnegative hexponent hfraction]
    have hregular : ¬IsMinusPole base exponent := fun hminus => hpole (isMinusPole_iff.mp hminus).1
    exact ⟨⟨fun _ => hregular, fun _ => heq⟩, fun hminus => absurd hminus hregular⟩

/-- One divided by minus zero, as a power. -/
theorem power_minus_zero_minus_one : power (zero true) one.neg = .infinity false ∧
    pow (zero true) one.neg = .infinity true := by
  decide +kernel

end Operation

end Reckoner
