import Mathlib.Data.List.TakeDrop
import Reckoner.Decimal.Layout
import Reckoner.Decimal.Reader
import Reckoner.Proofs.Decimal.Significant
/-!
# `Reckoner/Proofs/Decimal/Reading.lean` — a number laid out is read back

Both layouts put a sign in front of digits with a point among them, and one puts an exponent behind.

> **A layout denotes its number.** A decimal written out is read as a literal, and as a numeral, of
> the same number (`exists_positional`, `ofNumeral?_positional`); with an exponent, and enough
> places for its digits, it is read as a numeral of the same number (`ofNumeral?_scientific`).

The decimal that is read is not the decimal that was laid out: a text does not show whether its
zeros belong to the coefficient. So it is the numbers that are equal.
-/

set_option autoImplicit false

namespace Reckoner.Decimal

/-! ## Digits -/

theorem isDigit_of_mem_digits {d : Decimal} {c : Char} (h : c ∈ d.digits) : c.isDigit = true :=
  Nat.isDigit_of_mem_toDigits (by simp) (by simp) h

theorem isDigit_of_mem_zeros {n : Nat} {c : Char} (h : c ∈ List.replicate n '0') :
    c.isDigit = true := by
  rw [List.eq_of_mem_replicate h]
  rfl

theorem digits_ne_nil (d : Decimal) : d.digits ≠ [] := Nat.toDigits_ne_nil

/-- The rest of a text does not go on with a digit. -/
def NoDigitFirst (rest : List Char) : Prop := ∀ c ∈ rest.head?, c.isDigit = false

theorem span_digits {digits rest : List Char} (hdigits : ∀ c ∈ digits, c.isDigit = true)
    (hrest : NoDigitFirst rest) : (digits ++ rest).span Char.isDigit = (digits, rest) := by
  have htake : rest.takeWhile Char.isDigit = [] ∧ rest.dropWhile Char.isDigit = rest := by
    cases rest with
    | nil => exact ⟨rfl, rfl⟩
    | cons c rest =>
      have hc := hrest c rfl
      exact ⟨by simp [hc], by simp [hc]⟩
  rw [List.span_eq_takeWhile_dropWhile, List.takeWhile_append_of_pos hdigits,
    List.dropWhile_append_of_pos hdigits, htake.1, htake.2, List.append_nil]

theorem ofDigitChars_zeros_append (n : Nat) (digits : List Char) :
    Nat.ofDigitChars 10 (List.replicate n '0' ++ digits) 0 = Nat.ofDigitChars 10 digits 0 := by
  rw [Nat.ofDigitChars_append, Nat.ofDigitChars_replicate_zero, Nat.mul_zero]

theorem ofDigitChars_append_zeros (n : Nat) (digits : List Char) :
    Nat.ofDigitChars 10 (digits ++ List.replicate n '0') 0 =
      Nat.ofDigitChars 10 digits 0 * 10 ^ n := by
  rw [Nat.ofDigitChars_append, Nat.ofDigitChars_replicate_zero, Nat.mul_comm]

theorem ofDigitChars_digits (d : Decimal) : Nat.ofDigitChars 10 d.digits 0 = d.coefficient :=
  Nat.ofDigitChars_ten_toDigits

/-! ## Literals -/

/-- The two runs of digits of a literal, of which the first is not empty. -/
structure AreDigits (whole fraction : List Char) : Prop where
  whole_ne_nil : whole ≠ []
  whole_digits : ∀ c ∈ whole, c.isDigit = true
  fraction_digits : ∀ c ∈ fraction, c.isDigit = true

variable {whole fraction : List Char}

theorem point_noDigitFirst (rest : List Char) : NoDigitFirst ('.' :: rest) := by
  intro c hc
  obtain rfl : '.' = c := by simpa using hc
  rfl

theorem fraction_noDigitFirst (fraction : List Char) :
    NoDigitFirst (if fraction.isEmpty then [] else '.' :: fraction) := by
  cases fraction with
  | nil => intro c hc; exact absurd hc (by simp)
  | cons c rest => exact point_noDigitFirst _

theorem mem_literal {c : Char} (h : AreDigits whole fraction) (hc : c ∈ literal whole fraction) :
    c.isDigit = true ∨ c = '.' := by
  rcases List.mem_append.mp hc with hc | hc
  · exact .inl (h.whole_digits c hc)
  · cases fraction with
    | nil => exact absurd hc (by simp)
    | cons f rest =>
      rcases List.mem_cons.mp hc with rfl | hc
      · exact .inr rfl
      · exact .inl (h.fraction_digits c hc)

theorem point_not_mem {digits : List Char} (h : ∀ c ∈ digits, c.isDigit = true) : '.' ∉ digits := by
  intro hmem
  exact absurd (h _ hmem) (by simp)

theorem isLiteral_literal (h : AreDigits whole fraction) :
    isLiteral (literal whole fraction) = true := by
  have herase : (literal whole fraction).erase '.' = whole ++ fraction := by
    rw [literal, List.erase_append_right _ (point_not_mem h.whole_digits)]
    cases fraction with
    | nil => rfl
    | cons c rest => simp
  have hall : (whole ++ fraction).all Char.isDigit = true :=
    List.all_eq_true.mpr (List.forall_mem_append.mpr ⟨h.whole_digits, h.fraction_digits⟩)
  simp [isLiteral, herase, hall, h.whole_ne_nil]

/-- **A literal is read as its digits.** -/
theorem ofLiteral?_literal (h : AreDigits whole fraction) :
    ofLiteral? (literal whole fraction) = some (ofDigits false whole fraction) := by
  have hspan := span_digits h.whole_digits (fraction_noDigitFirst fraction)
  rw [List.span_eq_takeWhile_dropWhile] at hspan
  rw [ofLiteral?, if_pos (isLiteral_literal h), literal, (Prod.mk.inj hspan).1,
    (Prod.mk.inj hspan).2]
  cases fraction <;> rfl

/-! ## Numerals -/

/-- The rest of a text goes on neither with a digit nor with a point, so a literal ends before it. -/
def EndsLiteral (rest : List Char) : Prop := ∀ c ∈ rest.head?, c.isDigit = false ∧ c ≠ '.'

theorem endsLiteral_nil : EndsLiteral [] := by
  intro c hc
  exact absurd hc (by simp)

theorem endsLiteral_exponent (e : Int) : EndsLiteral ('E' :: exponentText e) := by
  intro c hc
  obtain rfl : 'E' = c := by simpa using hc
  decide

theorem EndsLiteral.noDigitFirst {rest : List Char} (h : EndsLiteral rest) : NoDigitFirst rest :=
  fun c hc => (h c hc).1

theorem splitSign_signText (negative : Bool) (h : AreDigits whole fraction) (rest : List Char) :
    splitSign (signText negative ++ (whole ++ rest)) = (negative, whole ++ rest) := by
  cases negative with
  | true => rfl
  | false =>
    cases whole with
    | nil => exact absurd rfl h.whole_ne_nil
    | cons c whole =>
      have hc := h.whole_digits c (by simp)
      show splitSign (c :: (whole ++ rest)) = _
      unfold splitSign
      split
      · next heq => exact absurd hc (by simp [(List.cons.inj heq).1])
      · next heq => exact absurd hc (by simp [(List.cons.inj heq).1])
      · rfl

theorem splitFraction_point (h : ∀ c ∈ fraction, c.isDigit = true) {rest : List Char}
    (hrest : NoDigitFirst rest) :
    splitFraction ('.' :: (fraction ++ rest)) = (fraction, rest) :=
  span_digits h hrest

theorem splitFraction_of_endsLiteral {rest : List Char} (h : EndsLiteral rest) :
    splitFraction rest = ([], rest) := by
  unfold splitFraction
  split
  · exact absurd rfl (h '.' rfl).2
  · rfl

theorem ofNumeral?_point (negative : Bool) (h : AreDigits whole fraction) {rest : List Char}
    (hrest : NoDigitFirst rest) :
    ofNumeral? (signText negative ++ (whole ++ '.' :: (fraction ++ rest))) =
      (readExponent? rest).map fun exponent =>
        { ofDigits negative whole fraction with exponent := -fraction.length + exponent } := by
  unfold ofNumeral?
  rw [splitSign_signText negative h]
  simp only
  rw [span_digits h.whole_digits (point_noDigitFirst _)]
  simp only
  rw [splitFraction_point h.fraction_digits hrest]
  simp [h.whole_ne_nil, ofDigits]

/-- **A literal behind a sign is read as its digits**, and what follows it as an exponent. -/
theorem ofNumeral?_literal_append (negative : Bool) (h : AreDigits whole fraction)
    {rest : List Char} (hrest : EndsLiteral rest) :
    ofNumeral? (signText negative ++ (literal whole fraction ++ rest)) =
      (readExponent? rest).map fun exponent =>
        { ofDigits negative whole fraction with exponent := -fraction.length + exponent } := by
  cases fraction with
  | nil =>
    have hbody : literal whole [] ++ rest = whole ++ rest := by simp [literal]
    unfold ofNumeral?
    rw [hbody, splitSign_signText negative h]
    simp only
    rw [span_digits h.whole_digits hrest.noDigitFirst]
    simp only
    rw [splitFraction_of_endsLiteral hrest]
    simp [h.whole_ne_nil, ofDigits]
  | cons c fraction =>
    have hbody : literal whole (c :: fraction) ++ rest = whole ++ '.' :: (c :: fraction ++ rest) := by
      simp [literal]
    rw [hbody, ofNumeral?_point negative h hrest.noDigitFirst]

theorem ofNumeral?_literal (negative : Bool) (h : AreDigits whole fraction) :
    ofNumeral? (signText negative ++ literal whole fraction) =
      some (ofDigits negative whole fraction) := by
  have hread := ofNumeral?_literal_append negative h endsLiteral_nil
  rw [List.append_nil] at hread
  simpa [readExponent?, ofDigits] using hread

theorem magnitude_ofDigits (negative : Bool) (whole fraction : List Char) :
    (ofDigits negative whole fraction).magnitude =
      Nat.ofDigitChars 10 (whole ++ fraction) 0 * (10 : Rat) ^ (-fraction.length : Int) := rfl

/-! ## Written out -/

theorem exists_pointed (places : Nat) {digits : List Char} (hp : places ≠ 0)
    (hdigits : ∀ c ∈ digits, c.isDigit = true) :
    ∃ whole fraction, AreDigits whole fraction ∧ pointed places digits = literal whole fraction ∧
      fraction.length = places ∧
      Nat.ofDigitChars 10 (whole ++ fraction) 0 = Nat.ofDigitChars 10 digits 0 := by
  obtain ⟨padded, hpadded⟩ : ∃ padded, List.replicate (places + 1 - digits.length) '0' ++ digits =
      padded := ⟨_, rfl⟩
  have hlength : places < padded.length := by
    rw [← hpadded, List.length_append, List.length_replicate]
    omega
  have hall : ∀ c ∈ padded, c.isDigit = true := by
    rw [← hpadded]
    exact List.forall_mem_append.mpr ⟨fun c => isDigit_of_mem_zeros, hdigits⟩
  refine ⟨padded.take (padded.length - places), padded.drop (padded.length - places),
    ⟨?_, fun c hc => hall c (List.mem_of_mem_take hc), fun c hc => hall c (List.mem_of_mem_drop hc)⟩,
    ?_, ?_, ?_⟩
  · intro hnil
    have := congrArg List.length hnil
    simp at this
    omega
  · have hne : (padded.drop (padded.length - places)).isEmpty = false := by
      rw [List.isEmpty_eq_false_iff]
      intro hnil
      have := congrArg List.length hnil
      simp at this
      omega
    simp [pointed, literal, hpadded, hne]
  · rw [List.length_drop]
    omega
  · rw [List.take_append_drop, ← hpadded, ofDigitChars_zeros_append]

/-- **A number written out is a literal behind a sign**, and its digits denote the number. -/
theorem exists_positional (d : Decimal) :
    ∃ whole fraction, AreDigits whole fraction ∧
      d.positional = signText d.negative ++ literal whole fraction ∧
      (ofDigits d.negative whole fraction).magnitude = d.magnitude := by
  unfold positional
  split
  · next he =>
    obtain ⟨k, hk⟩ : ∃ k : Nat, d.exponent = k := ⟨_, (Int.toNat_of_nonneg he).symm⟩
    refine ⟨d.digits ++ List.replicate d.exponent.toNat '0', [], ⟨?_, ?_, ?_⟩, ?_, ?_⟩
    · simp [digits_ne_nil]
    · exact List.forall_mem_append.mpr
        ⟨fun c => isDigit_of_mem_digits, fun c => isDigit_of_mem_zeros⟩
    · intro c hc
      exact absurd hc (by simp)
    · simp [literal]
    · rw [magnitude_ofDigits, List.append_nil, ofDigitChars_append_zeros, ofDigitChars_digits,
        magnitude, hk, Int.toNat_natCast, zpow_natCast]
      simp
  · next he =>
    obtain ⟨whole, fraction, hdigits, htext, hlength, hvalue⟩ := exists_pointed
      (-d.exponent).toNat (by omega) fun c (hc : c ∈ d.digits) => isDigit_of_mem_digits hc
    refine ⟨whole, fraction, hdigits, by rw [htext], ?_⟩
    rw [magnitude_ofDigits, hvalue, ofDigitChars_digits, magnitude, hlength]
    congr 2
    omega

/-- The sign of a number written out stands in front of it. -/
theorem positional_eq_append (d : Decimal) (hplus : d.negative = false) (negative : Bool) :
    { d with negative := negative }.positional = signText negative ++ d.positional := by
  rw [positional, positional, hplus]
  rfl

theorem mem_positional {d : Decimal} {c : Char} (h : c ∈ d.positional) :
    c = '-' ∨ c.isDigit = true ∨ c = '.' := by
  obtain ⟨whole, fraction, hdigits, htext, -⟩ := d.exists_positional
  rw [htext] at h
  rcases List.mem_append.mp h with hsign | hliteral
  · left
    cases hneg : d.negative with
    | true => simpa [signText, hneg] using hsign
    | false => exact absurd hsign (by simp [signText, hneg])
  · exact .inr (mem_literal hdigits hliteral)

theorem positional_ne_nil (d : Decimal) : d.positional ≠ [] := by
  obtain ⟨whole, fraction, hdigits, htext, -⟩ := d.exists_positional
  simp [htext, literal, hdigits.whole_ne_nil]

theorem ofNumeral?_positional (d : Decimal) :
    ∃ e, ofNumeral? d.positional = some e ∧ e.negative = d.negative ∧ e.magnitude = d.magnitude := by
  obtain ⟨whole, fraction, hdigits, htext, hvalue⟩ := d.exists_positional
  exact ⟨ofDigits d.negative whole fraction, by rw [htext, ofNumeral?_literal _ hdigits], rfl, hvalue⟩

/-! ## With an exponent -/

theorem readExponent?_exponentText (e : Int) : readExponent? ('E' :: exponentText e) = some e := by
  obtain ⟨digits, hdigits⟩ : ∃ digits, List.replicate (2 - (Nat.toDigits 10 e.natAbs).length) '0' ++
      Nat.toDigits 10 e.natAbs = digits := ⟨_, rfl⟩
  have hne : digits ≠ [] := by
    rw [← hdigits]
    simp [Nat.toDigits_ne_nil]
  have hall : digits.all Char.isDigit = true := by
    rw [List.all_eq_true, ← hdigits]
    exact List.forall_mem_append.mpr ⟨fun c => isDigit_of_mem_zeros,
      fun c => Nat.isDigit_of_mem_toDigits (by simp) (by simp)⟩
  have hvalue : Nat.ofDigitChars 10 digits 0 = e.natAbs := by
    rw [← hdigits, ofDigitChars_zeros_append, Nat.ofDigitChars_ten_toDigits]
  unfold exponentText readExponent?
  simp only [hdigits]
  by_cases he : e < 0
  · have habs : -(e.natAbs : Int) = e := by omega
    simp only [Int.natCast_natAbs] at habs
    simp [he, splitSign, hne, hall, hvalue, habs]
  · have habs : (e.natAbs : Int) = e := by omega
    simp only [Int.natCast_natAbs] at habs
    simp [he, splitSign, hne, hall, hvalue, habs]

/-- **A number with an exponent is a literal and an exponent behind a sign**, and these denote the
number. The literal has no more digits than the layout has places for. -/
theorem exists_scientific {d : Decimal} {places : Nat} (hfits : d.coefficient < 10 ^ (places + 1)) :
    ∃ whole fraction exponent, AreDigits whole fraction ∧
      d.scientific places = signText d.negative ++
        (literal whole fraction ++ 'E' :: exponentText exponent) ∧
      Nat.ofDigitChars 10 (whole ++ fraction) 0 *
        (10 : Rat) ^ (-(fraction.length : Int) + exponent) = d.magnitude ∧
      Nat.ofDigitChars 10 (whole ++ fraction) 0 < 10 ^ (places + 1) ∧
      -(fraction.length : Int) + exponent =
        if d.coefficient = 0 then 0 else d.leadingExponent - places := by
  have hlength : d.digits.length ≤ places + 1 :=
    (Nat.length_toDigits_le_iff (by simp) (Nat.succ_pos places)).mpr hfits
  have hpos : 0 < d.digits.length := Nat.length_toDigits_pos
  obtain ⟨fraction, hfraction⟩ : ∃ fraction, d.digits.drop 1 ++
      List.replicate (places - (d.digits.drop 1).length) '0' = fraction := ⟨_, rfl⟩
  obtain ⟨exponent, hexponent⟩ : ∃ exponent : Int,
      (if d.coefficient = 0 then (places : Int) else d.leadingExponent) = exponent := ⟨_, rfl⟩
  have hplaces : fraction.length = places := by
    rw [← hfraction, List.length_append, List.length_replicate, List.length_drop]
    omega
  have hvalue : Nat.ofDigitChars 10 (d.digits.take 1 ++ fraction) 0 =
      d.coefficient * 10 ^ (places + 1 - d.digits.length) := by
    rw [← hfraction, ← List.append_assoc, List.take_append_drop, ofDigitChars_append_zeros,
      ofDigitChars_digits, List.length_drop]
    congr 2
    omega
  refine ⟨d.digits.take 1, fraction, exponent, ⟨?_, ?_, ?_⟩, ?_, ?_, ?_, ?_⟩
  · simp [digits_ne_nil]
  · intro c hc
    exact isDigit_of_mem_digits (List.mem_of_mem_take hc)
  · rw [← hfraction]
    exact List.forall_mem_append.mpr
      ⟨fun c hc => isDigit_of_mem_digits (List.mem_of_mem_drop hc), fun c => isDigit_of_mem_zeros⟩
  · simp only [scientific, hfraction, hexponent]
  · rw [hvalue, hplaces]
    by_cases hzero : d.coefficient = 0
    · rw [magnitude_eq_zero hzero, hzero, Nat.zero_mul, Nat.cast_zero, zero_mul]
    · rw [if_neg hzero, leadingExponent] at hexponent
      rw [Nat.cast_mul, Nat.cast_pow, Nat.cast_ofNat, mul_assoc, ← zpow_natCast,
        ← zpow_add₀ (by simp), magnitude]
      congr 2
      omega
  · rw [hvalue]
    calc d.coefficient * 10 ^ (places + 1 - d.digits.length)
        < 10 ^ d.digits.length * 10 ^ (places + 1 - d.digits.length) :=
          Nat.mul_lt_mul_of_pos_right d.coefficient_lt_pow_length (Nat.pow_pos (by simp))
      _ = 10 ^ (places + 1) := by
          rw [← Nat.pow_add]
          congr 1
          omega
  · rw [hplaces, ← hexponent]
    split
    all_goals omega

theorem ofNumeral?_scientific {d : Decimal} {places : Nat}
    (hfits : d.coefficient < 10 ^ (places + 1)) :
    ∃ e, ofNumeral? (d.scientific places) = some e ∧ e.negative = d.negative ∧
      e.magnitude = d.magnitude ∧ e.coefficient < 10 ^ (places + 1) ∧
      e.exponent = if d.coefficient = 0 then 0 else d.leadingExponent - places := by
  obtain ⟨whole, fraction, exponent, hdigits, htext, hvalue, hlt, hplace⟩ :=
    exists_scientific hfits
  refine ⟨{ ofDigits d.negative whole fraction with exponent := -fraction.length + exponent }, ?_,
    rfl, hvalue, hlt, hplace⟩
  rw [htext, ofNumeral?_literal_append _ hdigits (endsLiteral_exponent exponent),
    readExponent?_exponentText]
  rfl

end Reckoner.Decimal
