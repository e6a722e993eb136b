import Mathlib.Data.List.DropRight
import Reckoner.Proofs.Decimal.Literal
/-!
# `Reckoner/Proofs/Decimal/Tidy.lean` — the tidy spelling of a number

Many literals denote one number: zeros may stand in front of it and behind its fraction, and a point
may come first or last. `tidy` takes a literal to the one that has none of this.

> **The tidy spelling of a literal is its number written out without zeros at the end**
> (`tidy_eq_positional`), and the digits of that number are those of the literal without the zeros
> on either side (`digits_strip`). So both depend on the number alone.

A layout goes from a coefficient to digits, and a spelling from digits to digits. What connects the
two is that digits are determined by their value, once it is settled how many zeros stand in front
of them: `toDigits_ofDigitChars` has none, and `eq_of_ofDigitChars_eq` as many as the length asks
for.
-/

set_option autoImplicit false

namespace Reckoner.Decimal

/-! ## Digits and their value -/

section Digits

variable {digits : List Char}

theorem digitChar_digitValue {c : Char} (h : c.isDigit = true) :
    (c.toNat - '0'.toNat).digitChar = c ∧ c.toNat - '0'.toNat < 10 := by
  have hbounds : 48 ≤ c.toNat ∧ c.toNat ≤ 57 := by simpa [Char.isDigit_iff_toNat] using h
  have hlt : c.toNat - '0'.toNat < 10 := by
    show c.toNat - 48 < 10
    omega
  refine ⟨Char.toNat_inj.mp ?_, hlt⟩
  rw [Nat.toNat_digitChar_of_lt_ten hlt]
  show 48 + (c.toNat - 48) = c.toNat
  omega

/-- Behind a number that is not zero, digits are kept one by one. -/
theorem toDigits_ofDigitChars_of_pos (h : ∀ c ∈ digits, c.isDigit = true) {init : Nat}
    (hinit : 0 < init) :
    Nat.toDigits 10 (Nat.ofDigitChars 10 digits init) = Nat.toDigits 10 init ++ digits := by
  induction digits generalizing init with
  | nil => simp
  | cons c digits ih =>
    obtain ⟨hc, hdigits⟩ := List.forall_mem_cons.mp h
    obtain ⟨hchar, hlt⟩ := digitChar_digitValue hc
    rw [Nat.ofDigitChars_cons, ih hdigits (by omega),
      ← Nat.toDigits_append_toDigits (by simp) hinit hlt, Nat.toDigits_of_lt_base hlt, hchar,
      List.append_assoc]
    rfl

/-- **Digits without a zero in front are determined by their value.** -/
theorem toDigits_ofDigitChars (h : ∀ c ∈ digits, c.isDigit = true) (hne : digits ≠ [])
    (hhead : digits.head? ≠ some '0') :
    Nat.toDigits 10 (Nat.ofDigitChars 10 digits 0) = digits := by
  cases digits with
  | nil => exact absurd rfl hne
  | cons c digits =>
    obtain ⟨hc, hdigits⟩ := List.forall_mem_cons.mp h
    obtain ⟨hchar, hlt⟩ := digitChar_digitValue hc
    have hpos : 0 < c.toNat - '0'.toNat := by
      refine Nat.pos_of_ne_zero ?_
      intro hzero
      rw [hzero] at hchar
      exact hhead (congrArg some hchar.symm)
    rw [Nat.ofDigitChars_cons, Nat.mul_zero, Nat.zero_add,
      toDigits_ofDigitChars_of_pos hdigits hpos, Nat.toDigits_of_lt_base hlt, hchar]
    rfl

/-- **Digits are determined by their value and their number.** -/
theorem eq_of_ofDigitChars_eq {other : List Char} (h : ∀ c ∈ digits, c.isDigit = true)
    (hother : ∀ c ∈ other, c.isDigit = true) (hlength : digits.length = other.length)
    (hvalue : Nat.ofDigitChars 10 digits 0 = Nat.ofDigitChars 10 other 0) : digits = other := by
  have hone : Nat.ofDigitChars 10 digits 1 = Nat.ofDigitChars 10 other 1 := by
    rw [Nat.ofDigitChars_eq_ofDigitChars_zero, hlength, hvalue,
      ← Nat.ofDigitChars_eq_ofDigitChars_zero]
  have hshown := congrArg (Nat.toDigits 10) hone
  rw [toDigits_ofDigitChars_of_pos h Nat.one_pos,
    toDigits_ofDigitChars_of_pos hother Nat.one_pos] at hshown
  exact List.append_cancel_left hshown

theorem ofDigitChars_lt_pow (h : ∀ c ∈ digits, c.isDigit = true) :
    Nat.ofDigitChars 10 digits 0 < 10 ^ digits.length := by
  induction digits with
  | nil => simp
  | cons c digits ih =>
    obtain ⟨hc, hdigits⟩ := List.forall_mem_cons.mp h
    have hlt := (digitChar_digitValue hc).2
    rw [Nat.ofDigitChars_cons, Nat.mul_zero, Nat.zero_add, Nat.ofDigitChars_eq_ofDigitChars_zero]
    calc 10 ^ digits.length * (c.toNat - '0'.toNat) + Nat.ofDigitChars 10 digits 0
        < 10 ^ digits.length * (c.toNat - '0'.toNat) + 10 ^ digits.length :=
          Nat.add_lt_add_left (ih hdigits) _
      _ = 10 ^ digits.length * (c.toNat - '0'.toNat + 1) := (Nat.mul_succ _ _).symm
      _ ≤ 10 ^ digits.length * 10 := Nat.mul_le_mul_left _ hlt
      _ = 10 ^ (digits.length + 1) := (Nat.pow_succ ..).symm

/-- The last digit of a number is the one behind its tens. -/
theorem ofDigitChars_mod_ten_ne_zero (h : ∀ c ∈ digits, c.isDigit = true) (hne : digits ≠ [])
    (hlast : digits.getLast? ≠ some '0') : Nat.ofDigitChars 10 digits 0 % 10 ≠ 0 := by
  obtain ⟨front, c, rfl⟩ := (List.eq_nil_or_concat' digits).resolve_left hne
  obtain ⟨hchar, hlt⟩ := digitChar_digitValue (h c (by simp))
  rw [Nat.ofDigitChars_append, Nat.ofDigitChars_cons, Nat.ofDigitChars_nil, Nat.mul_add_mod,
    Nat.mod_eq_of_lt hlt]
  intro hzero
  rw [hzero] at hchar
  exact hlast (by simp [← hchar])

end Digits

/-! ## Zeros on either side -/

/-- The digits from the first one on that is not a zero. -/
def dropLeadingZeros (digits : List Char) : List Char := digits.dropWhile (· = '0')

/-- The digits up to the last one that is not a zero. -/
def dropTrailingZeros (digits : List Char) : List Char := digits.rdropWhile (· = '0')

theorem exists_zeros_append (digits : List Char) :
    ∃ n, digits = List.replicate n '0' ++ dropLeadingZeros digits := by
  have hzeros : ∀ c ∈ digits.takeWhile (· = '0'), c = '0' := by
    intro c hc
    simpa using List.mem_takeWhile_imp hc
  refine ⟨(digits.takeWhile (· = '0')).length, ?_⟩
  rw [← List.eq_replicate_of_mem hzeros]
  exact List.takeWhile_append_dropWhile.symm

theorem exists_append_zeros (digits : List Char) :
    ∃ n, digits = dropTrailingZeros digits ++ List.replicate n '0' := by
  obtain ⟨n, hn⟩ := exists_zeros_append digits.reverse
  have hreverse := congrArg List.reverse hn
  rw [List.reverse_reverse, List.reverse_append, List.reverse_replicate] at hreverse
  exact ⟨n, hreverse⟩

theorem head?_dropLeadingZeros (digits : List Char) :
    (dropLeadingZeros digits).head? ≠ some '0' := by
  intro hzero
  have hnot := List.head?_dropWhile_not (· = '0') digits
  rw [show digits.dropWhile (· = '0') = dropLeadingZeros digits from rfl, hzero] at hnot
  exact absurd hnot (by decide)

theorem getLast?_dropTrailingZeros (digits : List Char) :
    (dropTrailingZeros digits).getLast? ≠ some '0' := by
  rw [dropTrailingZeros, List.rdropWhile, List.getLast?_reverse]
  exact head?_dropLeadingZeros digits.reverse

theorem mem_of_mem_dropLeadingZeros {digits : List Char} {c : Char}
    (h : c ∈ dropLeadingZeros digits) : c ∈ digits :=
  (List.dropWhile_suffix _).subset h

theorem mem_of_mem_dropTrailingZeros {digits : List Char} {c : Char}
    (h : c ∈ dropTrailingZeros digits) : c ∈ digits :=
  (List.rdropWhile_prefix _ digits).subset h

theorem ofDigitChars_dropLeadingZeros (digits : List Char) :
    Nat.ofDigitChars 10 (dropLeadingZeros digits) 0 = Nat.ofDigitChars 10 digits 0 := by
  obtain ⟨n, hn⟩ := exists_zeros_append digits
  conv_rhs => rw [hn]
  exact (ofDigitChars_zeros_append n _).symm

/-- No number starts with a zero, except for zero. -/
theorem head?_toDigits {n : Nat} (hn : n ≠ 0) : (Nat.toDigits 10 n).head? ≠ some '0' := by
  have hvalue := ofDigitChars_dropLeadingZeros (Nat.toDigits 10 n)
  rw [Nat.ofDigitChars_ten_toDigits] at hvalue
  have hdigits : ∀ c ∈ dropLeadingZeros (Nat.toDigits 10 n), c.isDigit = true := fun c hc =>
    Nat.isDigit_of_mem_toDigits (by simp) (by simp) (mem_of_mem_dropLeadingZeros hc)
  have hne : dropLeadingZeros (Nat.toDigits 10 n) ≠ [] := by
    intro hnil
    rw [hnil] at hvalue
    exact hn hvalue.symm
  have hsame := toDigits_ofDigitChars hdigits hne (head?_dropLeadingZeros _)
  rw [hvalue] at hsame
  rw [hsame]
  exact head?_dropLeadingZeros _

/-! ## Tidy literals -/

/-- The digits before a point without the zeros in front of them. One digit stays. -/
def tidyWhole (whole : List Char) : List Char :=
  if dropLeadingZeros whole = [] then ['0'] else dropLeadingZeros whole

/-- The literal without superfluous zeros: with none in front of its first digit, except for a
single one before the point, none behind its fraction, and no point without a fraction. -/
def tidy (text : List Char) : List Char :=
  literal (tidyWhole (wholePart text)) (dropTrailingZeros (fractionPart text))

/-- The significant digits of a literal, which the zeros on either side do not belong to. -/
def significantDigits (text : List Char) : List Char :=
  dropTrailingZeros (dropLeadingZeros (text.erase '.'))

/-- The two runs of digits of a tidy literal. -/
structure IsTidy (whole fraction : List Char) : Prop extends AreDigits whole fraction where
  whole_tidy : whole = ['0'] ∨ whole.head? ≠ some '0'
  fraction_tidy : fraction.getLast? ≠ some '0'

variable {text whole fraction : List Char} {d : Decimal}

theorem IsTidy.digits (h : IsTidy whole fraction) : ∀ c ∈ whole ++ fraction, c.isDigit = true :=
  List.forall_mem_append.mpr ⟨h.whole_digits, h.fraction_digits⟩

theorem strip_eq_of_magnitude_eq {e : Decimal} (hneg : d.negative = e.negative)
    (hmag : d.magnitude = e.magnitude) : d.strip = e.strip := by
  refine eq_of_isStripped (isStripped_strip d) (isStripped_strip e) ?_ ?_
  · rw [negative_strip, negative_strip, hneg]
  · rw [magnitude_strip, magnitude_strip, hmag]

theorem strip_eq_self (h : d.IsStripped) : d.strip = d :=
  eq_of_isStripped (isStripped_strip d) h (negative_strip d) (magnitude_strip d)

theorem IsTidy.toDigits_whole (h : IsTidy whole fraction) :
    Nat.toDigits 10 (Nat.ofDigitChars 10 whole 0) = whole := by
  rcases h.whole_tidy with rfl | hhead
  · rfl
  · exact toDigits_ofDigitChars h.whole_digits h.whole_ne_nil hhead

theorem exponent_strip_nonneg (h : 0 ≤ d.exponent) : 0 ≤ d.strip.exponent := by
  rcases isStripped_strip d with hmod | ⟨-, hzero⟩
  · rcases Int.le_total d.strip.exponent d.exponent with hle | hle
    · exact (eq_of_le_of_magnitude_eq hmod hle (magnitude_strip d)).2 ▸ h
    · exact h.trans hle
  · exact hzero.ge

/-- The zeros that a layout puts behind a coefficient multiply it. A zero gets none. -/
theorem IsStripped.digits_append_zeros (h : d.IsStripped) {k : Nat} (hk : d.exponent = k) :
    d.digits ++ List.replicate k '0' = Nat.toDigits 10 (10 ^ k * d.coefficient) := by
  rcases Nat.eq_zero_or_pos d.coefficient with hzero | hpos
  · obtain rfl : k = 0 := by
      rcases h with hmod | ⟨-, hnone⟩
      · exact absurd (by rw [hzero]) hmod
      · omega
    simp [digits]
  · rw [← Nat.ofDigitChars_replicate_zero,
      toDigits_ofDigitChars_of_pos (fun c => isDigit_of_mem_zeros) hpos, digits]

theorem IsTidy.literal_eq_of_whole (h : IsTidy whole []) :
    literal whole [] = (ofDigits false whole []).strip.positional := by
  have hmag := magnitude_strip (ofDigits false whole [])
  have hexponent := exponent_strip_nonneg (d := ofDigits false whole []) le_rfl
  obtain ⟨k, hk⟩ : ∃ k : Nat, (ofDigits false whole []).strip.exponent = k :=
    ⟨_, (Int.toNat_of_nonneg hexponent).symm⟩
  have hvalue : Nat.ofDigitChars 10 whole 0 =
      10 ^ k * (ofDigits false whole []).strip.coefficient := by
    rw [magnitude_ofDigits, magnitude, hk, List.append_nil] at hmag
    rw [Nat.mul_comm]
    simp only [zpow_natCast, List.length_nil, Nat.cast_zero, neg_zero, zpow_zero, mul_one] at hmag
    exact_mod_cast hmag.symm
  rw [positional, negative_strip, if_pos hexponent, hk, Int.toNat_natCast,
    (isStripped_strip _).digits_append_zeros hk, ← hvalue, h.toDigits_whole]
  simp [literal, signText, ofDigits]

theorem IsTidy.isStripped (h : IsTidy whole fraction) (hne : fraction ≠ []) :
    (ofDigits false whole fraction).IsStripped := by
  refine .inl (ofDigitChars_mod_ten_ne_zero h.digits (by simp [hne]) ?_)
  rw [List.getLast?_append_of_ne_nil _ hne]
  exact h.fraction_tidy

/-- The zeros that the layout puts in front are there already. -/
theorem IsTidy.padded_eq (h : IsTidy whole fraction) :
    List.replicate (fraction.length + 1 - (ofDigits false whole fraction).digits.length) '0' ++
      (ofDigits false whole fraction).digits = whole ++ fraction := by
  have hdigits : (ofDigits false whole fraction).digits =
    Nat.toDigits 10 (Nat.ofDigitChars 10 (whole ++ fraction) 0) := rfl
  rcases h.whole_tidy with rfl | hhead
  · -- A single zero before the point: the coefficient has at most the digits of the fraction.
    have hlength : (ofDigits false ['0'] fraction).digits.length ≤ fraction.length + 1 := by
      rw [hdigits, Nat.length_toDigits_le_iff (by simp) (Nat.succ_pos _)]
      simpa using ofDigitChars_lt_pow h.digits
    refine eq_of_ofDigitChars_eq ?_ h.digits ?_ ?_
    · exact List.forall_mem_append.mpr ⟨fun c => isDigit_of_mem_zeros, fun c => isDigit_of_mem_digits⟩
    · rw [List.length_append, List.length_replicate, List.length_append, List.length_singleton]
      omega
    · rw [ofDigitChars_zeros_append, ofDigitChars_digits]
      rfl
  · have hne : whole ++ fraction ≠ [] := by simp [h.whole_ne_nil]
    have hpos := List.length_pos_of_ne_nil h.whole_ne_nil
    rw [hdigits, toDigits_ofDigitChars h.digits hne
      (by rwa [List.head?_append_of_ne_nil _ h.whole_ne_nil]), List.length_append,
      Nat.sub_eq_zero_of_le (by omega)]
    rfl

theorem IsTidy.literal_eq_of_fraction (h : IsTidy whole fraction) (hne : fraction ≠ []) :
    literal whole fraction = (ofDigits false whole fraction).positional := by
  have hpos := List.length_pos_of_ne_nil hne
  have hexponent : (ofDigits false whole fraction).exponent = -(fraction.length : Int) := rfl
  have hwhole : (whole ++ fraction).length - fraction.length = whole.length := by simp
  rw [positional, hexponent, if_neg (by omega), neg_neg, Int.toNat_natCast, pointed]
  simp only [h.padded_eq, hwhole, List.take_left, List.drop_left]
  simp [literal, hne, signText, ofDigits]

/-- **A tidy literal is its number written out without zeros at the end.** -/
theorem IsTidy.literal_eq (h : IsTidy whole fraction) :
    literal whole fraction = (ofDigits false whole fraction).strip.positional := by
  rcases eq_or_ne fraction [] with rfl | hne
  · exact h.literal_eq_of_whole
  · rw [strip_eq_self (h.isStripped hne)]
    exact h.literal_eq_of_fraction hne

/-! ## A literal made tidy -/

theorem isTidy_tidy (hwhole : ∀ c ∈ whole, c.isDigit = true)
    (hfraction : ∀ c ∈ fraction, c.isDigit = true) :
    IsTidy (tidyWhole whole) (dropTrailingZeros fraction) where
  whole_ne_nil := by
    unfold tidyWhole
    split
    · simp
    · assumption
  whole_digits := by
    unfold tidyWhole
    split
    · simp
    · exact fun c hc => hwhole c (mem_of_mem_dropLeadingZeros hc)
  fraction_digits := fun c hc => hfraction c (mem_of_mem_dropTrailingZeros hc)
  whole_tidy := by
    unfold tidyWhole
    split
    · exact .inl rfl
    · exact .inr (head?_dropLeadingZeros whole)
  fraction_tidy := getLast?_dropTrailingZeros fraction

theorem ofDigitChars_tidyWhole (whole : List Char) :
    Nat.ofDigitChars 10 (tidyWhole whole) 0 = Nat.ofDigitChars 10 whole 0 := by
  rw [← ofDigitChars_dropLeadingZeros whole]
  unfold tidyWhole
  split
  · next hnil =>
    rw [hnil]
    rfl
  · rfl

/-- Zeros behind a fraction do not change the number. -/
theorem magnitude_tidy (whole fraction : List Char) :
    (ofDigits false (tidyWhole whole) (dropTrailingZeros fraction)).magnitude =
      (ofDigits false whole fraction).magnitude := by
  obtain ⟨n, hn⟩ := exists_append_zeros fraction
  have hlength : (fraction.length : Int) = (dropTrailingZeros fraction).length + n := by
    conv_lhs => rw [hn]
    simp
  have hvalue : Nat.ofDigitChars 10 (whole ++ fraction) 0 =
      Nat.ofDigitChars 10 (tidyWhole whole ++ dropTrailingZeros fraction) 0 * 10 ^ n := by
    conv_lhs => rw [hn, ← List.append_assoc, ofDigitChars_append_zeros, Nat.ofDigitChars_append]
    rw [Nat.ofDigitChars_append, ofDigitChars_tidyWhole]
  refine (magnitude_eq_of_shift hvalue ?_).symm
  show -((dropTrailingZeros fraction).length : Int) = -(fraction.length : Int) + n
  omega

/-- **The tidy spelling of a literal is its number written out without zeros at the end.** -/
theorem tidy_eq_positional (h : ofLiteral? text = some d) : tidy text = d.strip.positional := by
  obtain ⟨hliteral, rfl⟩ := ofLiteral?_eq_some_iff.mp h
  obtain ⟨hwhole, hfraction⟩ := parts_digits hliteral
  have hmag := magnitude_tidy (wholePart text) (fractionPart text)
  rw [tidy, (isTidy_tidy hwhole hfraction).literal_eq, strip_eq_of_magnitude_eq (by rfl) hmag]

theorem tidy_of_zero (h : ofLiteral? text = some d) (hzero : d.coefficient = 0) :
    tidy text = ['0'] := by
  rw [tidy_eq_positional h, strip, if_pos hzero, positional, negative_of_ofLiteral? h, digits,
    hzero]
  rfl

/-! ## Significant digits -/

theorem head?_significantDigits (text : List Char) : (significantDigits text).head? ≠ some '0' := by
  intro hzero
  have hfirst := head?_dropLeadingZeros (text.erase '.')
  obtain ⟨n, hn⟩ : ∃ n, dropLeadingZeros (text.erase '.') =
      significantDigits text ++ List.replicate n '0' := exists_append_zeros _
  rw [hn, List.head?_append, hzero] at hfirst
  exact hfirst rfl

theorem isDigit_of_mem_significantDigits (h : isLiteral text = true) {c : Char}
    (hc : c ∈ significantDigits text) : c.isDigit = true := by
  have hmem := mem_of_mem_dropLeadingZeros (mem_of_mem_dropTrailingZeros hc)
  rw [erase_point h] at hmem
  exact List.forall_mem_append.mpr (parts_digits h) c hmem

theorem exists_coefficient_eq (h : ofLiteral? text = some d) :
    ∃ n, d.coefficient = Nat.ofDigitChars 10 (significantDigits text) 0 * 10 ^ n := by
  obtain ⟨hliteral, rfl⟩ := ofLiteral?_eq_some_iff.mp h
  obtain ⟨n, hn⟩ := exists_append_zeros (dropLeadingZeros (text.erase '.'))
  refine ⟨n, ?_⟩
  show Nat.ofDigitChars 10 (wholePart text ++ fractionPart text) 0 = _
  rw [← erase_point hliteral, ← ofDigitChars_dropLeadingZeros, hn, ofDigitChars_append_zeros]
  rfl

/-- **The significant digits of a literal are those of its number.** -/
theorem digits_strip (h : ofLiteral? text = some d) (hne : d.coefficient ≠ 0) :
    d.strip.digits = significantDigits text := by
  have hliteral := (ofLiteral?_eq_some_iff.mp h).1
  have hdigits : ∀ c ∈ significantDigits text, c.isDigit = true :=
    fun c => isDigit_of_mem_significantDigits hliteral
  obtain ⟨n, hn⟩ := exists_coefficient_eq h
  have hsome : significantDigits text ≠ [] := by
    intro hnil
    rw [hn, hnil] at hne
    exact hne (Nat.zero_mul _)
  have hstrip : d.strip = ⟨d.negative, Nat.ofDigitChars 10 (significantDigits text) 0,
      d.exponent + n⟩ := by
    refine eq_of_isStripped (isStripped_strip d) ?_ (negative_strip d) ?_
    · exact .inl (ofDigitChars_mod_ten_ne_zero hdigits hsome (getLast?_dropTrailingZeros _))
    · rw [magnitude_strip]
      exact magnitude_eq_of_shift hn rfl
  rw [hstrip, digits, toDigits_ofDigitChars hdigits hsome (head?_significantDigits text)]

theorem coefficient_strip_lt {count : Nat} (h : ofLiteral? text = some d)
    (hdigits : (significantDigits text).length ≤ count) : d.strip.coefficient < 10 ^ count := by
  by_cases hzero : d.coefficient = 0
  · have hle := coefficient_strip_le d
    rw [hzero, Nat.le_zero] at hle
    rw [hle]
    exact Nat.pow_pos (by simp)
  · have hlt := d.strip.coefficient_lt_pow_length
    rw [digits_strip h hzero] at hlt
    exact hlt.trans_le (Nat.pow_le_pow_right (by simp) hdigits)

end Reckoner.Decimal
