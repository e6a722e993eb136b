import Reckoner.Operand
import Reckoner.Proofs.Binary64.SevenDigits
import Reckoner.Proofs.Display.Text
/-!
# `Reckoner/Proofs/Display/Operand.lean` — a shown text spelt as an operand

Of the two layouts, one has to be rewritten before it can stand in an expression. That goes through
a decimal, which is read, rounded to 28 digits, and stripped of its zeros
(`exists_expand_scientificText`). A number that has no more digits than that gets through unchanged,
since an exponent of three figures is nothing to a decimal:

> **The operand of a shown text is the shown number written out** (`expand_scientificText`), and a
> text without an exponent is its own operand (`expand_plainText`).

The decimal that is read has other zeros than the one that was laid out. Both are stripped to the
same decimal, since that is determined by the number.
-/

set_option autoImplicit false

namespace Reckoner

/-! ## How large a shown number is -/

namespace Binary64

theorem ten_zpow_le_magnitude {v : Binary64} (hpos : 0 < v.magnitude) :
    (10 : Rat) ^ (-324 : Int) ≤ v.magnitude := by
  obtain ⟨n, hn⟩ := exists_magnitude_eq v
  have hunit : (0 : Rat) < (2 : Rat) ^ (-1074 : Int) := zpow_pos two_pos _
  have hone : (1 : Rat) ≤ n := by
    rw [hn] at hpos
    exact_mod_cast Nat.cast_pos.mp (pos_of_mul_pos_left hpos hunit.le)
  rw [hn]
  exact ten_zpow_lt_two_zpow.le.trans (le_mul_of_one_le_left hunit.le hone)

theorem magnitude_le_ten_zpow (v : Binary64) : v.magnitude ≤ (10 : Rat) ^ (309 : Int) :=
  v.magnitude_le_greatest.trans (greatest_lt.le.trans two_zpow_le_ten_zpow)

end Binary64

namespace Display

variable {count : Nat} {v : Binary64}

theorem magnitude_rounded_le_ten_zpow (hcount : 0 < count) (v : Binary64) :
    (rounded count v).magnitude ≤ (10 : Rat) ^ (309 : Int) := by
  have hupper := magnitude_rounded_le (n := 1) (k := 309) (v := v) hcount
    (Nat.one_lt_pow hcount.ne' (by simp))
  rw [Nat.cast_one, one_mul] at hupper
  exact hupper v.magnitude_le_ten_zpow

theorem magnitude_rounded_bounds (hcount : 0 < count) (hpos : 0 < v.magnitude) :
    (10 : Rat) ^ (-324 : Int) ≤ (rounded count v).magnitude ∧
      (rounded count v).magnitude ≤ (10 : Rat) ^ (309 : Int) := by
  have hlower := le_magnitude_rounded (n := 1) (k := -324) (v := v) hcount
    (Nat.one_lt_pow hcount.ne' (by simp))
  rw [Nat.cast_one, one_mul] at hlower
  exact ⟨hlower (Binary64.ten_zpow_le_magnitude hpos), magnitude_rounded_le_ten_zpow hcount v⟩

theorem coefficient_rounded_ne_zero (hcount : 0 < count) (hpos : 0 < v.magnitude) :
    (rounded count v).coefficient ≠ 0 := by
  intro hzero
  have hlower := (magnitude_rounded_bounds hcount hpos).1
  rw [Decimal.magnitude_eq_zero hzero] at hlower
  exact absurd hlower (not_le.mpr (zpow_pos (by simp) _))

end Display

namespace Operand

/-! ## Reading -/

/-- To the reader of decimals, the characters of a shown number are plain. -/
theorem plain_of_isShownChar {c : Char} (h : isShownChar c = true) :
    Text.toAsciiDigit c = c ∧ c ≠ '_' ∧ Text.isBlank c = false :=
  of_isShownChar (P := fun c => Text.toAsciiDigit c = c ∧ c ≠ '_' ∧ Text.isBlank c = false)
    (by decide) h

theorem readDecimal?_eq {text : List Char} (h : ∀ c ∈ text, isShownChar c = true) :
    readDecimal? text = (Decimal.ofNumeral? text).filter isReadable := by
  have htrim : Text.trim Text.isBlank text = text :=
    Binary64.trim_eq_self fun c hc => (plain_of_isShownChar (h c hc)).2.2
  have hfilter : text.filter (· ≠ '_') = text := by
    rw [List.filter_eq_self]
    intro c hc
    simpa using (plain_of_isShownChar (h c hc)).2.1
  have hmap : text.map Text.toAsciiDigit = text := by
    refine (List.map_congr_left fun c hc => (plain_of_isShownChar (h c hc)).1).trans ?_
    exact List.map_id text
  simp only [readDecimal?, htrim, hfilter, hmap]

theorem isReadable_of_bounds {d : Decimal} (hne : d.coefficient ≠ 0)
    (hlower : -324 ≤ d.leadingExponent) (hupper : d.leadingExponent ≤ 309) :
    isReadable d = true := by
  have hle : d.leadingExponent ≤ readingLimit := hupper.trans (by simp [readingLimit])
  have hge : -readingLimit ≤ d.leadingExponent := le_trans (by simp [readingLimit]) hlower
  simp [isReadable, hne, hle, hge]

/-! ## Writing out -/

/-- Unless it ends far below the point, a number loses no digits but those beyond the 28th. -/
theorem roundedResult_eq_round {d : Decimal} (hleast : leastExponent ≤ d.exponent) :
    roundedResult d = d.round .toEven precision := by
  have hexcess : max (d.digits.length - precision : Nat) (leastExponent - d.exponent).toNat =
      d.digits.length - precision := by omega
  rw [roundedResult]
  simp only [hexcess]
  split
  · next hzero => rw [Decimal.round, hzero, Decimal.coefficient_dropDigits_zero]
  · rw [if_neg (by omega)]
    rfl

theorem leadingExponent_le {d : Decimal} (hne : d.coefficient ≠ 0)
    (hupper : d.magnitude ≤ (10 : Rat) ^ (309 : Int)) : d.leadingExponent ≤ 309 := by
  have hlog := Int.log_mono_right (b := 10) (Decimal.magnitude_pos hne) hupper
  rw [show (10 : Rat) = ((10 : Nat) : Rat) by simp, Int.log_zpow (by simp)] at hlog
  rwa [Decimal.leadingExponent_eq_log hne]

theorem le_leadingExponent {d : Decimal} (hne : d.coefficient ≠ 0)
    (hlower : (10 : Rat) ^ (-324 : Int) ≤ d.magnitude) : -324 ≤ d.leadingExponent := by
  rw [Decimal.leadingExponent_eq_log hne]
  exact (Int.zpow_le_iff_le_log (by simp) (Decimal.magnitude_pos hne)).mp (by exact_mod_cast hlower)

/-- **A number of moderate size is written out**, rounded to 28 digits. -/
theorem writtenOut_eq_ok {d : Decimal} (hleast : leastExponent ≤ d.exponent)
    (hupper : d.magnitude ≤ (10 : Rat) ^ (309 : Int)) :
    writtenOut d = .ok (d.round .toEven precision).strip.positional := by
  have hsize : (d.round .toEven precision).strip.magnitude ≤ (10 : Rat) ^ (309 : Int) := by
    obtain ⟨bound, hbound⟩ := d.exists_magnitude_round .toEven precision
    have hround := roundDigits_le_of_le .toEven (b := 10) (p := precision) (n := 1) (k := 309)
      (l := min bound 309) (by simp) (by simp [precision]) (by simp [precision])
      (min_le_right _ _) d.magnitude_nonneg (by rwa [Nat.cast_one, one_mul])
    rwa [Nat.cast_one, one_mul, ← hbound _ (min_le_left _ _), ← Decimal.magnitude_strip] at hround
  rw [writtenOut, roundedResult_eq_round hleast, if_neg]
  rintro ⟨hne, hlarge⟩
  have hleading := leadingExponent_le hne hsize
  simp only [maxExponent] at hlarge
  omega

/-! ## Shown texts -/

variable {places : Nat} {v : Binary64}

/-- **A text with an exponent is read as the number that it shows.** -/
theorem exists_readDecimal?_scientificText (hplaces : places ≤ 1000) (v : Binary64) :
    ∃ e, Decimal.ofNumeral? (Display.scientificText places v) = some e ∧
      readDecimal? (Display.scientificText places v) = some e ∧ e.negative = v.isNegative ∧
      e.magnitude = (Display.rounded (places + 1) v).magnitude ∧
      e.coefficient < 10 ^ (places + 1) ∧ leastExponent ≤ e.exponent := by
  have hshown : ∀ c ∈ Display.scientificText places v, isShownChar c = true :=
    fun c => Display.isShownChar_scientificText
  have hcount : (Display.rounded (places + 1) v).coefficient < 10 ^ (places + 1) :=
    Display.coefficient_rounded_lt (Nat.succ_pos places) v
  obtain ⟨e, hread, hneg, hmag, hfits, hplace⟩ := Decimal.ofNumeral?_scientific hcount
  rw [Display.negative_rounded] at hneg
  have hsize : isReadable e = true ∧ leastExponent ≤ e.exponent := by
    by_cases hzero : (Display.rounded (places + 1) v).coefficient = 0
    · rw [if_pos hzero] at hplace
      have hcoefficient : e.coefficient = 0 := by
        by_contra hne
        have hpos := Decimal.magnitude_pos hne
        rw [hmag, Decimal.magnitude_eq_zero hzero] at hpos
        exact absurd hpos (lt_irrefl _)
      simp [isReadable, hcoefficient, hplace, readingLimit, leastExponent]
    · rw [if_neg hzero] at hplace
      have hpos : 0 < v.magnitude := by
        refine v.magnitude_nonneg.lt_of_ne fun heq => ?_
        exact hzero (Display.coefficient_rounded_eq_zero heq.symm)
      have hne : e.coefficient ≠ 0 := by
        intro hcoefficient
        have hpos' := Decimal.magnitude_pos hzero
        rw [← hmag, Decimal.magnitude_eq_zero hcoefficient] at hpos'
        exact absurd hpos' (lt_irrefl _)
      obtain ⟨hlower, hupper⟩ := Display.magnitude_rounded_bounds (Nat.succ_pos places) hpos
      have hleading := le_leadingExponent hzero hlower
      rw [← hmag] at hlower hupper
      refine ⟨isReadable_of_bounds hne (le_leadingExponent hne hlower)
        (leadingExponent_le hne hupper), ?_⟩
      rw [hplace, leastExponent]
      omega
  refine ⟨e, hread, ?_, hneg, hmag, hfits, hsize.2⟩
  rw [readDecimal?_eq hshown, Display.scientificText, hread, Option.filter_some_pos hsize.1]

/-- **The operand of a number with an exponent** is the number that is read, rounded to 28 digits
and written out. -/
theorem exists_expand_scientificText (hplaces : places ≤ 1000) (v : Binary64) :
    ∃ e, Decimal.ofNumeral? (Display.scientificText places v) = some e ∧
      e.negative = v.isNegative ∧ e.magnitude = (Display.rounded (places + 1) v).magnitude ∧
      e.coefficient < 10 ^ (places + 1) ∧
      expand (Display.scientificText places v) =
        .ok (e.round .toEven precision).strip.positional := by
  obtain ⟨e, hread, hdecimal, hneg, hmag, hfits, hleast⟩ :=
    exists_readDecimal?_scientificText hplaces v
  have hletter : (Display.scientificText places v).contains 'E' = true := by
    simp [Display.scientificText, Decimal.scientific]
  have hupper := Display.magnitude_rounded_le_ten_zpow (Nat.succ_pos places) v
  rw [← hmag] at hupper
  refine ⟨e, hread, hneg, hmag, hfits, ?_⟩
  rw [expand, if_pos hletter, hdecimal]
  exact writtenOut_eq_ok hleast hupper

/-- With up to 28 digits, it is the shown number that is written out. -/
theorem expand_scientificText (hplaces : places < precision) (v : Binary64) :
    expand (Display.scientificText places v) =
      .ok (Display.rounded (places + 1) v).positional := by
  have hthousand : places ≤ 1000 := hplaces.le.trans (by simp [precision])
  obtain ⟨e, -, hneg, hmag, hfits, hexpand⟩ := exists_expand_scientificText hthousand v
  have hdigits : e.coefficient < 10 ^ precision :=
    hfits.trans_le (Nat.pow_le_pow_right (by simp) hplaces)
  -- What is read need not be what was laid out, but the two are stripped to the same decimal.
  have hstrip : e.strip = Display.rounded (places + 1) v := by
    apply Decimal.eq_of_isStripped (Decimal.isStripped_strip e) (Display.isStripped_rounded _ v)
    · rw [Decimal.negative_strip, hneg, Display.negative_rounded]
    · rw [Decimal.magnitude_strip, hmag]
  rw [hexpand, Decimal.round_eq_self _ hdigits (by simp [precision]), hstrip]

theorem letter_not_mem_positional (d : Decimal) : 'E' ∉ d.positional := by
  intro hmem
  rcases Decimal.mem_positional hmem with h | h | h
  all_goals exact absurd h (by decide)

theorem letter_not_mem_plainText (count : Nat) (v : Binary64) : 'E' ∉ Display.plainText count v := by
  simp only [Display.plainText]
  split
  · simp
  · exact letter_not_mem_positional _

/-- A number written out is its own operand. -/
theorem expand_plainText (count : Nat) (v : Binary64) :
    expand (Display.plainText count v) = .ok (Display.plainText count v) := by
  rw [expand, if_neg]
  simpa using letter_not_mem_plainText count v

theorem exists_positional_plainText (count : Nat) (v : Binary64) :
    ∃ d : Decimal, Display.plainText count v = d.positional := by
  simp only [Display.plainText]
  split
  · exact ⟨⟨false, 0, 0⟩, by decide⟩
  · exact ⟨_, rfl⟩

/-- **Whatever the settings, an operand is a decimal written out.** -/
theorem exists_positional_of_expand {settings : Settings} {text operand : List Char}
    (htext : Display.text settings v = .ok text) (h : expand text = .ok operand) :
    ∃ d : Decimal, operand = d.positional := by
  obtain ⟨-, ⟨-, rfl⟩ | ⟨-, rfl⟩⟩ := Display.text_cases htext
  · have hletter : (Display.scientificText settings.mantissaDigits v).contains 'E' = true := by
      simp [Display.scientificText, Decimal.scientific]
    rw [expand, if_pos hletter] at h
    split at h
    · unfold writtenOut at h
      simp only at h
      split at h
      · cases h
      · cases h
        exact ⟨_, rfl⟩
    · cases h
  · rw [expand_plainText] at h
    cases h
    exact exists_positional_plainText _ v

end Operand

end Reckoner
