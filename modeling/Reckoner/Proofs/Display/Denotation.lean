import Reckoner.Proofs.Display.Closest
import Reckoner.Proofs.Display.Operand
import Reckoner.Proofs.Settings
/-!
# `Reckoner/Proofs/Display/Denotation.lean` — the number that an operand denotes

A result is shown with as many digits as the settings ask for, a thousand if need be. Its operand is
written out by way of a decimal result, and that has 28 digits, whatever the settings are. So an
operand need not denote the number that has been shown:

> **An operand denotes the shown number if and only if that has been written out or has at most 28
> digits** (`operand_denotes_shown_iff`). Other than in its digits nothing can go wrong: a shown text
> always has an operand, with no exponent in it.

What counts are the digits of the number, not those of the text. With a hundred places an integer
below `10 ^ 28` still gets through.
-/

set_option autoImplicit false

namespace Reckoner

/-- **Rounding changes nothing but numbers of more digits.** -/
theorem Decimal.value_round_eq_iff (tie : Tie) {count : Nat} (hcount : 0 < count) (d : Decimal) :
    (d.round tie count).value = d.value ↔ HasDigits count d.value := by
  constructor
  · intro hsame
    refine ⟨_, (d.round tie count).strip.exponent, d.coefficient_strip_round_lt tie hcount, ?_⟩
    rw [← hsame, abs_value, ← magnitude_strip]
    rfl
  · rintro ⟨n, k, hfits, hvalue⟩
    rw [abs_value] at hvalue
    obtain ⟨bound, hbound⟩ := d.exists_magnitude_round tie count
    have hround := roundDigits_mul_zpow tie (b := 10) (p := count) (l := min bound k)
      Nat.one_lt_ofNat hfits (min_le_right _ _)
    rw [Nat.cast_ofNat, ← hvalue, ← hbound _ (min_le_left _ _)] at hround
    exact value_eq_of_magnitude_eq rfl hround

namespace Operand

/-! ## Reading an operand -/

/-- The number that an operand denotes. Parentheses around it only group. -/
def number? (operand : List Char) : Option Decimal :=
  if operand.head? = some '(' ∧ operand.getLast? = some ')' then
    Decimal.ofNumeral? (operand.drop 1).dropLast
  else Decimal.ofNumeral? operand

theorem number?_positional (d : Decimal) :
    number? d.positional = Decimal.ofNumeral? d.positional := by
  rw [number?, if_neg]
  rintro ⟨hopening, -⟩
  rcases Decimal.mem_positional (List.mem_of_head? hopening) with h | h | h
  all_goals exact absurd h (by decide)

theorem number?_group (d : Decimal) :
    number? (group d.positional) = Decimal.ofNumeral? d.positional := by
  unfold group
  split
  · have hclosing : ('(' :: d.positional ++ [')']).getLast? = some ')' := List.getLast?_concat
    have hinner : (('(' :: d.positional ++ [')']).drop 1).dropLast = d.positional :=
      List.dropLast_concat
    rw [number?, if_pos ⟨rfl, hclosing⟩, hinner]
  · exact number?_positional d

/-- The letter of an exponent, in either case. -/
def isExponentLetter (c : Char) : Bool := c = 'E' || c = 'e'

theorem not_isExponentLetter_positional {d : Decimal} {c : Char} (h : c ∈ d.positional) :
    isExponentLetter c = false := by
  rcases Decimal.mem_positional h with rfl | hdigit | rfl
  · rfl
  · rw [Bool.eq_false_iff]
    intro hletter
    simp only [isExponentLetter, Bool.or_eq_true, decide_eq_true_eq] at hletter
    rcases hletter with rfl | rfl
    all_goals exact absurd hdigit (by decide)
  · rfl

theorem not_isExponentLetter_group {d : Decimal} {c : Char} (h : c ∈ group d.positional) :
    isExponentLetter c = false := by
  unfold group at h
  split at h
  · simp only [List.cons_append, List.mem_cons, List.mem_append, List.not_mem_nil, or_false] at h
    rcases h with rfl | h | rfl
    · rfl
    · exact not_isExponentLetter_positional h
    · rfl
  · exact not_isExponentLetter_positional h

/-- **Grouped or not, an operand denotes the number that has been written out.** -/
theorem exists_ofDisplay_of_expand {text : List Char} {d : Decimal}
    (h : expand text = .ok d.positional) (grouped : Bool) :
    ∃ operand denoted, ofDisplay grouped text = .ok operand ∧ number? operand = some denoted ∧
      denoted.value = d.value ∧ ∀ c ∈ operand, isExponentLetter c = false := by
  obtain ⟨denoted, hread, hneg, hmag⟩ := d.ofNumeral?_positional
  have hvalue := Decimal.value_eq_of_magnitude_eq hneg hmag
  cases grouped with
  | false =>
    refine ⟨d.positional, denoted, ?_, ?_, hvalue, fun c => not_isExponentLetter_positional⟩
    · rw [ofDisplay, h]
      rfl
    · rw [number?_positional, hread]
  | true =>
    refine ⟨group d.positional, denoted, ?_, ?_, hvalue, fun c => not_isExponentLetter_group⟩
    · rw [ofDisplay, h]
      rfl
    · rw [number?_group, hread]

/-! ## What it denotes -/

variable {settings : Settings} {v : Binary64} {text : List Char}

/-- What is denoted and what is shown, for either layout. -/
theorem exists_expand_of_text (hplaces : settings.mantissaDigits ≤ 1000)
    (htext : Display.text settings v = .ok text) :
    ∃ shown written : Decimal, Decimal.ofNumeral? text = some shown ∧
      expand text = .ok written.positional ∧
      (written.value = shown.value ↔ 'E' ∉ text ∨ HasDigits precision shown.value) := by
  obtain ⟨-, ⟨-, rfl⟩ | ⟨-, rfl⟩⟩ := Display.text_cases htext
  · obtain ⟨e, hread, -, -, -, hexpand⟩ := exists_expand_scientificText hplaces v
    have hletter : 'E' ∈ Display.scientificText settings.mantissaDigits v := by
      simp [Display.scientificText, Decimal.scientific]
    have hvalue : (e.round .toEven precision).strip.value = (e.round .toEven precision).value :=
      Decimal.value_eq_of_magnitude_eq (Decimal.negative_strip _) (Decimal.magnitude_strip _)
    refine ⟨e, _, hread, hexpand, ?_⟩
    rw [hvalue, or_iff_right (not_not.mpr hletter)]
    exact e.value_round_eq_iff .toEven (by simp [precision])
  · obtain ⟨d, hd⟩ := exists_positional_plainText settings.significantDigits v
    have hletter := letter_not_mem_plainText settings.significantDigits v
    have hexpand := expand_plainText settings.significantDigits v
    rw [hd] at hletter hexpand ⊢
    obtain ⟨shown, hread, hneg, hmag⟩ := d.ofNumeral?_positional
    refine ⟨shown, d, hread, hexpand, ?_⟩
    exact iff_of_true (Decimal.value_eq_of_magnitude_eq hneg hmag).symm (.inl hletter)

/-- What is shown with up to 27 places has 28 digits at most. -/
theorem hasDigits_of_text (h : settings.mantissaDigits < precision)
    (htext : Display.text settings v = .ok text) {shown : Decimal}
    (hshown : Decimal.ofNumeral? text = some shown) :
    'E' ∉ text ∨ HasDigits precision shown.value := by
  obtain ⟨-, ⟨-, rfl⟩ | ⟨-, rfl⟩⟩ := Display.text_cases htext
  · obtain ⟨e, hread, -, -, hfits, -⟩ := Decimal.ofNumeral?_scientific
      (Display.coefficient_rounded_lt (Nat.succ_pos settings.mantissaDigits) v)
    obtain rfl := Option.some.inj (hread.symm.trans hshown)
    exact .inr ⟨_, _, hfits.trans_le (Nat.pow_le_pow_right (by simp) h), e.abs_value⟩
  · exact .inl (letter_not_mem_plainText settings.significantDigits v)

/-- **An operand denotes the shown number if and only if that has been written out or has at most
28 digits.** With any settings that can be read and ask for up to a thousand digits, a finite value
has a text, and the text an operand without an exponent. Up to 27 places, no digit is ever lost. -/
theorem operand_denotes_shown_iff {entries : List (List Char × RawValue)}
    (hsettings : Settings.ofEntries entries = .ok settings)
    (hsignificant : settings.significantDigits ≤ 1000) (hmantissa : settings.mantissaDigits ≤ 1000)
    (hv : v.isFinite = true) (grouped : Bool) :
    ∃ text operand shown denoted, Display.text settings v = .ok text ∧
      ofDisplay grouped text = .ok operand ∧ Decimal.ofNumeral? text = some shown ∧
      number? operand = some denoted ∧ (∀ c ∈ operand, isExponentLetter c = false) ∧
      (denoted.value = shown.value ↔ 'E' ∉ text ∨ HasDigits precision shown.value) ∧
      (settings.mantissaDigits < precision → denoted.value = shown.value) := by
  have hmade := Settings.madeOf_of_ofEntries hsettings
  have hdigits : settings.DigitsWithin 1000 :=
    ⟨hmade.one_le_significantDigits, hsignificant, hmade.one_le_mantissaDigits, hmantissa⟩
  obtain ⟨text, htext⟩ := Display.exists_text hdigits (by decide) hv
  obtain ⟨shown, written, hshown, hexpand, hiff⟩ := exists_expand_of_text hmantissa htext
  obtain ⟨operand, denoted, hoperand, hnumber, hvalue, hletters⟩ :=
    exists_ofDisplay_of_expand hexpand grouped
  rw [← hvalue] at hiff
  refine ⟨text, operand, shown, denoted, htext, hoperand, hshown, hnumber, hletters, hiff, ?_⟩
  intro hplaces
  exact hiff.mpr (hasDigits_of_text hplaces htext hshown)

/-- Forty places of an integer of 27 digits are shown, and only zeros are left out. -/
theorem operand_denotes_shown_integer :
    Settings.ofEntries [("mantissa_digits".toList, .int 40)] =
        .ok { Settings.default with mantissaDigits := 40 } ∧
      Display.text { Settings.default with mantissaDigits := 40 }
          (.ofDecimal ⟨true, 618970019642690137449562112, 0⟩) =
        .ok "-6.1897001964269013744956211200000000000000E+26".toList ∧
      ∃ operand denoted,
        ofDisplay true "-6.1897001964269013744956211200000000000000E+26".toList = .ok operand ∧
          number? operand = some denoted ∧ denoted.value = -618970019642690137449562112 := by
  have hsettings : Settings.ofEntries [("mantissa_digits".toList, .int 40)] =
      .ok { Settings.default with mantissaDigits := 40 } := by decide +kernel
  have hlayout : Display.text { Settings.default with mantissaDigits := 40 }
      (.ofDecimal ⟨true, 618970019642690137449562112, 0⟩) =
      .ok "-6.1897001964269013744956211200000000000000E+26".toList := by decide +kernel
  obtain ⟨text, operand, shown, denoted, htext, hoperand, hshown, hnumber, -, hiff, -⟩ :=
    operand_denotes_shown_iff hsettings (by decide) (by decide)
      (v := .ofDecimal ⟨true, 618970019642690137449562112, 0⟩) (by decide +kernel) true
  obtain rfl : text = _ := Except.ok.inj (htext.symm.trans hlayout)
  have hvalue : shown.value = -618970019642690137449562112 := by
    have hread : Decimal.ofNumeral? "-6.1897001964269013744956211200000000000000E+26".toList =
        some ⟨true, 61897001964269013744956211200000000000000, -14⟩ := by decide +kernel
    obtain rfl := Option.some.inj (hread.symm.trans hshown)
    norm_num [Decimal.value, Decimal.magnitude]
  have hdigits : HasDigits precision shown.value := by
    refine ⟨618970019642690137449562112, 0, by simp [precision], ?_⟩
    rw [hvalue]
    norm_num
  exact ⟨hsettings, hlayout, operand, denoted, hoperand, hnumber,
    (hiff.mpr (.inr hdigits)).trans hvalue⟩

/-- **A number of 30 digits is shown in full, and loses two of them as an operand.** -/
theorem operand_of_thirty_digits :
    Settings.ofEntries [("mantissa_digits".toList, .int 29)] =
        .ok { Settings.default with mantissaDigits := 29 } ∧
      Display.text { Settings.default with mantissaDigits := 29 }
          (.ofDecimal ⟨false, 2 ^ 97, 0⟩) =
        .ok "1.58456325028528675187087900672E+29".toList ∧
      Decimal.ofNumeral? "1.58456325028528675187087900672E+29".toList =
        some ⟨false, 158456325028528675187087900672, 0⟩ ∧
      ofDisplay false "1.58456325028528675187087900672E+29".toList =
        .ok "158456325028528675187087900700".toList ∧
      number? "158456325028528675187087900700".toList =
        some ⟨false, 158456325028528675187087900700, 0⟩ ∧
      (⟨false, 158456325028528675187087900700, 0⟩ : Decimal).value ≠
        (⟨false, 158456325028528675187087900672, 0⟩ : Decimal).value := by
  decide +kernel

end Operand

end Reckoner
