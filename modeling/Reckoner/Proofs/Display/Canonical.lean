import Mathlib.Computability.Language
import Reckoner.Proofs.Binary64.Order
import Reckoner.Proofs.Decimal.Tidy
import Reckoner.Proofs.Display.Operand
/-!
# `Reckoner/Proofs/Display/Canonical.lean` — the form of a shown text

A number can be spelt in many ways, and it is shown in one. There are two forms, one with an exponent
and one without:

> **Every shown text has the form of its notation** (`text_canonical`). Written out, it has no zero in
> front of its digits nor behind its fraction, no point without a fraction, and no zero is negative.
> With an exponent it has one digit before the point, which is no zero, the places that are asked for
> behind it, and no more zeros in the exponent than two digits need.

So within a notation two texts are the same if and only if they show one number; which value was rounded
to it leaves no trace. Zero is left out where there is an exponent. Only unusual settings give it one, and
then its first digit is a zero and its sign is shown.

The forms are languages, put together as a regular expression is. A layout is not: it pads and cuts
lists. What lies between the two are digits with no zero in front, or behind.
-/

set_option autoImplicit false

namespace Reckoner

open scoped Computability

/-! ## Two forms -/

namespace Form

/-- A digit. -/
def digit : Language Char := {text | ∃ c, c.isDigit = true ∧ text = [c]}

/-- A digit, but no zero. -/
def nonzero : Language Char := {text | ∃ c, c.isDigit = true ∧ c ≠ '0' ∧ text = [c]}

/-- A minus sign, or nothing. -/
def sign : Language Char := 1 + {['-']}

/-- The digits before the point: no zero in front of others. -/
def whole : Language Char := {['0']} + nonzero * digit∗

/-- The point and the digits behind it, or nothing: no zero behind others. -/
def fraction : Language Char := 1 + {['.']} * (digit∗ * nonzero)

/-- A number without an exponent. -/
def plain : Language Char := sign * (whole * fraction)

/-- The sign of an exponent and its digits, two of them or more: no zero in front of two others. -/
def exponent : Language Char :=
  ({['+']} + {['-']}) * (digit * digit + nonzero * (digit * (digit * digit∗)))

/-- A number with an exponent, and so many places behind the point. -/
def scientific (places : Nat) : Language Char :=
  sign * (nonzero * ({['.']} * (digit ^ places * ({['E']} * exponent))))

variable {digits rest : List Char} {c : Char}

theorem cons_mem_mul {first others : Language Char} (hc : [c] ∈ first) (hrest : rest ∈ others) :
    c :: rest ∈ first * others :=
  Language.append_mem_mul hc hrest

/-- Digits are digits one after another, of which there are as many as the list is long. -/
theorem mem_digit_pow (h : ∀ c ∈ digits, c.isDigit = true) : digits ∈ digit ^ digits.length := by
  refine Language.mem_pow.mpr ⟨digits.map fun c => [c], ?_, List.length_map _, ?_⟩
  · exact (List.flatMap_singleton' digits).symm
  · intro text htext
    obtain ⟨c, hc, rfl⟩ := List.mem_map.mp htext
    exact ⟨c, h c hc, rfl⟩

theorem mem_digit_kstar (h : ∀ c ∈ digits, c.isDigit = true) : digits ∈ digit∗ := by
  rw [Language.kstar_eq_iSup_pow, Language.mem_iSup]
  exact ⟨_, mem_digit_pow h⟩

theorem mem_sign (negative : Bool) : Decimal.signText negative ∈ sign := by
  cases negative with
  | true => exact .inr rfl
  | false => exact .inl rfl

/-! ## Written out -/

section Plain

variable {before behind : List Char}

theorem mem_whole (h : Decimal.IsTidy before behind) : before ∈ whole := by
  rcases h.whole_tidy with rfl | hhead
  · exact .inl rfl
  · obtain ⟨c, rest, rfl⟩ := List.exists_cons_of_ne_nil h.whole_ne_nil
    obtain ⟨hc, hrest⟩ := List.forall_mem_cons.mp h.whole_digits
    have hne : c ≠ '0' := fun hzero => hhead (congrArg some hzero)
    exact .inr (cons_mem_mul ⟨c, hc, hne, rfl⟩ (mem_digit_kstar hrest))

theorem mem_fraction (h : Decimal.IsTidy before behind) :
    (if behind.isEmpty then [] else '.' :: behind) ∈ fraction := by
  rcases List.eq_nil_or_concat' behind with rfl | ⟨front, c, rfl⟩
  · exact .inl rfl
  · obtain ⟨hfront, hc⟩ := List.forall_mem_append.mp h.fraction_digits
    have hne : c ≠ '0' := by
      rintro rfl
      exact h.fraction_tidy List.getLast?_concat
    have hlast : [c] ∈ nonzero := ⟨c, hc c (List.mem_singleton_self c), hne, rfl⟩
    rw [if_neg (by simp)]
    exact .inr (cons_mem_mul rfl (Language.append_mem_mul (mem_digit_kstar hfront) hlast))

end Plain

end Form

namespace Decimal

variable {d : Decimal}

/-- **A number without zeros at its end is written out tidily.** -/
theorem IsStripped.exists_isTidy (h : d.IsStripped) : ∃ whole fraction, IsTidy whole fraction ∧
    d.positional = signText d.negative ++ literal whole fraction := by
  obtain ⟨whole, fraction, hdigits, -, hmag⟩ := d.exists_positional
  refine ⟨_, _, isTidy_tidy hdigits.whole_digits hdigits.fraction_digits, ?_⟩
  have hstrip : (ofDigits false (tidyWhole whole) (dropTrailingZeros fraction)).strip =
      { d with negative := false } := by
    refine eq_of_isStripped (isStripped_strip _) h (negative_strip _) ?_
    rw [magnitude_strip, magnitude_tidy]
    exact hmag
  rw [(isTidy_tidy hdigits.whole_digits hdigits.fraction_digits).literal_eq, hstrip]
  exact positional_eq_append { d with negative := false } rfl d.negative

theorem positional_mem_plain (h : d.IsStripped) : d.positional ∈ Form.plain := by
  obtain ⟨whole, fraction, htidy, htext⟩ := h.exists_isTidy
  rw [htext]
  exact Language.append_mem_mul (Form.mem_sign _)
    (Language.append_mem_mul (Form.mem_whole htidy) (Form.mem_fraction htidy))

/-- Only a zero is written out as one. -/
theorem positional_ne_minus_zero (hne : d.coefficient ≠ 0) : d.positional ≠ ['-', '0'] := by
  intro hzero
  obtain ⟨e, hread, -, hmag⟩ := d.ofNumeral?_positional
  have hnone : ofNumeral? ['-', '0'] = some ⟨true, 0, 0⟩ := by decide
  rw [hzero, hnone, Option.some.injEq] at hread
  rw [← hread, magnitude_eq_zero rfl] at hmag
  exact (magnitude_pos hne).ne hmag

/-! ## With an exponent -/

/-- The digits of an exponent are padded to two, so only one digit by itself gets a zero in front. -/
theorem exponentText_mem_exponent (e : Int) : exponentText e ∈ Form.exponent := by
  have hsign : [if e < 0 then '-' else '+'] ∈ ({['+']} + {['-']} : Language Char) := by
    split
    · exact .inr rfl
    · exact .inl rfl
  refine Form.cons_mem_mul hsign ?_
  obtain ⟨digits, htext⟩ : ∃ digits, Nat.toDigits 10 e.natAbs = digits := ⟨_, rfl⟩
  have hdigits : ∀ c ∈ digits, c.isDigit = true := by
    rw [← htext]
    exact fun c hc => Nat.isDigit_of_mem_toDigits (by simp) (by simp) hc
  have hone : ∀ c ∈ digits, [c] ∈ Form.digit := fun c hc => ⟨c, hdigits c hc, rfl⟩
  simp only [htext]
  match digits with
  | [] => exact absurd htext Nat.toDigits_ne_nil
  | [a] => exact .inl (Form.cons_mem_mul ⟨'0', rfl, rfl⟩ (hone a (by simp)))
  | [a, b] => exact .inl (Form.cons_mem_mul (hone a (by simp)) (hone b (by simp)))
  | a :: b :: c :: rest =>
    have hne : e.natAbs ≠ 0 := by
      intro hzero
      rw [hzero] at htext
      cases htext
    have hhead := head?_toDigits hne
    rw [htext] at hhead
    have hfirst : [a] ∈ Form.nonzero := ⟨a, hdigits a (by simp), fun ha => hhead (congrArg some ha), rfl⟩
    have hrest : ∀ x ∈ rest, x.isDigit = true := fun x hx => hdigits x (by simp [hx])
    rw [Nat.sub_eq_zero_of_le (by simp)]
    exact .inr (Form.cons_mem_mul hfirst (Form.cons_mem_mul (hone b (by simp))
      (Form.cons_mem_mul (hone c (by simp)) (Form.mem_digit_kstar hrest))))

/-- The leading digit of a number that is not zero is no zero. -/
theorem scientific_mem_scientific {places : Nat} (hpos : 0 < places)
    (hfits : d.coefficient < 10 ^ (places + 1)) (hne : d.coefficient ≠ 0) :
    d.scientific places ∈ Form.scientific places := by
  obtain ⟨c, rest, htext⟩ := List.exists_cons_of_ne_nil d.digits_ne_nil
  have hlength : rest.length ≤ places := by
    have hle := (Nat.length_toDigits_le_iff (by simp) (Nat.succ_pos places)).mpr hfits
    rw [← digits, htext, List.length_cons] at hle
    exact Nat.le_of_succ_le_succ hle
  have hdigits : ∀ x ∈ c :: rest, x.isDigit = true := by
    rw [← htext]
    exact fun x => isDigit_of_mem_digits
  obtain ⟨hc, hrest⟩ := List.forall_mem_cons.mp hdigits
  have hhead : c ≠ '0' := by
    have hfirst := head?_toDigits hne
    rw [← digits, htext] at hfirst
    exact fun hzero => hfirst (congrArg some hzero)
  have hcount : (rest ++ List.replicate (places - rest.length) '0').length = places := by
    rw [List.length_append, List.length_replicate, Nat.add_sub_cancel' hlength]
  -- There is a place, so there is a point in front of it.
  have hpoint : rest ++ List.replicate (places - rest.length) '0' ≠ [] := by
    rwa [← List.length_pos_iff, hcount]
  have hplaces : rest ++ List.replicate (places - rest.length) '0' ∈ Form.digit ^ places := by
    have hpow := Form.mem_digit_pow
      (List.forall_mem_append.mpr ⟨hrest, fun x => isDigit_of_mem_zeros (n := places - rest.length)⟩)
    rwa [hcount] at hpow
  have hexponent := exponentText_mem_exponent d.leadingExponent
  have hlayout : d.scientific places = signText d.negative ++ ([c] ++ ('.' ::
      ((rest ++ List.replicate (places - rest.length) '0') ++
        'E' :: exponentText d.leadingExponent))) := by
    simp [scientific, literal, htext, hne, hpoint]
  rw [hlayout]
  exact Language.append_mem_mul (Form.mem_sign _) (Language.append_mem_mul ⟨c, hc, hhead, rfl⟩
    (Form.cons_mem_mul rfl (Language.append_mem_mul hplaces (Form.cons_mem_mul rfl hexponent))))

end Decimal

/-! ## What is shown -/

namespace Display

variable {settings : Settings} {v w : Binary64}

theorem plainText_mem_plain (count : Nat) (v : Binary64) :
    plainText count v ∈ Form.plain ∧ plainText count v ≠ ['-', '0'] := by
  simp only [plainText]
  split
  · have hzero : ['0'] ∈ Form.whole := .inl rfl
    have hnothing : [] ∈ Form.fraction := .inl rfl
    exact ⟨Language.append_mem_mul (Form.mem_sign false) (Language.append_mem_mul hzero hnothing),
      by decide⟩
  · next hne =>
    exact ⟨Decimal.positional_mem_plain (isStripped_rounded count v),
      Decimal.positional_ne_minus_zero hne⟩

theorem scientificText_mem_scientific {places : Nat} (hplaces : 0 < places)
    (hv : v.isFinite = true) (hne : v.isZero = false) :
    scientificText places v ∈ Form.scientific places :=
  Decimal.scientific_mem_scientific hplaces (coefficient_rounded_lt (Nat.succ_pos places) v)
    (coefficient_rounded_ne_zero (Nat.succ_pos places) (Binary64.magnitude_pos hv hne))

/-- Values that are shown as one number in one notation have one text. -/
theorem text_eq_of_rounded_eq (hv : v.isFinite = true) (hw : w.isFinite = true)
    (hlayout : usesScientific settings v = usesScientific settings w)
    (hshown : rounded (shownDigits settings v) v = rounded (shownDigits settings w) w) :
    Display.text settings v = Display.text settings w := by
  rw [shownDigits, shownDigits, ← hlayout] at hshown
  rw [Display.text, Display.text, ← hlayout, hv, hw]
  split
  · next huses =>
    rw [if_pos huses] at hshown
    rw [scientificText, scientificText, hshown]
  · next huses =>
    rw [if_neg huses] at hshown
    rw [plainText, plainText, hshown]

/-- The number that is shown, if it is not zero, determines the decimal. -/
theorem rounded_eq_of_value_eq {count : Nat} (hcount : 0 < count) (hv : v.isFinite = true)
    (hne : v.isZero = false) (h : (rounded count v).value = (rounded count w).value) :
    rounded count v = rounded count w := by
  have hpos := Decimal.magnitude_pos
    (coefficient_rounded_ne_zero hcount (Binary64.magnitude_pos hv hne))
  obtain ⟨hmag, hneg⟩ := Decimal.magnitude_eq_of_value_eq h
  exact Decimal.eq_of_isStripped (isStripped_rounded count v) (isStripped_rounded count w)
    (hneg hpos) hmag

theorem mem_plain_of_text {text : List Char} (h : Display.text settings v = .ok text)
    (hplain : usesScientific settings v = false) : text ∈ Form.plain ∧ text ≠ ['-', '0'] := by
  obtain ⟨-, ⟨huses, -⟩ | ⟨-, rfl⟩⟩ := text_cases h
  · rw [hplain] at huses
    cases huses
  · exact plainText_mem_plain settings.significantDigits v

theorem mem_scientific_of_text {text : List Char} (hplaces : 0 < settings.mantissaDigits)
    (h : Display.text settings v = .ok text) (huses : usesScientific settings v = true)
    (hne : v.isZero = false) : text ∈ Form.scientific settings.mantissaDigits := by
  obtain ⟨hv, ⟨-, rfl⟩ | ⟨hplain, -⟩⟩ := text_cases h
  · exact scientificText_mem_scientific hplaces hv hne
  · rw [huses] at hplain
    cases hplain

/-- In one layout the text says which number is shown: it is read as that number. -/
theorem text_eq_iff (h : settings.DigitsWithin 1000) (hv : v.isFinite = true)
    (hw : w.isFinite = true) (hne : v.isZero = false)
    (hlayout : usesScientific settings v = usesScientific settings w) :
    Display.text settings v = Display.text settings w ↔
      (rounded (shownDigits settings v) v).value = (rounded (shownDigits settings w) w).value := by
  constructor
  · intro hsame
    obtain ⟨text, htext⟩ := exists_text h (by decide) hv
    obtain ⟨d, hread, hvalue⟩ := exists_ofNumeral?_of_text htext
    obtain ⟨e, hread', hvalue'⟩ := exists_ofNumeral?_of_text (hsame.symm.trans htext)
    obtain rfl : d = e := Option.some.inj (hread.symm.trans hread')
    exact hvalue.symm.trans hvalue'
  · intro hvalue
    have hdigits : shownDigits settings v = shownDigits settings w := by
      rw [shownDigits, shownDigits, hlayout]
    rw [hdigits] at hvalue
    refine text_eq_of_rounded_eq hv hw hlayout ?_
    rw [hdigits]
    exact rounded_eq_of_value_eq (shownDigits_pos h w) hv hne hvalue

/-- **A shown text is canonical.** Every finite value has one. It has the form of its notation, with as
many places behind the point as the settings say, and is never minus zero. Two values in one notation,
of which one is not zero, have the same text if and only if they are rounded to the same number. -/
theorem text_canonical (h : settings.DigitsWithin 1000) :
    (∀ v : Binary64, v.isFinite = true → ∃ text, Display.text settings v = .ok text ∧
      (usesScientific settings v = false → text ∈ Form.plain ∧ text ≠ ['-', '0']) ∧
      (usesScientific settings v = true → v.isZero = false →
        text ∈ Form.scientific settings.mantissaDigits)) ∧
    ∀ v w : Binary64, v.isFinite = true → w.isFinite = true → v.isZero = false →
      usesScientific settings v = usesScientific settings w →
      (Display.text settings v = Display.text settings w ↔
        (rounded (shownDigits settings v) v).value = (rounded (shownDigits settings w) w).value) := by
  refine ⟨fun v hv => ?_, fun v w => text_eq_iff h⟩
  obtain ⟨text, htext⟩ := exists_text h (by decide) hv
  exact ⟨text, htext, mem_plain_of_text htext, mem_scientific_of_text h.mantissaDigits_pos htext⟩

/-- By default minus a third is written out, a hundred thousand million has an exponent and six places,
and a third has the text of its first fifteen digits. -/
theorem text_canonical_default : Settings.default.DigitsWithin 1000 ∧
    (∃ text, Display.text Settings.default (.ofRat true (1 / 3)) = .ok text ∧ text ∈ Form.plain) ∧
    (∃ text, Display.text Settings.default (.ofRat false (10 ^ 11)) = .ok text ∧
      text ∈ Form.scientific 6) ∧
    Display.text Settings.default (.ofRat false (1 / 3)) =
      Display.text Settings.default (.ofRat false (333333333333333 / 10 ^ 15)) := by
  have h := text_canonical Settings.digitsWithin_default
  refine ⟨Settings.digitsWithin_default, ?_, ?_, ?_⟩
  · obtain ⟨text, htext, hplain, -⟩ := h.1 (.ofRat true (1 / 3)) (by decide +kernel)
    exact ⟨text, htext, (hplain (by decide +kernel)).1⟩
  · obtain ⟨text, htext, -, hscientific⟩ := h.1 (.ofRat false (10 ^ 11)) (by decide +kernel)
    exact ⟨text, htext, hscientific (by decide +kernel) (by decide +kernel)⟩
  · exact (h.2 _ _ (by decide +kernel) (by decide +kernel) (by decide +kernel)
      (by decide +kernel)).mpr (by decide +kernel)

end Display

end Reckoner
