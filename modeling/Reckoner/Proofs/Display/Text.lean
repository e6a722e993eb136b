import Reckoner.Binary64.Numeral
import Reckoner.Display
import Reckoner.Proofs.Binary64.Decimal
import Reckoner.Proofs.Decimal.Reading
/-!
# `Reckoner/Proofs/Display/Text.lean` — what a shown text says

A shown text is a decimal laid out, and the decimal is the value rounded to the digits that are
shown (`exists_magnitude_rounded`), which crosses no number of that many digits. Read as a number in
free form, the text gives the value nearest to that decimal, whichever layout it has
(`Display.exists_ofText?_of_text`).
-/

set_option autoImplicit false

namespace Reckoner

/-- Both counts of digits are from one to the bound. -/
structure Settings.DigitsWithin (settings : Settings) (bound : Nat) : Prop where
  significantDigits_pos : 1 ≤ settings.significantDigits
  significantDigits_le : settings.significantDigits ≤ bound
  mantissaDigits_pos : 1 ≤ settings.mantissaDigits
  mantissaDigits_le : settings.mantissaDigits ≤ bound

theorem Settings.digitsWithin_default : Settings.default.DigitsWithin 1000 := by
  constructor
  all_goals decide

/-! ## The decimal that is shown -/

namespace Display

theorem isStripped_rounded (count : Nat) (v : Binary64) : (rounded count v).IsStripped :=
  Decimal.isStripped_strip _

theorem negative_rounded (count : Nat) (v : Binary64) :
    (rounded count v).negative = v.isNegative := by
  rw [rounded, Decimal.negative_strip, ← Binary64.negative_toDecimal]
  rfl

/-- **The shown number is the value rounded to the digits that are shown.** It has no least
exponent, so any that is low enough will do. -/
theorem exists_magnitude_rounded (count : Nat) (v : Binary64) :
    ∃ bound : Int, ∀ least ≤ bound, (rounded count v).magnitude =
      roundDigits .awayFromZero 10 count least v.magnitude := by
  obtain ⟨bound, hbound⟩ := v.toDecimal.exists_magnitude_round .awayFromZero count
  refine ⟨bound, fun least hle => ?_⟩
  rw [rounded, Decimal.magnitude_strip, hbound least hle, Binary64.magnitude_toDecimal]

theorem coefficient_rounded_eq_zero {count : Nat} {v : Binary64} (hzero : v.magnitude = 0) :
    (rounded count v).coefficient = 0 := by
  obtain ⟨b, hb⟩ := exists_magnitude_rounded count v
  have hmag := hb b (Int.le_refl b)
  rw [hzero, roundDigits_zero] at hmag
  by_contra hne
  exact absurd hmag (Decimal.magnitude_pos hne).ne'

/-- The shown number has no more digits than are shown. -/
theorem coefficient_rounded_lt {count : Nat} (hcount : 0 < count) (v : Binary64) :
    (rounded count v).coefficient < 10 ^ count :=
  Decimal.coefficient_strip_round_lt _ hcount _

/-- **Rounded to be shown, no number that fits is crossed**, from below or from above. -/
theorem magnitude_rounded_le {count n : Nat} {k : Int} {v : Binary64} (hcount : 0 < count)
    (hfits : n < 10 ^ count) (h : v.magnitude ≤ n * (10 : Rat) ^ k) :
    (rounded count v).magnitude ≤ n * (10 : Rat) ^ k := by
  obtain ⟨b, hb⟩ := exists_magnitude_rounded count v
  rw [hb (min b k) (min_le_left _ _)]
  exact roundDigits_le_of_le .awayFromZero (b := 10) (by simp) hcount hfits (min_le_right _ _)
    v.magnitude_nonneg h

theorem le_magnitude_rounded {count n : Nat} {k : Int} {v : Binary64} (hcount : 0 < count)
    (hfits : n < 10 ^ count) (h : n * (10 : Rat) ^ k ≤ v.magnitude) :
    n * (10 : Rat) ^ k ≤ (rounded count v).magnitude := by
  obtain ⟨b, hb⟩ := exists_magnitude_rounded count v
  rw [hb (min b k) (min_le_left _ _)]
  exact le_roundDigits_of_le .awayFromZero (b := 10) (by simp) hcount hfits (min_le_right _ _) h

end Display

/-! ## The characters of a shown number -/

/-- The characters of which shown numbers consist. -/
def isShownChar (c : Char) : Bool := c.isDigit || ['-', '+', '.', 'E'].contains c

namespace Decimal

theorem isShownChar_of_isDigit {c : Char} (h : c.isDigit = true) : isShownChar c = true := by
  simp [isShownChar, h]

theorem isShownChar_signText {negative : Bool} {c : Char} (h : c ∈ signText negative) :
    isShownChar c = true := by
  cases negative with
  | true =>
    obtain rfl : c = '-' := by simpa [signText] using h
    rfl
  | false => exact absurd h (by simp [signText])

theorem isShownChar_exponentText {e : Int} {c : Char} (h : c ∈ exponentText e) :
    isShownChar c = true := by
  unfold exponentText at h
  rcases List.mem_cons.mp h with rfl | h
  · split <;> rfl
  · rcases List.mem_append.mp h with h | h
    · exact isShownChar_of_isDigit (isDigit_of_mem_zeros h)
    · exact isShownChar_of_isDigit (Nat.isDigit_of_mem_toDigits (by simp) (by simp) h)

theorem isShownChar_literal {whole fraction : List Char} (h : AreDigits whole fraction) {c : Char}
    (hc : c ∈ literal whole fraction) : isShownChar c = true := by
  rcases mem_literal h hc with hdigit | rfl
  · exact isShownChar_of_isDigit hdigit
  · rfl

theorem isShownChar_positional {d : Decimal} {c : Char} (h : c ∈ d.positional) :
    isShownChar c = true := by
  rcases mem_positional h with rfl | hdigit | rfl
  · rfl
  · exact isShownChar_of_isDigit hdigit
  · rfl

theorem isShownChar_scientific {d : Decimal} {places : Nat}
    (hfits : d.coefficient < 10 ^ (places + 1)) {c : Char} (h : c ∈ d.scientific places) :
    isShownChar c = true := by
  obtain ⟨whole, fraction, exponent, hdigits, htext, -⟩ := exists_scientific hfits
  have hliteral : ∀ x ∈ literal whole fraction, isShownChar x = true :=
    fun x => isShownChar_literal hdigits
  have hall : ∀ x ∈ d.scientific places, isShownChar x = true := by
    rw [htext]
    simp only [List.forall_mem_append, List.forall_mem_cons]
    exact ⟨fun x => isShownChar_signText, hliteral, rfl, fun x => isShownChar_exponentText⟩
  exact hall c h

end Decimal

namespace Display

/-- What is shown is one of the two layouts of a finite value. -/
theorem text_cases {settings : Settings} {v : Binary64} {text : List Char}
    (h : Display.text settings v = .ok text) : v.isFinite = true ∧
      (usesScientific settings v = true ∧ text = scientificText settings.mantissaDigits v ∨
        usesScientific settings v = false ∧ text = plainText settings.significantDigits v) := by
  unfold Display.text at h
  split at h
  · next huses =>
    split at h
    · cases h
    · split at h
      · next hv => cases h; exact ⟨hv, .inl ⟨huses, rfl⟩⟩
      · cases h
  · next huses =>
    split at h
    · cases h
    · split at h
      · next hv => cases h; exact ⟨hv, .inr ⟨by simpa using huses, rfl⟩⟩
      · cases h

theorem isPrecision_iff {count : Nat} : isPrecision count = true ↔ 1 ≤ count ∧ count ≤ maxDigits := by
  simp [isPrecision]

/-- The digits to which a value is rounded to be shown. -/
def shownDigits (settings : Settings) (v : Binary64) : Nat :=
  if usesScientific settings v then settings.mantissaDigits + 1 else settings.significantDigits

/-- **A value has a text if and only if it is finite**, and a decimal may have the digits that are
asked for. -/
theorem exists_text_iff {settings : Settings} {v : Binary64} :
    (∃ text, Display.text settings v = .ok text) ↔
      v.isFinite = true ∧ isPrecision (shownDigits settings v) = true := by
  unfold Display.text shownDigits
  cases usesScientific settings v with
  | true =>
    cases hcount : isPrecision (settings.mantissaDigits + 1)
    all_goals cases v.isFinite <;> simp [hcount]
  | false =>
    cases hcount : isPrecision settings.significantDigits
    all_goals cases v.isFinite <;> simp [hcount]

/-- So a finite value has one, if the settings ask for a digit at least and for not too many. -/
theorem exists_text {settings : Settings} {bound : Nat} (h : settings.DigitsWithin bound)
    (hbound : bound < maxDigits) {v : Binary64} (hv : v.isFinite = true) :
    ∃ text, Display.text settings v = .ok text := by
  refine exists_text_iff.mpr ⟨hv, isPrecision_iff.mpr ?_⟩
  unfold shownDigits
  split
  · exact ⟨Nat.succ_pos _, h.mantissaDigits_le.trans_lt hbound⟩
  · exact ⟨h.significantDigits_pos, h.significantDigits_le.trans hbound.le⟩

/-- With one digit there is no point, and with none there is no text. -/
example : Display.text { Settings.default with mantissaDigits := 0 } (.ofDecimal ⟨true, 15, 9⟩) =
      .ok "-2E+10".toList ∧
    Display.text { Settings.default with significantDigits := 0 } .one =
      .error .digitsOutOfRange := by decide +kernel

theorem isShownChar_scientificText {places : Nat} {v : Binary64} {c : Char}
    (h : c ∈ scientificText places v) : isShownChar c = true :=
  Decimal.isShownChar_scientific (coefficient_rounded_lt (Nat.succ_pos places) v) h

theorem isShownChar_plainText {count : Nat} {v : Binary64} {c : Char} (h : c ∈ plainText count v) :
    isShownChar c = true := by
  simp only [plainText] at h
  split at h
  · obtain rfl : c = '0' := by simpa using h
    rfl
  · exact Decimal.isShownChar_positional h

/-- A text that is shown is not empty, and consists of the characters of numbers. -/
theorem spec_of_text {settings : Settings} {v : Binary64} {text : List Char}
    (h : Display.text settings v = .ok text) : text ≠ [] ∧ ∀ c ∈ text, isShownChar c = true := by
  obtain ⟨-, ⟨-, rfl⟩ | ⟨-, rfl⟩⟩ := text_cases h
  · exact ⟨by simp [scientificText, Decimal.scientific], fun c => isShownChar_scientificText⟩
  · refine ⟨?_, fun c => isShownChar_plainText⟩
    simp only [plainText]
    split
    · simp
    · exact Decimal.positional_ne_nil _

end Display

/-! ## Reading it in free form -/

/-- What the characters that are shown have in common can be looked up. -/
theorem of_isShownChar {P : Char → Prop} [DecidablePred P]
    (hP : "0123456789-+.E".toList.all (fun d => P d) = true) {c : Char}
    (h : isShownChar c = true) : P c := by
  refine of_decide_eq_true (List.all_eq_true.mp hP c ?_)
  simp only [isShownChar, Bool.or_eq_true, List.contains_iff_mem] at h
  rcases h with h | h
  · have hdigits : ∀ n < 58, 48 ≤ n → Char.ofNat n ∈ "0123456789-+.E".toList := by decide
    rw [Char.isDigit, Bool.and_eq_true, decide_eq_true_eq, decide_eq_true_eq] at h
    have hlower : 48 ≤ c.toNat := h.1
    have hupper : c.toNat ≤ 57 := h.2
    rw [← Char.ofNat_toNat c]
    exact hdigits c.toNat (Nat.lt_succ_of_le hupper) hlower
  · exact List.mem_append_right "0123456789".toList h

namespace Binary64

/-- To free form, the characters of a shown number are plain. -/
theorem plain_of_isShownChar {c : Char} (h : isShownChar c = true) :
    plainChar c = c ∧ c ≠ '_' ∧ Text.isAsciiBlank c = false :=
  of_isShownChar (P := fun c => plainChar c = c ∧ c ≠ '_' ∧ Text.isAsciiBlank c = false)
    (by decide) h

theorem dropWhile_eq_self {p : Char → Bool} {text : List Char} (h : ∀ c ∈ text, p c = false) :
    text.dropWhile p = text := by
  cases text with
  | nil => rfl
  | cons c rest => simp [h c (by simp)]

theorem trim_eq_self {blank : Char → Bool} {text : List Char} (h : ∀ c ∈ text, blank c = false) :
    Text.trim blank text = text := by
  unfold Text.trim
  rw [dropWhile_eq_self h, dropWhile_eq_self, List.reverse_reverse]
  intro c hc
  exact h c (by simpa using hc)

theorem dropUnderscores?_eq_self {text : List Char} (h : ∀ c ∈ text, c ≠ '_') (before : Char) :
    dropUnderscores? before text = some text := by
  induction text generalizing before with
  | nil => rfl
  | cons c rest ih =>
    rw [dropUnderscores?, if_neg (h c (by simp)), ih fun x hx => h x (List.mem_cons_of_mem c hx)]
    rfl

theorem ofText?_eq_ofNumeral? {text : List Char} (h : ∀ c ∈ text, isShownChar c = true)
    {d : Decimal} (hd : Decimal.ofNumeral? text = some d) : ofText? text = some (ofDecimal d) := by
  have hplain : text.map plainChar = text := by
    refine List.map_congr_left (fun c hc => (plain_of_isShownChar (h c hc)).1) |>.trans ?_
    exact List.map_id text
  have htrim : Text.trim Text.isAsciiBlank text = text :=
    trim_eq_self fun c hc => (plain_of_isShownChar (h c hc)).2.2
  have hunder : dropUnderscores? ' ' text = some text :=
    dropUnderscores?_eq_self (fun c hc => (plain_of_isShownChar (h c hc)).2.1) ' '
  simp [ofText?, hplain, htrim, hunder, hd]

end Binary64

namespace Display

theorem shownDigits_pos {settings : Settings} (h : settings.DigitsWithin 1000) (v : Binary64) :
    0 < shownDigits settings v := by
  unfold shownDigits
  split
  · exact Nat.succ_pos _
  · exact h.significantDigits_pos

/-- **A shown text denotes the shown number**, in either layout. -/
theorem exists_ofNumeral?_of_text {settings : Settings} {v : Binary64} {text : List Char}
    (h : Display.text settings v = .ok text) : ∃ d, Decimal.ofNumeral? text = some d ∧
      d.value = (rounded (shownDigits settings v) v).value := by
  obtain ⟨-, ⟨huses, rfl⟩ | ⟨hplain, rfl⟩⟩ := text_cases h
  · rw [shownDigits, if_pos huses]
    obtain ⟨d, hread, hneg, hmag, -⟩ :=
      Decimal.ofNumeral?_scientific (coefficient_rounded_lt (Nat.succ_pos settings.mantissaDigits) v)
    exact ⟨d, hread, Decimal.value_eq_of_magnitude_eq hneg hmag⟩
  · rw [shownDigits, if_neg (by simp [hplain])]
    simp only [plainText]
    split
    · next hzero =>
      -- No zero is shown with a sign, but all zeros are one number.
      refine ⟨⟨false, 0, 0⟩, by decide, ?_⟩
      rw [Decimal.value_eq_zero rfl, Decimal.value_eq_zero hzero]
    · obtain ⟨d, hread, hneg, hmag⟩ :=
        (rounded settings.significantDigits v).ofNumeral?_positional
      exact ⟨d, hread, Decimal.value_eq_of_magnitude_eq hneg hmag⟩

/-- **A shown text is read as the value nearest to the number that it denotes.** -/
theorem exists_ofText?_of_text {settings : Settings} {v : Binary64} {text : List Char}
    (h : Display.text settings v = .ok text) : ∃ d, Decimal.ofNumeral? text = some d ∧
      d.value = (rounded (shownDigits settings v) v).value ∧
      Binary64.ofText? text = some (.ofDecimal d) := by
  obtain ⟨d, hread, hvalue⟩ := exists_ofNumeral?_of_text h
  exact ⟨d, hread, hvalue, Binary64.ofText?_eq_ofNumeral? (spec_of_text h).2 hread⟩

/-- So it is read as the value nearest to the shown number, up to the sign of a zero. -/
theorem ofText?_of_text {settings : Settings} {v : Binary64} {text : List Char}
    (h : Display.text settings v = .ok text) : ∃ negative, Binary64.ofText? text =
      some (.ofRat negative (rounded (shownDigits settings v) v).magnitude) := by
  obtain ⟨d, -, hvalue, hread⟩ := exists_ofText?_of_text h
  rw [Binary64.ofDecimal_eq_ofRat, (Decimal.magnitude_eq_of_value_eq hvalue).1] at hread
  exact ⟨d.negative, hread⟩

end Display

end Reckoner
