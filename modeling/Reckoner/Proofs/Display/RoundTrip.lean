import Reckoner.Proofs.Decimal.Literal
import Reckoner.Proofs.Display.Text
import Reckoner.Proofs.Spelling
import Reckoner.Proofs.Stages
import Reckoner.Proofs.Token.Reading
/-!
# `Reckoner/Proofs/Display/RoundTrip.lean` — a shown text typed in again

With the default settings a result is shown in one of two layouts, and only one of them is in the
language of expressions. So a shown text that is typed in again has one of two outcomes:

> **A number written out is its own result** (`evaluate_plainText`), with one exception: the text
> `10000000000`, which stands for values a little below `1e10`, denotes `1e10`, and that is shown
> with an exponent. **A number with an exponent is refused** at its letter
> (`evaluate_scientificText`).

Written out, it survives because a shown decimal has fifteen digits, and fifteen digits survive
rounding to 53 bits. It is written out again because its value lies between the same two bounds: no
rounding on the way crosses one of them.
-/

set_option autoImplicit false

namespace Reckoner

/-! ## The bounds between the layouts -/

namespace Display

/-- The least magnitude that is written out by default, the value nearest to `1e-6`. -/
def leastPlain : Rat := (4722366482869645 : Nat) * (2 : Rat) ^ (-72 : Int)

/-- The two bounds, as they are stored. -/
theorem scientific_default :
    Settings.default.scientificUpper = .finite false 5242880000000000 (-19) (by decide) ∧
      Settings.default.scientificLower = .finite false 4722366482869645 (-72) (by decide) := by
  decide +kernel

theorem magnitude_upper : ((5242880000000000 : Nat) : Rat) * (2 : Rat) ^ (-19 : Int) = 10 ^ 10 := by
  norm_num

theorem upper_le_greatest : 10 ^ 10 ≤ Binary64.greatest :=
  le_trans (by norm_num) (Binary64.two_zpow_le_greatest (k := 34) (by simp))

/-- By default, an exponent is shown from `1e10` on, and below the value nearest to `1e-6`. -/
theorem usesScientific_default_iff {v : Binary64} (hv : v.isFinite = true) :
    usesScientific Settings.default v = true ↔
      10 ^ 10 ≤ v.magnitude ∨ 0 < v.magnitude ∧ v.magnitude < leastPlain := by
  cases v with
  | nan => exact absurd hv (by simp [Binary64.isFinite])
  | infinity negative => exact absurd hv (by simp [Binary64.isFinite])
  | finite negative m e h =>
    unfold usesScientific
    rw [scientific_default.1, scientific_default.2]
    simp only [Binary64.abs, Binary64.le, Binary64.lt, Binary64.zero, Binary64.value,
      Binary64.isNegative, Binary64.magnitude, Bool.false_eq_true, ↓reduceIte, Bool.or_eq_true,
      Bool.and_eq_true, Bool.not_eq_true', decide_eq_true_eq, decide_eq_false_iff_not, not_lt,
      magnitude_upper, Nat.cast_zero, zero_mul]
    rfl

theorem magnitude_lt_of_plain {v : Binary64} (hv : v.isFinite = true)
    (hplain : usesScientific Settings.default v = false) : v.magnitude < 10 ^ 10 := by
  by_contra hge
  have huses := (usesScientific_default_iff hv).mpr (.inl (not_lt.mp hge))
  rw [hplain] at huses
  exact absurd huses (by simp)

theorem leastPlain_le_of_plain {v : Binary64} (hv : v.isFinite = true) (hpos : 0 < v.magnitude)
    (hplain : usesScientific Settings.default v = false) : leastPlain ≤ v.magnitude := by
  by_contra hlt
  have huses := (usesScientific_default_iff hv).mpr (.inr ⟨hpos, not_le.mp hlt⟩)
  rw [hplain] at huses
  exact absurd huses (by simp)

/-- Rounded to be shown, the lower bound is `1e-6`. -/
theorem roundDigits_leastPlain {l : Int} (hl : l ≤ -6) :
    roundDigits .awayFromZero 10 15 l leastPlain = (10 : Rat) ^ (-6 : Int) := by
  have hnear := roundDigits_eq_of_near .awayFromZero (b := 10) (p := 15) (n := 1) (k := -6)
    (l := l) (x := leastPlain) (by simp) (by simp) hl (by norm_num [leastPlain])
    (by norm_num [leastPlain, abs_lt])
  rw [hnear]
  norm_num

/-! ## Fifteen digits -/

/-- **A decimal of fifteen digits is shown by the value nearest to it.** -/
theorem rounded_of_nearest {d : Decimal} (hstripped : d.IsStripped)
    (hfits : d.coefficient < 10 ^ 15) (hnormal : (2 : Rat) ^ (-1022 : Int) ≤ d.magnitude)
    {v : Binary64} (hneg : v.isNegative = d.negative)
    (hmag : v.magnitude = Binary64.nearest d.magnitude) : rounded 15 v = d := by
  refine Decimal.eq_of_isStripped (isStripped_rounded 15 v) hstripped ?_ ?_
  · rw [negative_rounded, hneg]
  · obtain ⟨b, hb⟩ := exists_magnitude_rounded 15 v
    rw [hb (min b d.exponent) (by omega), hmag]
    exact Binary64.roundDigits_nearest _ le_rfl hfits (min_le_right _ _) hnormal

/-- **What is shown by default** is one of the two layouts of a finite value. -/
theorem text_default_cases {v : Binary64} {text : List Char}
    (h : Display.text Settings.default v = .ok text) : v.isFinite = true ∧
      (usesScientific Settings.default v = true ∧ text = scientificText 6 v ∨
        usesScientific Settings.default v = false ∧ text = plainText 15 v) :=
  text_cases h

theorem text_default_of_scientific {v : Binary64} (hv : v.isFinite = true)
    (huses : usesScientific Settings.default v = true) :
    Display.text Settings.default v = .ok (scientificText 6 v) := by
  rw [Display.text, if_pos huses, if_neg (by decide), if_pos hv]
  rfl

theorem text_default_of_plain {v : Binary64} (hv : v.isFinite = true)
    (hplain : usesScientific Settings.default v = false) :
    Display.text Settings.default v = .ok (plainText 15 v) := by
  rw [Display.text, if_neg (by simp [hplain]), if_neg (by decide), if_pos hv]
  rfl

theorem text_default_of_zero {v : Binary64} (hv : v.isFinite = true)
    (hzero : v.magnitude = 0) : Display.text Settings.default v = .ok ['0'] := by
  have hplain : usesScientific Settings.default v = false := by
    rw [Bool.eq_false_iff]
    intro huses
    rcases (usesScientific_default_iff hv).mp huses with hlarge | ⟨hpos, -⟩
    · rw [hzero] at hlarge
      exact absurd hlarge (by norm_num)
    · exact hpos.ne' hzero
  rw [text_default_of_plain hv hplain, plainText]
  simp only [coefficient_rounded_eq_zero hzero, ↓reduceIte]

theorem magnitude_rounded_le_of_plain {v : Binary64} (hv : v.isFinite = true)
    (hplain : usesScientific Settings.default v = false) : (rounded 15 v).magnitude ≤ 10 ^ 10 := by
  have hle := magnitude_rounded_le (n := 10 ^ 10) (k := 0) (v := v) (Nat.succ_pos 14) (by simp)
  rw [zpow_zero, mul_one, Nat.cast_pow, Nat.cast_ofNat] at hle
  exact hle (magnitude_lt_of_plain hv hplain).le

/-- Rounded to be shown, what is written out stays between the bounds. -/
theorem magnitude_rounded_of_plain {v : Binary64} (hv : v.isFinite = true)
    (hplain : usesScientific Settings.default v = false)
    (hne : (rounded 15 v).coefficient ≠ 0) :
    (10 : Rat) ^ (-6 : Int) ≤ (rounded 15 v).magnitude ∧ (rounded 15 v).magnitude ≤ 10 ^ 10 := by
  refine ⟨?_, magnitude_rounded_le_of_plain hv hplain⟩
  have hpos : 0 < v.magnitude := by
    refine v.magnitude_nonneg.lt_of_ne ?_
    intro hzero
    exact hne (coefficient_rounded_eq_zero hzero.symm)
  obtain ⟨b, hb⟩ := exists_magnitude_rounded 15 v
  rw [hb (min b (-6)) (by omega), ← roundDigits_leastPlain (l := min b (-6)) (by omega)]
  exact roundDigits_mono _ (by simp) (by simp) (by norm_num [leastPlain])
    (leastPlain_le_of_plain hv hpos hplain)

/-- From `1e10` on, no number below it is shown. -/
theorem le_magnitude_rounded_of_large {v : Binary64} (h : 10 ^ 10 ≤ v.magnitude) :
    10 ^ 10 ≤ (rounded 7 v).magnitude := by
  have hle := le_magnitude_rounded (n := 1) (k := 10) (v := v) (Nat.succ_pos 6) (by simp)
    (by norm_num; exact_mod_cast h)
  norm_num at hle ⊢
  exact hle

/-- Below the lower bound of what is written out, no number above `1e-6` is shown. -/
theorem magnitude_rounded_le_of_small {v : Binary64} (h : v.magnitude < leastPlain) :
    (rounded 7 v).magnitude ≤ (10 : Rat) ^ (-6 : Int) := by
  have hbound : leastPlain ≤ (10 : Rat) ^ (-6 : Int) := by norm_num [leastPlain]
  have hround := magnitude_rounded_le (n := 1) (k := -6) (v := v) (Nat.succ_pos 6) (by simp)
  rw [Nat.cast_one, one_mul] at hround
  exact hround (h.le.trans hbound)

/-- **Reading crosses none of the two bounds**, for a decimal of at most fifteen digits. -/
theorem nearest_mem_plain {d : Decimal} (hfits : d.coefficient < 10 ^ 15)
    (hlower : (10 : Rat) ^ (-6 : Int) ≤ d.magnitude) (hupper : d.magnitude < 10 ^ 10) :
    leastPlain ≤ Binary64.nearest d.magnitude ∧ Binary64.nearest d.magnitude < 10 ^ 10 := by
  constructor
  · exact Binary64.le_nearest_of_le (le_trans (by norm_num) hlower) (by simp) (by simp)
  · -- Below the upper bound there is a value that no decimal of fifteen digits gets beyond.
    have hbelow : d.magnitude ≤ (5242879999999999 : Nat) * (2 : Rat) ^ (-19 : Int) := by
      rcases Decimal.magnitude_le_or_ge hfits (-5) with hle | hge
      · exact hle.trans (by norm_num)
      · refine absurd hupper (not_lt.mpr (le_trans ?_ hge))
        norm_num
    have hle := Binary64.nearest_le_of_le d.magnitude_nonneg hbelow (by simp) (by simp)
    exact hle.trans_lt (by norm_num)

theorem plain_of_magnitude {v : Binary64} (hv : v.isFinite = true)
    (hlower : leastPlain ≤ v.magnitude) (hupper : v.magnitude < 10 ^ 10) :
    usesScientific Settings.default v = false := by
  rw [Bool.eq_false_iff]
  intro huses
  rcases (usesScientific_default_iff hv).mp huses with hlarge | ⟨-, hsmall⟩
  · exact absurd hlarge (not_le.mpr hupper)
  · exact absurd hsmall (not_lt.mpr hlower)

theorem nearest_lt_of_plain {d : Decimal} (hfits : d.coefficient < 10 ^ 15)
    (hlower : (10 : Rat) ^ (-6 : Int) ≤ d.magnitude) (hupper : d.magnitude < 10 ^ 10) :
    Binary64.nearest d.magnitude < (2 : Rat) ^ (1024 : Int) :=
  ((nearest_mem_plain hfits hlower hupper).2.le.trans upper_le_greatest).trans_lt
    Binary64.greatest_lt

/-- **A decimal of fifteen digits is shown written out by the value nearest to it**, if it lies
between the bounds. -/
theorem text_of_nearest {d : Decimal} (hstripped : d.IsStripped) (hfits : d.coefficient < 10 ^ 15)
    (hlower : (10 : Rat) ^ (-6 : Int) ≤ d.magnitude) (hupper : d.magnitude < 10 ^ 10)
    {v : Binary64} (hv : v.isFinite = true) (hneg : v.isNegative = d.negative)
    (hmag : v.magnitude = Binary64.nearest d.magnitude) :
    Display.text Settings.default v = .ok d.positional := by
  have hpos : 0 < d.magnitude := (zpow_pos (by simp) _).trans_le hlower
  obtain ⟨hge, hlt⟩ := nearest_mem_plain hfits hlower hupper
  have hplain := plain_of_magnitude hv (hmag ▸ hge) (hmag ▸ hlt)
  have hnormal : (2 : Rat) ^ (-1022 : Int) ≤ d.magnitude := by
    refine le_trans (zpow_le_zpow_right₀ (n := -20) one_le_two (by simp)) (le_trans ?_ hlower)
    norm_num
  have hrounded := rounded_of_nearest hstripped hfits hnormal hneg hmag
  have hcoefficient : d.coefficient ≠ 0 := by
    intro hzero
    rw [Decimal.magnitude_eq_zero hzero] at hpos
    exact absurd hpos (lt_irrefl _)
  rw [text_default_of_plain hv hplain, plainText, hrounded]
  simp only [hcoefficient, ↓reduceIte]

end Display

/-! ## Evaluating a shown text -/

/-- By default, the result of an expression is the text of a value. -/
theorem Evaluation.exists_text_of_evaluate {expression text : List Char}
    (h : evaluate Settings.default expression = .ok (.ok text)) :
    ∃ v, Display.text Settings.default v = .ok text := by
  by_cases hne : expression = []
  · subst hne
    cases h
    exact ⟨.zero false, Display.text_default_of_zero rfl (Binary64.magnitude_zero false)⟩
  · obtain ⟨v, -, htext⟩ := (evaluate_eq_ok_iff hne).mp h
    exact ⟨v, htext⟩

namespace Spelling

theorem canonical_eq_self {text : List Char} (h : ∀ c ∈ text, isShownChar c = true) :
    canonical text = text := by
  have hplain : ∀ c ∈ text, expandGlyph c = [c] ∧ c ≠ '(' ∧ c ≠ ')' := by
    intro c hc
    exact of_isShownChar (P := fun c => expandGlyph c = [c] ∧ c ≠ '(' ∧ c ≠ ')')
      (by decide) (h c hc)
  rw [canonical, expandGlyphs_eq_self fun c hc => (hplain c hc).1,
    insertProducts_eq_self fun c hc => (hplain c hc).2]

end Spelling

namespace Token

theorem isNumberChar_of_isLiteral {text : List Char} (h : Decimal.isLiteral text = true) {c : Char}
    (hc : c ∈ text) : isNumberChar c = true := by
  rcases Decimal.mem_of_isLiteral h hc with hdigit | rfl
  · simp [isNumberChar, hdigit]
  · rfl

theorem read_signed {text : List Char} (hne : text ≠ []) (h : ∀ c ∈ text, isNumberChar c = true)
    (negative : Bool) : read (Decimal.signText negative ++ text) =
      .ok (if negative then [.unary .negate, .number text] else [.number text]) := by
  cases negative with
  | false => exact readFrom_number hne h true 0
  | true =>
    show readFrom true 0 ('-' :: text) = _
    rw [readFrom_cons (not_startsRoot (by simp) text)]
    show (readFrom true 1 text).map _ = _
    rw [readFrom_number hne h]
    rfl

theorem isUnknown_exponentLetter : IsUnknown 'E' where
  not_number := rfl
  not_root := by simp [rootLetters]
  not_token due := by cases due <;> rfl

theorem read_signed_exponent {text : List Char} (h : ∀ c ∈ text, isNumberChar c = true)
    (negative : Bool) (rest : List Char) :
    read (Decimal.signText negative ++ (text ++ 'E' :: rest)) = .error
      (.unexpectedCharacter 'E' ((Decimal.signText negative).length + text.length)) := by
  cases negative with
  | false => exact readFrom_append_unknown h isUnknown_exponentLetter true 0 rest
  | true =>
    show readFrom true 0 ('-' :: (text ++ 'E' :: rest)) = _
    rw [readFrom_cons (not_startsRoot (by simp) _)]
    show (readFrom true 1 (text ++ 'E' :: rest)).map _ = _
    rw [readFrom_append_unknown h isUnknown_exponentLetter]
    rfl

end Token

namespace Evaluation

/-- **The value of a literal** behind a sign is the value nearest to its number. -/
theorem value_signed {text : List Char} {d : Decimal} (hliteral : Decimal.ofLiteral? text = some d)
    (negative : Bool) (hfinite : Binary64.nearest d.magnitude < (2 : Rat) ^ (1024 : Int)) :
    ∃ v, value (Decimal.signText negative ++ text) = .ok v ∧ v.isFinite = true ∧
      v.isNegative = negative ∧ v.magnitude = Binary64.nearest d.magnitude := by
  obtain ⟨hshape, hd⟩ := Decimal.ofLiteral?_eq_some_iff.mp hliteral
  have hshown : Spelling.canonical (Decimal.signText negative ++ text) =
      Decimal.signText negative ++ text :=
    Spelling.canonical_eq_self <| List.forall_mem_append.mpr
      ⟨fun c => Decimal.isShownChar_signText, fun c => Decimal.isShownChar_of_isLiteral hshape⟩
  have hread := Token.read_signed (Decimal.ne_nil_of_isLiteral hshape)
    (fun c => Token.isNumberChar_of_isLiteral hshape) negative
  have hnumber : Postfix.numberValue text = .ok (Binary64.ofRat false d.magnitude) := by
    simp only [Postfix.numberValue, hliteral]
    rw [Binary64.ofDecimal_eq_ofRat, ← hd]
    rfl
  rcases Binary64.ofRat_cases false d.magnitude_nonneg with ⟨-, m, e, h, heq, hvalue⟩ | ⟨hge, -⟩
  · rw [heq] at hnumber
    refine ⟨.finite negative m e h, ?_, rfl, rfl, hvalue⟩
    rw [value, orderedTokens, hshown, hread]
    cases negative with
    | false =>
      show (((Postfix.numberValue _).map _).bind _).bind _ = _
      rw [hnumber]
      rfl
    | true =>
      show (((Postfix.numberValue _).map _).bind _).bind _ = _
      rw [hnumber]
      rfl
  · exact absurd hfinite (not_lt.mpr hge)

/-- **The value of a number written out** is the value nearest to it. -/
theorem value_positional {d : Decimal}
    (hfinite : Binary64.nearest d.magnitude < (2 : Rat) ^ (1024 : Int)) :
    ∃ v, value d.positional = .ok v ∧ v.isFinite = true ∧ v.isNegative = d.negative ∧
      v.magnitude = Binary64.nearest d.magnitude := by
  obtain ⟨whole, fraction, hdigits, htext, hmag⟩ := d.exists_positional
  have hsame : (Decimal.ofDigits false whole fraction).magnitude = d.magnitude := hmag
  rw [← hsame] at hfinite ⊢
  rw [htext]
  exact value_signed (Decimal.ofLiteral?_literal hdigits) d.negative hfinite

/-- **A number written out is its own result**, if it has at most fifteen digits and lies between
the bounds of the layout. -/
theorem evaluate_positional {d : Decimal} (hstripped : d.IsStripped)
    (hfits : d.coefficient < 10 ^ 15) (hlower : (10 : Rat) ^ (-6 : Int) ≤ d.magnitude)
    (hupper : d.magnitude < 10 ^ 10) :
    evaluate Settings.default d.positional = .ok (.ok d.positional) := by
  obtain ⟨v, hvalue, hv, hneg, hmag⟩ :=
    value_positional (Display.nearest_lt_of_plain hfits hlower hupper)
  exact (evaluate_eq_ok_iff d.positional_ne_nil).mpr
    ⟨v, hvalue, Display.text_of_nearest hstripped hfits hlower hupper hv hneg hmag⟩

/-- **A result written out is its own result**, unless it is written as `10000000000`. -/
theorem evaluate_plainText {v : Binary64} (hv : v.isFinite = true)
    (hplain : Display.usesScientific Settings.default v = false)
    (hne : (Display.rounded 15 v).magnitude ≠ 10 ^ 10) :
    evaluate Settings.default (Display.plainText 15 v) = .ok (.ok (Display.plainText 15 v)) := by
  unfold Display.plainText
  by_cases hzero : (Display.rounded 15 v).coefficient = 0
  · simp only [hzero, ↓reduceIte]
    decide +kernel
  · simp only [hzero, ↓reduceIte]
    have hbounds := Display.magnitude_rounded_of_plain hv hplain hzero
    exact evaluate_positional (Display.isStripped_rounded 15 v)
      (Display.coefficient_rounded_lt (by simp) v) hbounds.1 (lt_of_le_of_ne hbounds.2 hne)

/-- A text with an exponent is a number token behind a sign, up to the letter. -/
theorem exists_scientificText (places : Nat) (v : Binary64) :
    ∃ negative number rest, (∀ c ∈ number, Token.isNumberChar c = true) ∧
      Display.scientificText places v = Decimal.signText negative ++ (number ++ 'E' :: rest) := by
  have hfits := Display.coefficient_rounded_lt (Nat.succ_pos places) v
  obtain ⟨whole, fraction, exponent, hdigits, htext, -⟩ := Decimal.exists_scientific hfits
  refine ⟨(Display.rounded (places + 1) v).negative, Decimal.literal whole fraction,
    Decimal.exponentText exponent, ?_, htext⟩
  exact fun c hc => Token.isNumberChar_of_isLiteral (Decimal.isLiteral_literal hdigits) hc

theorem idxOf_exponentLetter {number : List Char} (h : ∀ c ∈ number, Token.isNumberChar c = true)
    (negative : Bool) (rest : List Char) :
    (Decimal.signText negative ++ (number ++ 'E' :: rest)).idxOf 'E' =
      (Decimal.signText negative).length + number.length := by
  have hsign : 'E' ∉ Decimal.signText negative := by
    cases negative <;> simp [Decimal.signText]
  have hnumber : 'E' ∉ number := by
    intro hmem
    exact absurd (h _ hmem) (by simp [Token.isNumberChar])
  rw [List.idxOf_append_of_notMem hsign, List.idxOf_append_of_notMem hnumber]
  simp

/-- **A result with an exponent is refused** at the letter of the exponent. -/
theorem evaluate_scientificText (settings : Settings) (places : Nat) (v : Binary64) :
    evaluate settings (Display.scientificText places v) = .ok (.error
      (.unexpectedCharacter 'E' ((Display.scientificText places v).idxOf 'E'))) := by
  have hshown : Spelling.canonical (Display.scientificText places v) =
      Display.scientificText places v := by
    refine Spelling.canonical_eq_self fun c hc => ?_
    exact Decimal.isShownChar_scientific (Display.coefficient_rounded_lt (Nat.succ_pos places) v) hc
  obtain ⟨negative, number, rest, hnumber, htext⟩ := exists_scientificText places v
  rw [htext] at hshown ⊢
  refine (evaluate_eq_error_iff (by simp)).mpr ?_
  rw [value, orderedTokens, hshown, Token.read_signed_exponent hnumber,
    idxOf_exponentLetter hnumber]
  rfl

end Evaluation

end Reckoner
