import Reckoner.Proofs.Binary64.Root
import Reckoner.Proofs.Display.RoundTrip
import Reckoner.Proofs.Keypad.Consistency
/-!
# `Reckoner/Proofs/Keypad/Results.lean` — what the expression of a shown result says

With the default settings, three keys show a result: equals leaves the expression that it is the
result of, percent and the root of a result put its text in the expression's place. So the
expression denotes what is shown if that text can be evaluated again, and the text of an exponent
cannot.

> **The expression of a shown result denotes the result, or it is a text with an exponent.** In
> every state that a run of keys reaches, the letter of an exponent in the expression tells which
> (`evaluate_shown_result_iff`): without one, evaluating the expression gives the display, and
> equals and percent work; with one, they fail at that letter.

## The one text that is in neither case

A number written out evaluates to itself unless it is `10000000000`. Neither key ever shows that: it
stands for the values from `1e10 - 5e-6` up to `1e10`, and there is a gap below the numbers that are
shown with an exponent, which have seven digits. What is divided by a hundred is at most
`9999999e5` or at least `1e12`, what the root is taken of at most `9999999e13` or at least `1e20`
(`IsShown.exists_ofText?`), and the results are on the same side of those values.
-/

set_option autoImplicit false

namespace Reckoner

/-! ## The gap below a power of ten -/

namespace Display

/-- By default, some value is shown as the text. -/
def IsShown (text : List Char) : Prop := ∃ v, Display.text Settings.default v = .ok text

/-- **A shown text is read as a number outside of the gaps**, which the numbers of seven digits
leave below the powers of ten from `1e11` on. -/
theorem IsShown.exists_ofText? {text : List Char} (h : IsShown text) :
    ∃ negative x, Binary64.ofText? text = some (Binary64.ofRat negative x) ∧ 0 ≤ x ∧
      ∀ k : Int, 4 ≤ k → x ≤ (9999999 : Nat) * (10 : Rat) ^ k ∨ (10 : Rat) ^ (7 + k) ≤ x := by
  obtain ⟨v, hv⟩ := h
  obtain ⟨negative, hread⟩ := ofText?_of_text hv
  refine ⟨negative, _, hread, Decimal.magnitude_nonneg _, ?_⟩
  intro k hk
  rcases text_default_cases hv with ⟨hfinite, ⟨huses, -⟩ | ⟨hplain, -⟩⟩
  · have hfits : (rounded 7 v).coefficient < 10 ^ 7 := coefficient_rounded_lt (by simp) v
    rw [shownDigits, if_pos huses]
    exact Decimal.magnitude_le_or_ge hfits k
  · rw [shownDigits, if_neg (by simp [hplain])]
    refine .inl ?_
    calc (rounded 15 v).magnitude
        ≤ 10 ^ 10 := magnitude_rounded_le_of_plain hfinite hplain
      _ ≤ (9999999 : Nat) * (10 : Rat) ^ (4 : Int) := by norm_num
      _ ≤ (9999999 : Nat) * (10 : Rat) ^ k :=
          mul_le_mul_of_nonneg_left (zpow_le_zpow_right₀ (by simp) hk) (Nat.cast_nonneg _)

theorem magnitude_rounded_ne_of_le {v : Binary64} (h : v.magnitude ≤ (9999999999 : Nat)) :
    (rounded 15 v).magnitude ≠ 10 ^ 10 := by
  have hle := magnitude_rounded_le (n := 9999999999) (k := 0) (Nat.succ_pos 14) (by simp)
    (by rwa [zpow_zero, mul_one])
  rw [zpow_zero, mul_one] at hle
  exact ne_of_lt (hle.trans_lt (by norm_num))

end Display

namespace Binary64

theorem ofDecimal_hundred : ofDecimal ⟨false, 100, 0⟩ =
    .finite false 7036874417766400 (-46) (by decide) := by
  decide +kernel

theorem magnitude_hundred : ((7036874417766400 : Nat) : Rat) * (2 : Rat) ^ (-46 : Int) = 100 := by
  norm_num

theorem div_hundred (negative : Bool) (m : Nat) (e : Int) (h : Canonical m e) :
    (finite negative m e h).div (ofDecimal ⟨false, 100, 0⟩) =
      ofRat negative (m * (2 : Rat) ^ e / 100) := by
  rw [ofDecimal_hundred, ← magnitude_hundred]
  simp [div, isNaN, isInfinite, isZero, isNegative, magnitude]

/-- A hundredth is known by sign and magnitude. -/
theorem hundredth_eq_ofRat {v : Binary64} (hv : v.isFinite = true) :
    v.div (.ofDecimal ⟨false, 100, 0⟩) = ofRat v.isNegative (v.magnitude / 100) := by
  cases v with
  | nan => exact absurd hv (by simp [isFinite])
  | infinity negative => exact absurd hv (by simp [isFinite])
  | finite negative m e h => exact div_hundred negative m e h

/-- **A hundredth is not just below the bound of the layouts.** -/
theorem magnitude_hundredth_le {negative : Bool} {x : Rat} (hx : 0 ≤ x)
    (hgap : x ≤ (9999999 : Nat) * (10 : Rat) ^ (5 : Int) ∨ (10 : Rat) ^ (7 + 5 : Int) ≤ x)
    (hfinite : ((ofRat negative x).div (ofDecimal ⟨false, 100, 0⟩)).isFinite = true)
    (hlt : ((ofRat negative x).div (ofDecimal ⟨false, 100, 0⟩)).magnitude < 10 ^ 10) :
    ((ofRat negative x).div (ofDecimal ⟨false, 100, 0⟩)).magnitude ≤ (9999999999 : Nat) := by
  rcases ofRat_cases negative hx with ⟨-, m, e, h, heq, hvalue⟩ | ⟨-, heq⟩
  · have hpos : 0 ≤ nearest x / 100 := div_nonneg (nearest_nonneg hx) (by norm_num)
    rw [heq, div_hundred, hvalue] at hfinite hlt ⊢
    rw [magnitude_ofRat hpos hfinite] at hlt ⊢
    rcases hgap with hle | hge
    · have hnear : nearest x ≤ (999999900000 : Nat) :=
        nearest_le_natCast hx (hle.trans (by norm_num)) (by simp)
      exact nearest_le_natCast hpos (by norm_num at hnear ⊢; linarith) (by simp)
    · have hnear : ((1000000000000 : Nat) : Rat) ≤ nearest x :=
        natCast_le_nearest (le_trans (by norm_num) hge) (by simp)
      have hquot : ((10000000000 : Nat) : Rat) ≤ nearest (nearest x / 100) :=
        natCast_le_nearest (by norm_num at hnear ⊢; linarith) (by simp)
      norm_num at hquot hlt
      linarith
  · rw [heq, ofDecimal_hundred] at hfinite
    exact absurd hfinite (by simp [div, isNaN, isInfinite, isFinite])

/-- **A root is not just below the bound of the layouts.** -/
theorem magnitude_root_le {negative : Bool} {x : Rat} {v : Binary64} (hx : 0 ≤ x)
    (hgap : x ≤ (9999999 : Nat) * (10 : Rat) ^ (13 : Int) ∨ (10 : Rat) ^ (7 + 13 : Int) ≤ x)
    (hroot : Operation.squareRoot (ofRat negative x) = .ok v) (hfinite : v.isFinite = true)
    (hlt : v.magnitude < 10 ^ 10) : v.magnitude ≤ (9999999999 : Nat) := by
  rcases ofRat_cases negative hx with ⟨-, m, e, h, heq, hvalue⟩ | ⟨-, heq⟩
  · rw [heq] at hroot
    rcases squareRoot_finite hroot with ⟨rfl, rfl⟩ | ⟨hpos, rfl⟩
    · simp [magnitude]
    · rw [hvalue] at hpos hfinite hlt ⊢
      have hrootpos : 0 ≤ rootLike (nearest x) := rootLike_nonneg _
      rw [magnitude_ofRat hrootpos hfinite] at hlt ⊢
      rcases hgap with hle | hge
      · -- The bound on the operand is no value, and the one above it is still below a square.
        have hnear : nearest x ≤ (6103515014648452 : Nat) * (2 : Rat) ^ (14 : Int) :=
          nearest_le_of_le hx (hle.trans (by norm_num)) (by simp) (by simp)
        have hscale : 0 ≤ rootScale (nearest x) :=
          rootScale_nonneg hpos (hnear.trans_lt (by norm_num))
        have hupper : rootLike (nearest x) ≤ (9999999500 : Nat) + 1 / 2 :=
          rootLike_le (hnear.trans (by norm_num)) hscale
        exact nearest_le_natCast hrootpos (hupper.trans (by norm_num)) (by simp)
      · have hnear : ((95367431640625 : Nat) : Rat) * (2 : Rat) ^ (20 : Int) ≤ nearest x :=
          le_nearest_of_le (le_trans (by norm_num) hge) (by simp) (by simp)
        have hlower : ((10000000000 : Nat) : Rat) ≤ rootLike (nearest x) :=
          le_rootLike (by simp) hpos (le_trans (by norm_num) hnear)
        have hvalue' := natCast_le_nearest hlower (by simp)
        norm_num at hvalue' hlt
        linarith
  · rw [heq] at hroot
    unfold Operation.squareRoot at hroot
    cases negative <;> simp [lt, zero, sqrt, isNaN, isZero, isNegative, isInfinite] at hroot
    rw [← hroot] at hfinite
    exact absurd hfinite (by simp [isFinite])

end Binary64

/-! ## Expressions with a result -/

namespace Evaluation

/-- No expression with the letter of an exponent has a result. -/
theorem not_mem_of_evaluate {settings : Settings} {expression text : List Char}
    (h : evaluate settings expression = .ok (.ok text)) : 'E' ∉ expression := by
  intro hmem
  have hcanonical := Spelling.mem_canonical (show Spelling.expandGlyph 'E' = ['E'] from rfl) hmem
  have hread : ∀ tokens, Token.read (Spelling.canonical expression) ≠ .ok tokens :=
    Token.not_read_of_unknown Token.isUnknown_exponentLetter hcanonical
  obtain ⟨v, hvalue, -⟩ := (evaluate_eq_ok_iff (List.ne_nil_of_mem hmem)).mp h
  obtain ⟨tokens, htokens, -⟩ := value_eq_ok_iff.mp hvalue
  exact hread tokens htokens

end Evaluation

/-! ## The states that are reached -/

namespace Keypad.State

/-- The expression of a shown result has it as its result, or is its text with an exponent. -/
inductive Denotes (s : State) : Prop where
  | result (h : Evaluation.evaluate Settings.default s.expression = .ok (.ok s.display))
  | exponent (v : Binary64) (hshown : Display.text Settings.default v = .ok s.display)
      (htext : s.display = Display.scientificText 6 v) (hsame : s.expression = s.display)

/-- **The invariant.** A consistent state without an error, if it shows a result, has an expression
that denotes it. -/
structure Invariant (s : State) : Prop where
  consistent : Consistent Settings.default s
  denotes : s.showsResult = true → s.error = none → Denotes s

variable {s s' : State}

theorem Denotes.isShown (h : Denotes s) : Display.IsShown s.display := by
  cases h with
  | result h => exact Evaluation.exists_text_of_evaluate h
  | exponent v hshown _ _ => exact ⟨v, hshown⟩

/-- A number that is shown in the expression's place, and is not just below the bound of the
layouts, is denoted by it. -/
theorem denotes_of_text {v : Binary64} {text : List Char} {s : State}
    (htext : Display.text Settings.default v = .ok text)
    (hgap : v.isFinite = true → v.magnitude < 10 ^ 10 → v.magnitude ≤ (9999999999 : Nat)) :
    Denotes { s with expression := text, display := text, showsResult := true } := by
  rcases Display.text_default_cases htext with ⟨hfinite, ⟨-, hlayout⟩ | ⟨hplain, hlayout⟩⟩
  · exact .exponent v htext hlayout rfl
  · have hle := hgap hfinite (Display.magnitude_lt_of_plain hfinite hplain)
    have heval := Evaluation.evaluate_plainText hfinite hplain
      (Display.magnitude_rounded_ne_of_le hle)
    rw [← hlayout] at heval
    exact .result heval

/-- **Each effect of a key keeps the invariant.** -/
theorem Invariant.effect (h : Invariant s) (heffect : Effect Settings.default s s') :
    Invariant s' := by
  refine ⟨h.consistent.effect heffect, ?_⟩
  intro hshows' herror'
  cases heffect with
  | nothing => exact h.denotes hshows' herror'
  | edited hshows _ _ _ _ =>
    rw [hshows] at hshows'
    exact absurd hshows' (by simp)
  | failed e => exact absurd herror' (by simp [fail])
  | @hundredth result text _ hne hresult htext =>
    have hshown : Display.IsShown result := Evaluation.exists_text_of_evaluate hresult
    obtain ⟨negative, x, hread, hx, hgap⟩ := hshown.exists_ofText?
    have hvalue : hundredth result =
        (Binary64.ofRat negative x).div (.ofDecimal ⟨false, 100, 0⟩) := by
      rw [hundredth, hread]
      rfl
    apply denotes_of_text htext
    rw [hvalue]
    exact Binary64.magnitude_hundredth_le hx (hgap 5 (by simp))
  | @root v text hflag hshows hroot htext =>
    have hdenotes := h.denotes hshows (h.consistent.error_eq_none hflag)
    obtain ⟨negative, x, hread, hx, hgap⟩ := hdenotes.isShown.exists_ofText?
    rw [displayedNumber, hread] at hroot
    exact denotes_of_text htext (Binary64.magnitude_root_le hx (hgap 13 (by simp)) hroot)
  | committed hne hresult => exact .result hresult

theorem Invariant.pressAll (h : Invariant s) (keys : List Key) :
    Invariant (s.pressAll Settings.default keys) := by
  induction keys generalizing s with
  | nil => exact h
  | cons key keys ih =>
    exact ih (h.effect
      (effect_of_press h.consistent.error_eq_none h.consistent.has_expression key))

theorem invariant_initial : Invariant initial where
  consistent := consistent_initial Settings.default
  denotes h := absurd h (by simp [initial, cleared])

/-! ## What equals and percent do with a shown result -/

/-- The error of the letter of an exponent, if the text has one. -/
def exponentError (text : List Char) : Option EvalError :=
  if 'E' ∈ text then some (.unexpectedCharacter 'E' (text.idxOf 'E')) else none

theorem error_of_evaluate_error {e : EvalError} (hflag : s.hasError = false) (hne : s.expression ≠ [])
    (h : Evaluation.evaluate Settings.default s.expression = .ok (.error e)) {key : Key}
    (hkey : key = .equals ∨ key = .percent) :
    (s.press Settings.default key).1.error = some e := by
  rcases hkey with rfl | rfl
  · rw [press_equals_of_error hne h]
    rfl
  · rw [press_percent_of_error hflag hne h]
    rfl

theorem error_of_evaluate_ok {text : List Char} (hflag : s.hasError = false)
    (hs : s.error = none) (hne : s.expression ≠ [])
    (h : Evaluation.evaluate Settings.default s.expression = .ok (.ok text)) {key : Key}
    (hkey : key = .equals ∨ key = .percent) :
    (s.press Settings.default key).1.error = none := by
  rcases hkey with rfl | rfl
  · rw [press_equals_of_result hne h]
    rfl
  · rw [press_percent_of_result hflag hne h]
    cases htext : Display.text Settings.default (hundredth text) with
    | error fault => simp [showNumber, htext, andThen, hs, Except.map]
    | ok shown => simp [showNumber, htext, andThen, hs, done, Except.map]

/-- **The expression of a shown result denotes the result, unless there is the letter of an exponent
in it.** Whatever keys have been pressed: while a result is shown and there is no error, evaluating
the expression gives the display if and only if that letter is not in it; and equals and percent
fail if and only if it is, and then at its place. -/
theorem evaluate_shown_result_iff (keys : List Key) {s : State}
    (hs : s = initial.pressAll Settings.default keys) (hshows : s.showsResult = true)
    (herror : s.error = none) :
    (Evaluation.evaluate Settings.default s.expression = .ok (.ok s.display) ↔
        'E' ∉ s.expression) ∧
      ∀ key, key = .equals ∨ key = .percent →
        (s.press Settings.default key).1.error = exponentError s.expression := by
  -- Reached states keep the invariant, so there are two cases, and the letter tells them apart.
  have hinv : Invariant s := hs ▸ invariant_initial.pressAll keys
  have hne := hinv.consistent.has_expression hshows
  have hflag := hinv.consistent.hasError_eq_false herror
  cases hinv.denotes hshows herror with
  | result h =>
    have hletter := Evaluation.not_mem_of_evaluate h
    refine ⟨iff_of_true h hletter, fun key hkey => ?_⟩
    rw [error_of_evaluate_ok hflag herror hne h hkey, exponentError, if_neg hletter]
  | exponent v _ htext hsame =>
    have heval := Evaluation.evaluate_scientificText Settings.default 6 v
    rw [← htext, ← hsame] at heval
    have hletter : 'E' ∈ s.expression := by
      rw [hsame, htext]
      simp [Display.scientificText, Decimal.scientific]
    refine ⟨iff_of_false ?_ (by simpa using hletter), fun key hkey => ?_⟩
    · rw [heval]
      simp
    · rw [error_of_evaluate_error hflag hne heval hkey, exponentError, if_pos hletter]

/-- The root of nine is shown without an exponent. -/
theorem evaluate_shown_root_of_nine :
    ∃ s, s = initial.pressAll Settings.default [.digit ['9'], .equals, .squareRoot] ∧
      s.showsResult = true ∧ s.error = none ∧
      (Evaluation.evaluate Settings.default s.expression = .ok (.ok s.display) ↔
        'E' ∉ s.expression) ∧
      ∀ key, key = .equals ∨ key = .percent →
        (s.press Settings.default key).1.error = exponentError s.expression :=
  ⟨_, rfl, by decide +kernel, by decide +kernel,
    evaluate_shown_result_iff [.digit ['9'], .equals, .squareRoot] rfl (by decide +kernel)
      (by decide +kernel)⟩

/-- One percent taken four times is shown with an exponent, and its expression has no result. -/
theorem evaluate_shown_percent_fails :
    ∃ s, s = initial.pressAll Settings.default
        [.digit ['1'], .percent, .percent, .percent, .percent] ∧
      s.showsResult = true ∧ s.error = none ∧ s.display = "1.000000E-08".toList ∧
      Evaluation.evaluate Settings.default s.expression =
        .ok (.error (.unexpectedCharacter 'E' 8)) ∧
      (s.press Settings.default .equals).1.error = some (.unexpectedCharacter 'E' 8) :=
  ⟨_, rfl, by decide +kernel, by decide +kernel, by decide +kernel, by decide +kernel,
    by decide +kernel⟩

end Keypad.State

end Reckoner
