import Reckoner.Proofs.Guards
import Reckoner.Proofs.Stages
/-!
# `Reckoner/Proofs/Totality.lean` — every expression has an outcome

The settings say how a value is shown, and not what it is. So whether an expression has a value, and
if not why, does not depend on them; and a value that an expression has is finite, which is all that
it takes to be shown, unless very many digits are asked for.

> **An evaluation always ends in a text or in an error** (`evaluate_total`), with no trap on the way,
> and with any settings that ask for no more than a thousand digits. Of two such settings, either
> both have a text or both have the same error. A preview is the same text, unless nothing has been
> typed or an operator stands at the end.

What is infinite or no number on the way does not matter, only what is left in the end.
-/

set_option autoImplicit false

namespace Reckoner.Evaluation

variable {settings settings' : Settings} {expression : List Char} {outcome outcome' : Outcome}

theorem exists_outcome (h : settings.DigitsWithin 1000) (expression : List Char) :
    ∃ outcome, evaluate settings expression = .ok outcome := by
  by_cases hne : expression = []
  · subst hne
    exact ⟨_, rfl⟩
  · cases hvalue : value expression with
    | error e => exact ⟨_, (evaluate_eq_error_iff hne).mpr hvalue⟩
    | ok v =>
      obtain ⟨text, htext⟩ := Display.exists_text h (by decide) (isFinite_of_value hvalue)
      exact ⟨_, (evaluate_eq_ok_iff hne).mpr ⟨v, hvalue, htext⟩⟩

/-- **An error does not depend on the settings.** -/
theorem eq_error_iff (h : evaluate settings expression = .ok outcome)
    (h' : evaluate settings' expression = .ok outcome') (e : EvalError) :
    outcome = .error e ↔ outcome' = .error e := by
  by_cases hne : expression = []
  · subst hne
    cases h
    cases h'
    simp
  · rw [← Except.ok.injEq, ← h, evaluate_eq_error_iff hne, ← evaluate_eq_error_iff hne, h',
      Except.ok.injEq]

/-- Nothing has been typed, or an operator stands at the end. -/
def Unfinished (expression : List Char) : Prop :=
  expression = [] ∨ ∃ c ∈ expression.getLast?, c ∈ "+-*/^×÷".toList

theorem unfinished_iff :
    Unfinished expression ↔ (expression.isEmpty || endsWithOperator expression) = true := by
  rw [Bool.or_eq_true, List.isEmpty_iff, endsWithOperator, Option.any_eq_true]
  simp only [Unfinished, isTrailingOperator, List.contains_iff_mem, Option.mem_def]

theorem preview_of_unfinished (h : Unfinished expression) :
    preview settings expression = .ok none := by
  rw [preview, if_pos (unfinished_iff.mp h)]

theorem preview_of_finished (h : ¬ Unfinished expression)
    (houtcome : evaluate settings expression = .ok outcome) :
    preview settings expression = .ok outcome.toOption := by
  rw [preview, if_neg (mt unfinished_iff.mpr h), houtcome]
  rfl

theorem exists_preview (h : settings.DigitsWithin 1000) (expression : List Char) :
    ∃ shown, preview settings expression = .ok shown := by
  by_cases hunfinished : Unfinished expression
  · exact ⟨none, preview_of_unfinished hunfinished⟩
  · obtain ⟨outcome, houtcome⟩ := exists_outcome h expression
    exact ⟨outcome.toOption, preview_of_finished hunfinished houtcome⟩

/-- **Evaluation is total, and its errors do not depend on the settings.** -/
theorem evaluate_total (h : settings.DigitsWithin 1000) (h' : settings'.DigitsWithin 1000)
    (expression : List Char) :
    ∃ outcome outcome', Guarded.evaluate settings expression = .ok outcome ∧
      evaluate settings expression = .ok outcome ∧ evaluate settings' expression = .ok outcome' ∧
      (∀ e, outcome = .error e ↔ outcome' = .error e) ∧
      (¬ Unfinished expression → preview settings expression = .ok outcome.toOption) ∧
      (Unfinished expression → preview settings expression = .ok none) := by
  obtain ⟨outcome, houtcome⟩ := exists_outcome h expression
  obtain ⟨outcome', houtcome'⟩ := exists_outcome h' expression
  refine ⟨outcome, outcome', ?_, houtcome, houtcome', eq_error_iff houtcome houtcome', ?_, ?_⟩
  · rw [Guarded.evaluate_eq, houtcome]
    rfl
  · intro hfinished
    exact preview_of_finished hfinished houtcome
  · exact preview_of_unfinished

/-- A power is infinite on the way, and one of the two settings shows every value with an exponent. -/
theorem evaluate_total_through_infinity :
    ∃ settings : Settings, settings.DigitsWithin 1000 ∧
      ∃ outcome outcome',
        Guarded.evaluate settings "7+3÷10^400".toList = .ok outcome ∧
        evaluate settings "7+3÷10^400".toList = .ok outcome ∧
        evaluate Settings.default "7+3÷10^400".toList = .ok outcome' ∧
        (∀ e, outcome = .error e ↔ outcome' = .error e) ∧
        outcome = .ok "7.00E+00".toList ∧ outcome' = .ok ['7'] ∧
        ¬ Unfinished "7+3÷10^400".toList ∧
        preview settings "7+3÷10^400".toList = .ok outcome.toOption := by
  have hfinished : ¬ Unfinished "7+3÷10^400".toList := by
    rw [unfinished_iff]
    decide +kernel
  have hdigits : (⟨1, 2, .zero false, .nan⟩ : Settings).DigitsWithin 1000 := by
    constructor
    all_goals decide
  obtain ⟨outcome, outcome', hguarded, houtcome, houtcome', herror, hpreview, -⟩ :=
    evaluate_total hdigits Settings.digitsWithin_default "7+3÷10^400".toList
  refine ⟨_, hdigits, outcome, outcome', hguarded, houtcome, houtcome', herror, ?_, ?_, hfinished,
    hpreview hfinished⟩
  · have hvalue : evaluate ⟨1, 2, .zero false, .nan⟩ "7+3÷10^400".toList =
        .ok (.ok "7.00E+00".toList) := by decide +kernel
    rw [houtcome] at hvalue
    exact Except.ok.inj hvalue
  · have hvalue : evaluate Settings.default "7+3÷10^400".toList = .ok (.ok ['7']) := by
      decide +kernel
    rw [houtcome'] at hvalue
    exact Except.ok.inj hvalue

end Reckoner.Evaluation
