import Reckoner.Proofs.Dialogue.Answers
import Reckoner.Proofs.Keypad.Faults
import Reckoner.Proofs.Keypad.WellTyped
/-!
# `Reckoner/Proofs/Keypad/Continuation.lean` — going on from a result

There are two ways to go on from a result: with the keys that follow it, and with the next line of a
dialogue. The keys put the result into the expression as an operand and type behind it, one key at a
time, and an operator key replaces an operator that stands at the end. The line is put behind the
operand as a whole.

> **The keys and the line come to the same** (`continues_of_run`). In every state that is reached and
> shows a result, an operator with digits behind it, or a square, makes the expression that the line
> stands for after that result; and equals shows the outcome that the line is answered with.

Nothing is replaced, since the operand of a result ends in a digit or a parenthesis
(`endsWithOperator_of_operand`), whichever key the result has come from.
-/

set_option autoImplicit false

namespace Reckoner.Keypad.State

open Dialogue (chainOnto chainOnto_eq content isFarewell answers lastResult Answer)

variable {settings : Settings} {s t : State} {operand line : List Char}

/-! ## The operand of a result -/

theorem not_isOperatorGlyph_of_literal {whole fraction : List Char}
    (hdigits : Decimal.AreDigits whole fraction) {c : Char}
    (hc : c ∈ Decimal.literal whole fraction) : isOperatorGlyph c = false := by
  rw [Bool.eq_false_iff]
  intro hglyph
  rcases Decimal.mem_literal hdigits hc with hdigit | rfl
  · have hall : "+-*/^×÷".toList.all (fun c => !c.isDigit) = true := by decide
    have hnone := List.all_eq_true.mp hall c (by simpa [isOperatorGlyph] using hglyph)
    rw [hdigit] at hnone
    exact absurd hnone (by simp)
  · exact absurd hglyph (by decide)

/-- A number that is not grouped has no sign. -/
theorem not_isOperatorGlyph_of_group (d : Decimal) :
    ∀ c ∈ (Operand.group d.positional).getLast?, isOperatorGlyph c = false := by
  intro c hc
  unfold Operand.group at hc
  split at hc
  · rw [List.getLast?_concat] at hc
    obtain rfl := Option.some.inj hc
    decide
  · next hsign =>
    obtain ⟨whole, fraction, hdigits, htext, -⟩ := d.exists_positional
    cases hneg : d.negative with
    | true =>
      rw [hneg] at htext
      rw [htext] at hsign
      exact absurd rfl hsign
    | false =>
      rw [hneg] at htext
      rw [htext] at hc
      exact not_isOperatorGlyph_of_literal hdigits (List.mem_of_getLast? hc)

/-- **The operand of what is displayed ends in no operator**, and there is something to it. -/
theorem endsWithOperator_of_operand (hdisplay : Displayable settings s.display)
    (h : Operand.ofDisplay true s.display = .ok operand) (hexpression : t.expression = operand) :
    t.endsWithOperator = false ∧ t.expression ≠ [] := by
  obtain ⟨d, hd⟩ := exists_positional_of_operand hdisplay h
  rw [if_pos rfl] at hd
  constructor
  · rw [endsWithOperator, hexpression, hd, Option.any_eq_false]
    intro c hc
    simpa using not_isOperatorGlyph_of_group d c hc
  · rw [hexpression, hd, Operand.group]
    split
    · simp
    · exact d.positional_ne_nil

/-! ## Keys behind a result -/

/-- The state with its result taken over as an operand. -/
def resumed (s : State) (operand : List Char) : State :=
  { s with expression := operand, showsResult := false }

theorem continueResult_eq (hshows : s.showsResult = true)
    (h : Operand.ofDisplay true s.display = .ok operand) :
    s.continueResult true = .ok (s.resumed operand) := by
  rw [continueResult, if_pos hshows, h]
  rfl

section Behind

variable (hdisplay : Displayable settings s.display) (hshows : s.showsResult = true)
  (hflag : s.hasError = false) (hoperand : Operand.ofDisplay true s.display = .ok operand)

include hdisplay hshows hflag hoperand

/-- An operator is put behind the operand of the result. -/
theorem press_operator_of_result {label : List Char} {glyph : Char}
    (hlabel : glyphOfLabel? label = some glyph) :
    s.press settings (.operator label) = (s.resumed operand).edit settings (operand ++ [glyph]) := by
  obtain ⟨hend, hne⟩ := endsWithOperator_of_operand (t := s.resumed operand) hdisplay hoperand rfl
  have hempty : (s.resumed operand).expression.isEmpty = false := by simpa using hne
  simp only [press, pressOperator, hlabel, hflag, continueResult_eq hshows hoperand, andThen, hempty,
    hend, Bool.false_eq_true, ↓reduceIte]
  rfl

/-- So is a square. -/
theorem press_square_of_result :
    s.press settings .square = (s.resumed operand).edit settings (operand ++ ['²']) := by
  obtain ⟨-, hne⟩ := endsWithOperator_of_operand (t := s.resumed operand) hdisplay hoperand rfl
  have hempty : (s.resumed operand).expression.isEmpty = false := by simpa using hne
  simp only [press, pressSquare, hflag, continueResult_eq hshows hoperand, andThen, hempty,
    Bool.false_eq_true, ↓reduceIte]
  rfl

end Behind

/-- A digit is typed behind what has been typed. -/
theorem press_digit_of_typing (settings : Settings) (hshows : t.showsResult = false)
    (hflag : t.hasError = false) {c : Char} (hc : c.isDigit = true) :
    t.press settings (.digit [c]) = t.edit settings (t.expression ++ [c]) := by
  have hlabel : digitOfLabel? [c] = some c := if_pos hc
  simp only [press, pressDigit, hlabel, recover_startWith hflag hshows]
  rfl

/-- **So are any number of digits.** -/
theorem expression_pressAll_digits (settings : Settings) (hshows : t.showsResult = false)
    (hflag : t.hasError = false) {digits : List Char} (hdigits : ∀ c ∈ digits, c.isDigit = true) :
    (t.pressAll settings (digits.map fun c => .digit [c])).expression = t.expression ++ digits := by
  induction digits generalizing t with
  | nil => exact (List.append_nil _).symm
  | cons c digits ih =>
    have hpress := press_digit_of_typing settings hshows hflag (hdigits c (by simp))
    obtain ⟨hshows', hflag'⟩ := flags_edit settings t (t.expression ++ [c])
    have hrest := ih (hshows'.trans hshows) (hflag'.trans hflag) fun x hx =>
      hdigits x (List.mem_cons_of_mem c hx)
    rw [expression_edit, List.append_assoc, List.singleton_append] at hrest
    rw [← hrest, ← hpress]
    rfl

/-! ## The same line in a dialogue -/

/-- The state shows the outcome of a calculation. -/
def Shows (t : State) : Outcome → Prop
  | .ok text => t.display = text ∧ t.showsResult = true ∧ t.hasError = false ∧ t.error = none
  | .error e => t.display = errorDisplay ∧ t.hasError = true ∧ t.error = some e

/-- **The keys go on from the shown result as the line does.** They make the same expression of it,
and equals then shows what the line is answered with, after any lines of which the shown result is
the last one. -/
structure Continues (s : State) (keys : List Key) (line : List Char) : Prop where
  expression_eq : chainOnto (some s.display) line =
    .ok (s.pressAll Settings.default keys).expression
  outcome_eq : ∃ outcome,
    Shows ((s.pressAll Settings.default keys).press Settings.default .equals).1 outcome ∧
      ∀ earlier typed, (∀ l ∈ earlier, isFarewell (content l) = false) →
        lastResult (answers Settings.default earlier) = some s.display → content typed = line →
          answers Settings.default (earlier ++ [typed]) =
            answers Settings.default earlier ++ [.outcome outcome]

theorem shows_equals {outcome : Outcome} (hne : t.expression ≠ [])
    (h : Evaluation.evaluate Settings.default t.expression = .ok outcome) :
    Shows (t.press Settings.default .equals).1 outcome := by
  cases outcome with
  | ok text =>
    rw [press_equals_of_result hne h]
    exact ⟨rfl, rfl, rfl, rfl⟩
  | error e =>
    rw [press_equals_of_error hne h]
    exact ⟨rfl, rfl, rfl⟩

/-- All that matters is the expression, and that the line does not end the dialogue. -/
theorem continues_of_expression {keys : List Key} (hfarewell : isFarewell line = false)
    (hline : line ≠ []) (hne : (s.pressAll Settings.default keys).expression ≠ [])
    (hexpression : chainOnto (some s.display) line =
      .ok (s.pressAll Settings.default keys).expression) : Continues s keys line := by
  obtain ⟨outcome, houtcome⟩ := Evaluation.exists_outcome Settings.digitsWithin_default
    (s.pressAll Settings.default keys).expression
  refine ⟨hexpression, outcome, shows_equals hne houtcome, ?_⟩
  intro earlier typed hearlier hlast hcontent
  subst hcontent
  have hreply : Dialogue.reply Settings.default (some s.display) typed =
      .ok (.answer (s.pressAll Settings.default keys).expression outcome) := by
    rw [Dialogue.reply_eq hfarewell hline, hexpression]
    exact map_eq_ok_iff.mpr ⟨outcome, houtcome, rfl⟩
  rw [Dialogue.answers_append hearlier, hlast, Dialogue.answersFrom, Dialogue.respond, hreply]
  rfl

theorem continuesResult_of_endsNumber {glyph : Char} (h : endsNumber glyph = true) :
    Dialogue.continuesResult glyph = true := by
  rcases endsNumber_eq_true_iff.mp h with rfl | rfl | rfl | rfl
  all_goals decide

/-- No line that goes on from a result ends the dialogue. -/
theorem not_isFarewell_of_continuesResult {c : Char} (hc : Dialogue.continuesResult c = true)
    (rest : List Char) : isFarewell (c :: rest) = false := by
  rw [Bool.eq_false_iff]
  intro hfarewell
  rw [isFarewell, Bool.or_eq_true, decide_eq_true_eq, decide_eq_true_eq] at hfarewell
  rcases hfarewell with h | h
  · obtain rfl := (List.cons.inj h).1
    exact absurd hc (by decide)
  · obtain rfl := (List.cons.inj h).1
    exact absurd hc (by decide)

/-- **The keypad goes on from a result as a dialogue does.** Whatever keys have been pressed, while a
result is shown and there is no error: an operator key and digits behind it go on from the result as
the line of these characters does, and the square key as the line of a square sign. -/
theorem continues_of_run (keys : List Key) (hs : s = initial.pressAll Settings.default keys)
    (hshows : s.showsResult = true) (hflag : s.hasError = false) :
    (∀ label glyph digits, glyphOfLabel? label = some glyph →
        (∀ c ∈ digits, c.isDigit = true) →
          Continues s (.operator label :: digits.map fun c => .digit [c]) (glyph :: digits)) ∧
      Continues s [.square] ['²'] := by
  have hdisplay : Displayable Settings.default s.display :=
    (hs ▸ (consistent_initial Settings.default).pressAll keys).displayable hflag
  obtain ⟨v, -, htext⟩ := hdisplay.exists_text
  obtain ⟨operand, hoperand⟩ := Evaluation.exists_ofDisplay htext true
  constructor
  · intro label glyph digits hlabel hdigits
    have hglyph := continuesResult_of_endsNumber (endsNumber_of_glyphOfLabel? hlabel)
    have hpress := press_operator_of_result hdisplay hshows hflag hoperand hlabel
    obtain ⟨hshows', hflag'⟩ := flags_edit Settings.default (s.resumed operand) (operand ++ [glyph])
    have hexpression := expression_pressAll_digits Settings.default hshows' (hflag'.trans hflag)
      hdigits
    rw [expression_edit, List.append_assoc, List.singleton_append, ← hpress] at hexpression
    apply continues_of_expression (not_isFarewell_of_continuesResult hglyph digits) (by simp)
    · rw [pressAll, List.foldl_cons, ← pressAll, hexpression]
      simp
    · rw [pressAll, List.foldl_cons, ← pressAll, hexpression]
      exact chainOnto_eq hglyph hoperand digits
  · have hpress := press_square_of_result hdisplay hshows hflag hoperand
    have hexpression : (s.pressAll Settings.default [.square]).expression = operand ++ ['²'] := by
      rw [pressAll, List.foldl_cons, List.foldl_nil, hpress, expression_edit]
    apply continues_of_expression (by decide) (by simp)
    · rw [hexpression]
      simp
    · rw [hexpression]
      exact chainOnto_eq (by decide) hoperand []

/-- One percent of minus one, taken four times, is shown with an exponent, and is
multiplied as a number written out, in parentheses. -/
theorem continues_of_negative_percent :
    ∃ s, s = initial.pressAll Settings.default
        [.operator ['-'], .digit ['1'], .percent, .percent, .percent, .percent] ∧
      s.showsResult = true ∧ s.hasError = false ∧ s.display = "-1.000000E-08".toList ∧
      (s.pressAll Settings.default [.operator ['*'], .digit ['4'], .digit ['2']]).expression =
        "(-0.00000001)×42".toList ∧
      (∀ label glyph digits, glyphOfLabel? label = some glyph →
        (∀ c ∈ digits, c.isDigit = true) →
          Continues s (.operator label :: digits.map fun c => .digit [c]) (glyph :: digits)) ∧
      Continues s [.square] ['²'] :=
  ⟨_, rfl, by decide +kernel, by decide +kernel, by decide +kernel, by decide +kernel,
    continues_of_run _ rfl (by decide +kernel) (by decide +kernel)⟩

end Reckoner.Keypad.State
