import Mathlib.Data.List.DropRight
import Reckoner.Proofs.Keypad.WellTyped
/-!
# `Reckoner/Proofs/Keypad/Point.lean` — the point of the number that is typed

A point is typed once in a number, and behind a zero where there is no number yet. The number that is
typed is what the expression ends in: the digits and points behind the last other character. The key
looks at more than that. It goes back to the last operator, over parentheses, roots and squares, and
takes all of it for the number.

> **The point key types what the number asks for if and only if the number starts behind an operator,
> or there is a number, and no point between the last operator and it that it has not itself**
> (`press_point_iff`). In every other state that is reached, a number without a point gets none, or a
> point is typed with no zero in front.

So of two factors that stand side by side, as in `(1.5)2.5`, the second one cannot be typed.
-/

set_option autoImplicit false

namespace Reckoner.Keypad

open State (endsNumber)
open Token (isNumberChar)

/-- The number that the text ends in: the digits and points at its end. -/
def lastNumber (text : List Char) : List Char := text.rtakeWhile isNumberChar

/-- The text with a point typed to the given number at its end. A number has one point, and does not
start with it. -/
def typePoint (number text : List Char) : List Char :=
  if '.' ∈ number then text
  else if number = [] then text ++ ['0', '.']
  else text ++ ['.']

/-- The text with a point typed to the number that it ends in. -/
def withPoint (text : List Char) : List Char := typePoint (lastNumber text) text

section TypePoint

variable {number taken : List Char}

/-- Where a number is taken for a longer one, a point is typed to both alike if there is something of
the number, and all points are its own. -/
theorem typePoint_eq_iff (h : number <:+ taken) (text : List Char) :
    typePoint taken text = typePoint number text ↔
      taken = number ∨ number ≠ [] ∧ ('.' ∈ taken → '.' ∈ number) := by
  unfold typePoint
  by_cases hown : '.' ∈ number
  · rw [if_pos hown, if_pos (h.subset hown)]
    exact iff_of_true rfl (.inr ⟨List.ne_nil_of_mem hown, fun _ => hown⟩)
  · rw [if_neg hown]
    by_cases hpoint : '.' ∈ taken
    · -- The point that is there is not the number's own.
      rw [if_pos hpoint]
      refine iff_of_false (by split <;> simp) ?_
      rintro (rfl | ⟨-, hpoints⟩)
      · exact hown hpoint
      · exact hown (hpoints hpoint)
    · rw [if_neg hpoint]
      by_cases hnone : number = []
      · simp [hnone]
      · have htaken : taken ≠ [] := by
          rintro rfl
          exact hnone (List.eq_nil_of_suffix_nil h)
        rw [if_neg hnone, if_neg htaken]
        exact iff_of_true rfl (.inr ⟨hnone, fun hmem => absurd hmem hpoint⟩)

/-- Otherwise the point is left out, or the zero in front of it. -/
theorem typePoint_of_ne (h : number <:+ taken) {text : List Char}
    (hne : typePoint taken text ≠ typePoint number text) :
    typePoint taken text = if '.' ∈ taken then text else text ++ ['.'] := by
  have htaken : taken ≠ [] := by
    rintro rfl
    rw [List.eq_nil_of_suffix_nil h] at hne
    exact hne rfl
  rw [typePoint, if_neg htaken]

end TypePoint

namespace State

variable {settings : Settings} {s : State}

/-- What the key takes for the number ends in the number. -/
theorem lastNumber_isSuffix (s : State) : lastNumber s.expression <:+ s.currentNumber := by
  have hkept : ∀ c, decide (isNumberChar c = true ∧ (!endsNumber c) = true) = isNumberChar c := by
    intro c
    by_cases hc : isNumberChar c = true
    · simp [hc, not_endsNumber_of_isNumberChar hc]
    · simp [hc]
  rw [lastNumber, List.rtakeWhile, currentNumber, List.reverse_suffix]
  have hshorter := List.takeWhile_prefix isNumberChar
    (l := s.expression.reverse.takeWhile fun c => !endsNumber c)
  rwa [List.takeWhile_takeWhile, funext hkept] at hshorter

/-- Behind an operator there is no number yet. -/
theorem currentNumber_of_endsWithOperator (h : WellTyped s.expression)
    (hend : s.endsWithOperator = true) : s.currentNumber = [] := by
  obtain ⟨start, glyph, hstart, hends⟩ := h.exists_operator_at_end hend
  rw [currentNumber, hstart]
  simp [hends]

/-- **What the point key types**, where neither an error nor a result is in the way. -/
theorem expression_press_point (settings : Settings) (h : WellTyped s.expression)
    (hflag : s.hasError = false) (hshows : s.showsResult = false) :
    (s.press settings .point).1.expression = typePoint s.currentNumber s.expression := by
  simp only [press, pressPoint, recover_startWith hflag hshows, List.contains_iff_mem, typePoint]
  split
  · rfl
  · by_cases hnone : s.currentNumber = []
    · rw [if_pos (by simp [hnone]), if_pos hnone, type, expression_edit]
    · have hend : s.endsWithOperator = false := by
        rw [Bool.eq_false_iff]
        exact fun hend => hnone (currentNumber_of_endsWithOperator h hend)
      rw [if_neg (by simp [hnone, hend]), if_neg hnone, type, expression_edit]

/-- **The point key types what the number asks for if and only if** the number starts behind an
operator, or there is a number, and a point since the last operator is its own. In every other state
that is reached, with any settings, without an error and without a shown result, the key types nothing
if there is such a point, and a bare point if there is none. -/
theorem press_point_iff (settings : Settings) (keys : List Key)
    (hs : s = initial.pressAll settings keys) (hflag : s.hasError = false)
    (hshows : s.showsResult = false) :
    ((s.press settings .point).1.expression = withPoint s.expression ↔
      s.currentNumber = lastNumber s.expression ∨
        lastNumber s.expression ≠ [] ∧ ('.' ∈ s.currentNumber → '.' ∈ lastNumber s.expression)) ∧
      ((s.press settings .point).1.expression ≠ withPoint s.expression →
        (s.press settings .point).1.expression =
          if '.' ∈ s.currentNumber then s.expression else s.expression ++ ['.']) := by
  have hwell := wellTyped_pressAll settings keys (hs ▸ hshows)
  rw [← hs] at hwell
  rw [expression_press_point settings hwell hflag hshows, withPoint]
  exact ⟨typePoint_eq_iff s.lastNumber_isSuffix s.expression,
    typePoint_of_ne s.lastNumber_isSuffix⟩

/-- The number in a group gets its point, since that of the number before belongs to another term. -/
theorem press_point_in_group :
    ∃ s, s = initial.pressAll Settings.default [.digit ['1'], .point, .digit ['5'], .operator ['+'],
        .parentheses, .digit ['2']] ∧ s.hasError = false ∧ s.showsResult = false ∧
      ((s.press Settings.default .point).1.expression = withPoint s.expression ↔
        s.currentNumber = lastNumber s.expression ∨
          lastNumber s.expression ≠ [] ∧ ('.' ∈ s.currentNumber → '.' ∈ lastNumber s.expression)) ∧
      s.currentNumber = "(2".toList ∧ lastNumber s.expression = ['2'] ∧
      (s.press Settings.default .point).1.expression = "1.5+(2.".toList :=
  ⟨_, rfl, by decide +kernel, by decide +kernel,
    (press_point_iff Settings.default _ rfl (by decide +kernel) (by decide +kernel)).1,
    by decide +kernel, by decide +kernel, by decide +kernel⟩

/-- **The second of two factors gets no point**, because the first one has one. -/
theorem press_point_of_second_factor :
    ∃ s, s = initial.pressAll Settings.default [.parentheses, .digit ['1'], .point, .digit ['5'],
        .parentheses, .digit ['2']] ∧ s.hasError = false ∧ s.showsResult = false ∧
      s.expression = "(1.5)2".toList ∧ lastNumber s.expression = ['2'] ∧
      withPoint s.expression = "(1.5)2.".toList ∧
      (s.press Settings.default .point).1.expression = "(1.5)2".toList :=
  ⟨_, rfl, by decide +kernel, by decide +kernel, by decide +kernel, by decide +kernel,
    by decide +kernel, by decide +kernel⟩

end State

end Reckoner.Keypad
