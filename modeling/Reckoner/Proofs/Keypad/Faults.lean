import Reckoner.Proofs.Binary64.Root
import Reckoner.Proofs.Display.Stability
import Reckoner.Proofs.Keypad.Consistency
import Reckoner.Proofs.Totality
/-!
# `Reckoner/Proofs/Keypad/Faults.lean` — no key faults

A key can fault where a number is to be shown that has no text, where a shown text is to be spelt as
an operand, and where it has a label that the keypad does not have. With the default settings only
the last of these happens:

> **A press faults if and only if the keypad does not have the key** (`fault_eq_none_iff`), in every
> state that a run of keys reaches. And the root key always finds a number on the display.

All that is calculated is finite: the value of an expression is, what a shown text is read as is,
and so are a hundredth and a root of it. A display can say only what is shown of a finite value,
since a blank one shows zero.

## What is not here

That the settings are the default ones matters. A setting can ask for no digit, or for more digits than
a decimal may have, and then a number has no text (`Display.exists_text_iff`).
-/

set_option autoImplicit false

namespace Reckoner

/-! ## Shown texts -/

namespace Display

/-- **A text that is shown by default is read as a finite value.** -/
theorem exists_isFinite_ofText? {v : Binary64} {text : List Char}
    (h : Display.text Settings.default v = .ok text) :
    ∃ w, Binary64.ofText? text = some w ∧ w.isFinite = true := by
  obtain ⟨negative, hread⟩ := ofText?_of_text h
  refine ⟨_, hread, Binary64.isFinite_ofRat_of_le negative (Decimal.magnitude_nonneg _) ?_⟩
  rcases text_default_cases h with ⟨hv, ⟨huses, -⟩ | ⟨hplain, -⟩⟩
  · rw [shownDigits, if_pos huses]
    exact magnitude_rounded_le_greatest v
  · rw [shownDigits, if_neg (by simp [hplain])]
    exact (magnitude_rounded_le_of_plain hv hplain).trans upper_le_greatest

end Display

namespace Keypad

/-- The keypad has the key: a digit, or one of the six labels of its operators. -/
def Key.IsOnKeypad : Key → Prop
  | .digit label => ∃ c, label = [c] ∧ c.isDigit = true
  | .operator label => label ∈ [['+'], ['-'], ['*'], ['×'], ['/'], ['÷']]
  | _ => True

theorem Displayable.exists_text {text : List Char} (h : Displayable Settings.default text) :
    ∃ v : Binary64, v.isFinite = true ∧ Display.text Settings.default v = .ok text := by
  rcases h with rfl | hshown
  · exact ⟨.zero false, rfl, Display.text_default_of_zero rfl (Binary64.magnitude_zero false)⟩
  · exact hshown

namespace State

variable {s : State}

theorem digitOfLabel?_isSome_iff (label : List Char) :
    (digitOfLabel? label).isSome = true ↔ (Key.digit label).IsOnKeypad := by
  match label with
  | [] => simp [digitOfLabel?, Key.IsOnKeypad]
  | [c] => simp [digitOfLabel?, Key.IsOnKeypad]
  | _ :: _ :: _ => simp [digitOfLabel?, Key.IsOnKeypad]

theorem glyphOfLabel?_isSome_iff (label : List Char) :
    (glyphOfLabel? label).isSome = true ↔ (Key.operator label).IsOnKeypad := by
  unfold glyphOfLabel? Key.IsOnKeypad
  split <;> simp_all

/-! ## Steps that keys share -/

theorem fault_of_refresh (s : State) : (s.refresh Settings.default).2 = none := by
  obtain ⟨shown, hshown⟩ :=
    Evaluation.exists_preview Settings.digitsWithin_default s.expression
  unfold refresh
  split
  · rfl
  · rw [hshown]
    cases shown with
    | none => rfl
    | some text => rfl

theorem fault_of_edit (s : State) (expression : List Char) :
    (s.edit Settings.default expression).2 = none :=
  fault_of_refresh _

theorem fault_of_type (s : State) (text : List Char) : (s.type Settings.default text).2 = none :=
  fault_of_refresh _

theorem fault_of_continue (h : Displayable Settings.default s.display) {groupNegative : Bool}
    {rest : State → Pressed} (hrest : ∀ t, (rest t).2 = none) :
    (s.andThen (s.continueResult groupNegative) rest).2 = none := by
  obtain ⟨v, -, htext⟩ := h.exists_text
  obtain ⟨operand, hoperand⟩ := Evaluation.exists_ofDisplay htext groupNegative
  unfold continueResult
  split
  · rw [hoperand]
    exact hrest _
  · exact hrest s

theorem fault_of_showNumber {v : Binary64} (hv : v.isFinite = true) :
    (s.andThen (s.showNumber Settings.default v) done).2 = none := by
  obtain ⟨text, htext⟩ := Display.exists_text Settings.digitsWithin_default (by decide) hv
  rw [showNumber, htext]
  rfl

/-! ## What the keys calculate -/

theorem isFinite_hundredth_of_ofText? {w : Binary64} {text : List Char}
    (hread : Binary64.ofText? text = some w) (hw : w.isFinite = true) :
    (hundredth text).isFinite = true := by
  have hhundred : (Binary64.ofDecimal ⟨false, 100, 0⟩).isFinite = true ∧
      1 ≤ (Binary64.ofDecimal ⟨false, 100, 0⟩).magnitude := by
    decide +kernel
  rw [hundredth, hread]
  exact Binary64.isFinite_div hw hhundred.1 hhundred.2

theorem isFinite_hundredth {v : Binary64} {text : List Char}
    (h : Display.text Settings.default v = .ok text) : (hundredth text).isFinite = true := by
  obtain ⟨w, hread, hw⟩ := Display.exists_isFinite_ofText? h
  exact isFinite_hundredth_of_ofText? hread hw

theorem exists_displayedNumber (h : Displayable Settings.default s.display) :
    ∃ v : Binary64, v.isFinite = true ∧ s.displayedNumber = .ok v := by
  obtain ⟨v, -, htext⟩ := h.exists_text
  obtain ⟨w, hread, hw⟩ := Display.exists_isFinite_ofText? htext
  exact ⟨w, hw, by rw [displayedNumber, hread]⟩

/-! ## The keys -/

theorem fault_of_pressDigit_iff (s : State) (label : List Char) :
    (s.pressDigit Settings.default label).2 = none ↔ (Key.digit label).IsOnKeypad := by
  rw [← digitOfLabel?_isSome_iff]
  unfold pressDigit
  cases digitOfLabel? label with
  | some c => exact iff_of_true (fault_of_type _ _) rfl
  | none => exact iff_of_false (by simp) (by simp)

theorem fault_of_pressPoint (s : State) : (s.pressPoint Settings.default).2 = none := by
  unfold pressPoint
  simp only
  split
  · rfl
  · split
    · exact fault_of_type _ _
    · exact fault_of_type _ _

theorem fault_of_pressParentheses (s : State) :
    (s.pressParentheses Settings.default).2 = none := by
  unfold pressParentheses
  simp only
  split
  · exact fault_of_type _ _
  · split
    · exact fault_of_type _ _
    · exact fault_of_type _ _

theorem fault_of_pressPercent (s : State) : (s.pressPercent Settings.default).2 = none := by
  obtain ⟨outcome, houtcome⟩ := Evaluation.exists_outcome Settings.digitsWithin_default s.expression
  unfold pressPercent
  split
  · rfl
  · rw [houtcome]
    cases outcome with
    | error e => rfl
    | ok text =>
      obtain ⟨v, htext⟩ := Evaluation.exists_text_of_evaluate houtcome
      exact fault_of_showNumber (isFinite_hundredth htext)

theorem fault_of_pressEquals (s : State) : (s.pressEquals Settings.default).2 = none := by
  obtain ⟨outcome, houtcome⟩ := Evaluation.exists_outcome Settings.digitsWithin_default s.expression
  unfold pressEquals
  split
  · rfl
  · rw [houtcome]
    cases outcome with
    | error e => rfl
    | ok text => rfl

section Displayable

-- What the display says matters only while there is no error.
variable (h : s.hasError = false → Displayable Settings.default s.display)

include h

theorem fault_of_pressOperator_iff (label : List Char) :
    (s.pressOperator Settings.default label).2 = none ↔ (Key.operator label).IsOnKeypad := by
  rw [← glyphOfLabel?_isSome_iff]
  unfold pressOperator
  cases glyphOfLabel? label with
  | none => exact iff_of_false (by simp) (by simp)
  | some glyph =>
    refine iff_of_true ?_ rfl
    simp only
    split
    · rfl
    · next hflag =>
      apply fault_of_continue (h (by simpa using hflag))
      intro t
      split
      · split
        · exact fault_of_edit _ _
        · rfl
      · exact fault_of_edit _ _

theorem fault_of_pressSquare : (s.pressSquare Settings.default).2 = none := by
  unfold pressSquare
  split
  · rfl
  · next hflag =>
    apply fault_of_continue (h (by simpa using hflag))
    intro t
    split
    · rfl
    · exact fault_of_type _ _

theorem fault_of_pressDelete : (s.pressDelete Settings.default).2 = none := by
  unfold pressDelete
  split
  · rfl
  · next hflag =>
    apply fault_of_continue (h (by simpa using hflag))
    intro t
    exact fault_of_edit _ _

theorem fault_of_pressSquareRoot : (s.pressSquareRoot Settings.default).2 = none := by
  unfold pressSquareRoot
  split
  · rfl
  · next hflag =>
    split
    · obtain ⟨v, hv, hnumber⟩ := exists_displayedNumber (h (by simpa using hflag))
      rw [hnumber]
      split
      · next w hroot => exact fault_of_showNumber (Binary64.isFinite_of_squareRoot hv hroot)
      · rfl
    · exact fault_of_type _ _

/-- **A press faults if and only if the keypad does not have the key.** -/
theorem fault_of_press_iff (key : Key) :
    (s.press Settings.default key).2 = none ↔ key.IsOnKeypad := by
  cases key with
  | digit label => exact fault_of_pressDigit_iff s label
  | operator label => exact fault_of_pressOperator_iff h label
  | point => exact iff_of_true (fault_of_pressPoint s) trivial
  | percent => exact iff_of_true (fault_of_pressPercent s) trivial
  | squareRoot => exact iff_of_true (fault_of_pressSquareRoot h) trivial
  | square => exact iff_of_true (fault_of_pressSquare h) trivial
  | parentheses => exact iff_of_true (fault_of_pressParentheses s) trivial
  | clear => exact iff_of_true rfl trivial
  | delete => exact iff_of_true (fault_of_pressDelete h) trivial
  | equals => exact iff_of_true (fault_of_pressEquals s) trivial

end Displayable

/-- **No key of the keypad faults.** Whatever keys have been pressed, a press faults if and only if
the keypad does not have the key; and unless there is an error, a finite number is read off the
display. -/
theorem fault_eq_none_iff (keys : List Key) (key : Key) :
    (((initial.pressAll Settings.default keys).press Settings.default key).2 = none ↔
        key.IsOnKeypad) ∧
      ((initial.pressAll Settings.default keys).hasError = false →
        ∃ v : Binary64, v.isFinite = true ∧
          (initial.pressAll Settings.default keys).displayedNumber = .ok v) := by
  have hconsistent := (consistent_initial Settings.default).pressAll keys
  constructor
  · exact fault_of_press_iff hconsistent.displayable key
  · intro hflag
    exact exists_displayedNumber (hconsistent.displayable hflag)

end State

end Keypad

end Reckoner
