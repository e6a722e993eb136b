import Reckoner.Proofs.Display.Text
import Reckoner.Proofs.Keypad.Effect
/-!
# `Reckoner/Proofs/Keypad/Consistency.lean` — flag, error and display agree

A state says in three ways whether the last calculation has failed: by a flag, by an error, and by
what stands on the display. They are set apart from each other, and the display is written by edits,
by results and by failures.

> **The three agree in every state that is reached**, whatever the settings are and whatever keys
> have been pressed, those included whose press a fault has stopped (`consistent_of_run`).

A fault can stop a press halfway, with the expression edited and the display not refreshed. Nothing
is lost by that: the display is then that of the state before, or blank.
-/

set_option autoImplicit false

namespace Reckoner.Keypad.State

variable {settings : Settings} {s s' : State}

/-- **The state is consistent.** The flag is up exactly if there is an error, and exactly if the
display says so. Otherwise the display is blank, or shows a finite value. And a shown result has an
expression. -/
structure Consistent (settings : Settings) (s : State) : Prop where
  hasError_iff_error : s.hasError = true ↔ s.error ≠ none
  hasError_iff_display : s.hasError = true ↔ s.display = errorDisplay
  displayable : s.hasError = false → Displayable settings s.display
  has_expression : s.showsResult = true → s.expression ≠ []

theorem Consistent.error_eq_none (h : Consistent settings s) (hflag : s.hasError = false) :
    s.error = none := by
  by_contra herror
  rw [h.hasError_iff_error.mpr herror] at hflag
  exact absurd hflag (by simp)

theorem Consistent.hasError_eq_false (h : Consistent settings s) (herror : s.error = none) :
    s.hasError = false := by
  rw [← Bool.not_eq_true, h.hasError_iff_error]
  simp [herror]

/-- The letters of the display in error are no number. -/
theorem ne_errorDisplay_of_displayable {text : List Char} (h : Displayable settings text) :
    text ≠ errorDisplay := by
  rcases h with rfl | ⟨v, -, htext⟩
  · decide
  · rintro rfl
    have hletter := (Display.spec_of_text htext).2 'r' (by decide)
    exact absurd hletter (by decide)

/-- A state without an error is consistent if its display is one of a number. -/
theorem consistent_of_displayable (hflag : s.hasError = false) (herror : s.error = none)
    (hdisplay : Displayable settings s.display) (hresult : s.showsResult = true → s.expression ≠ []) :
    Consistent settings s where
  hasError_iff_error := by simp [hflag, herror]
  hasError_iff_display := by simp [hflag, ne_errorDisplay_of_displayable hdisplay]
  displayable _ := hdisplay
  has_expression := hresult

theorem consistent_initial (settings : Settings) : Consistent settings initial :=
  consistent_of_displayable rfl rfl (.inl rfl) (by simp [initial, cleared])

/-- **Each effect of a key keeps the state consistent.** -/
theorem Consistent.effect (h : Consistent settings s) (heffect : Effect settings s s') :
    Consistent settings s' := by
  -- The text of a number, in the place of the expression and on the display.
  have hshown : ∀ {v : Binary64} {text : List Char}, s.hasError = false →
      Display.text settings v = .ok text →
      Consistent settings { s with expression := text, display := text, showsResult := true } := by
    intro v text hflag htext
    refine consistent_of_displayable hflag (h.error_eq_none hflag) ?_ ?_
    · exact .inr ⟨v, Display.isFinite_of_text htext, htext⟩
    · intro _
      exact (Display.spec_of_text htext).1
  cases heffect with
  | nothing => exact h
  | edited hshows hflag herror _ hdisplay =>
    apply consistent_of_displayable hflag herror
    · rcases hdisplay with hdisplay | ⟨hold, hsame⟩
      · exact hdisplay
      · rw [hsame]
        exact h.displayable hold
    · intro hresult
      rw [hshows] at hresult
      exact absurd hresult (by simp)
  | failed e =>
    refine ⟨by simp [fail], by simp [fail], ?_, h.has_expression⟩
    intro hflag
    exact absurd hflag (by simp [fail])
  | hundredth hflag _ _ htext => exact hshown hflag htext
  | root hflag _ _ htext => exact hshown hflag htext
  | committed hne hresult =>
    obtain ⟨v, -, htext⟩ := (Evaluation.evaluate_eq_ok_iff hne).mp hresult
    refine consistent_of_displayable rfl rfl ?_ ?_
    · exact .inr ⟨v, Display.isFinite_of_text htext, htext⟩
    · intro _
      exact hne

theorem Consistent.press (h : Consistent settings s) (key : Key) :
    Consistent settings (s.press settings key).1 :=
  h.effect (effect_of_press h.error_eq_none h.has_expression key)

/-- **So does a run of keys.** -/
theorem Consistent.pressAll (h : Consistent settings s) (keys : List Key) :
    Consistent settings (s.pressAll settings keys) := by
  induction keys generalizing s with
  | nil => exact h
  | cons key keys ih => exact ih (h.press key)

/-- **What every move keeps, every run keeps.** -/
theorem Consistent.holds_pressAll {P : State → Prop} (h : Consistent settings s) (hs : P s)
    (hmove : ∀ {s s' : State} {key : Key}, Consistent settings s → P s → Move settings s key s' →
      P s') (keys : List Key) : P (s.pressAll settings keys) := by
  induction keys generalizing s with
  | nil => exact hs
  | cons key keys ih => exact ih (h.press key) (hmove h hs (move_of_press h.has_expression key))

/-- **Every state that is reached is consistent.** -/
theorem consistent_of_run (settings : Settings) (keys : List Key) :
    Consistent settings (initial.pressAll settings keys) :=
  (consistent_initial settings).pressAll keys

end Reckoner.Keypad.State
