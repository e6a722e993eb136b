import Reckoner.Proofs.Keypad.Consistency
/-!
# `Reckoner/Proofs/Keypad/Freshness.lean` — the display while an expression is typed

While an expression is typed, the display shows a preview of it. The preview is made when the
expression is edited, and it is not made in an error or while a result is shown; so a key that edits
before it has made room would leave the display behind.

> **No key does** (`display_of_preview`). In every state that is reached, with any settings, that is
> without an error and shows no result: if the expression has a preview other than itself, it is what
> the display shows.

## What is not here

Where there is no preview, or where it is the expression itself, the display keeps what it showed,
and that is the preview of an expression that has since been edited: of `5+3`, deleted down to `5`,
the display still shows `8`.
-/

set_option autoImplicit false

namespace Reckoner.Keypad.State

variable {settings : Settings} {s s' t : State} {key : Key}

/-- A preview of the expression, if there is one to show, is on the display. -/
def Fresh (settings : Settings) (s : State) : Prop :=
  s.hasError = false → s.showsResult = false → ∀ text,
    Evaluation.preview settings s.expression = .ok (some text) → text ≠ s.expression →
      s.display = text

theorem fresh_of_empty (h : s.expression = []) : Fresh settings s := by
  intro _ _ text hpreview _
  rw [h] at hpreview
  cases hpreview

/-- The preview of an expression is made when it is typed, if the flags are down. -/
theorem display_edit (hflag : t.hasError = false) (hshows : t.showsResult = false)
    {expression text : List Char} (hpreview : Evaluation.preview settings expression = .ok (some text))
    (hne : text ≠ expression) : (t.edit settings expression).1.display = text := by
  have hempty : expression.isEmpty = false := by
    rw [List.isEmpty_eq_false_iff]
    rintro rfl
    cases hpreview
  simp [edit, refresh, done, hflag, hshows, hempty, hpreview, hne]

theorem fresh_of_move (hs : Fresh settings s) (h : Move settings s key s') :
    Fresh settings s' := by
  cases h with
  | nothing => exact hs
  | emptied _ hempty => exact fresh_of_empty hempty
  | typed hstart _ =>
    intro _ _ text hpreview hne
    rw [expression_edit] at hpreview hne
    exact display_edit hstart.hasError_eq_false hstart.showsResult_eq_false hpreview hne
  | failed e =>
    intro hflag
    exact absurd hflag (by simp [fail])
  | hundredth _ _ _ _ =>
    intro _ hshows
    exact absurd hshows (by simp)
  | root _ _ _ _ =>
    intro _ hshows
    exact absurd hshows (by simp)
  | committed _ _ =>
    intro _ hshows
    exact absurd hshows (by simp [commit])

theorem fresh_of_run (settings : Settings) (keys : List Key) :
    Fresh settings (initial.pressAll settings keys) := by
  apply (consistent_initial settings).holds_pressAll (fresh_of_empty rfl)
  intro s s' key _ hs hmove
  exact fresh_of_move hs hmove

/-- **While an expression is typed, the display shows its preview**, if there is one that is not the
expression itself: in every state that is reached, unless there is an error or a result is shown. -/
theorem display_of_preview (settings : Settings) (keys : List Key) {s : State}
    (hs : s = initial.pressAll settings keys) (hflag : s.hasError = false)
    (hshows : s.showsResult = false) {text : List Char}
    (hpreview : Evaluation.preview settings s.expression = .ok (some text))
    (hne : text ≠ s.expression) : s.display = text := by
  have hfresh : Fresh settings s := hs ▸ fresh_of_run settings keys
  exact hfresh hflag hshows text hpreview hne

/-- The root of a negative result fails, the next digit starts anew, and a group that is not closed
has a preview. -/
theorem display_of_open_product :
    ∃ s, s = initial.pressAll Settings.default [.operator ['-'], .digit ['4'], .equals, .squareRoot,
        .digit ['2'], .parentheses, .digit ['3'], .operator ['+'], .digit ['5']] ∧
      s.hasError = false ∧ s.showsResult = false ∧
      Evaluation.preview Settings.default s.expression = .ok (some "16".toList) ∧
      "16".toList ≠ s.expression ∧ s.display = "16".toList :=
  ⟨_, rfl, by decide +kernel, by decide +kernel, by decide +kernel, by decide +kernel,
    display_of_preview Settings.default _ rfl (by decide +kernel) (by decide +kernel)
      (by decide +kernel) (by decide +kernel)⟩

end Reckoner.Keypad.State
