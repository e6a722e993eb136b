import Reckoner.Proofs.Keypad.Move
/-!
# `Reckoner/Proofs/Keypad/Effect.lean` — what a press can do

Of what a press makes of the expression, the flags and the display know nothing. To them there are
six things that it can do (`Effect`): nothing, an edit, a failure, or one of three calculations that
end in a result (`effect_of_press`).

A state from which a key starts to type is `Ready`. All that an edit does to the flags and to the
display is said there.

> **A shown result has an expression**, and **a state without the flag has no error.** That is what
> the keys ask of the states they are pressed in: the root key takes a shown result with nothing
> typed for none, and every key goes by the flag alone.
-/

set_option autoImplicit false

namespace Reckoner.Keypad

/-- The text stands on a blank display, or is shown of a finite value. -/
def Displayable (settings : Settings) (text : List Char) : Prop :=
  text = State.blankDisplay ∨
    ∃ v : Binary64, v.isFinite = true ∧ Display.text settings v = .ok text

/-- What a press does to a state. -/
inductive Effect (settings : Settings) (s : State) : State → Prop where
  /-- The key does not apply, or a fault has stopped it. -/
  | nothing : Effect settings s s
  /-- Something has been typed, deleted or cleared: no result is shown any more. -/
  | edited {s' : State} (hshows : s'.showsResult = false) (hflag : s'.hasError = false)
      (herror : s'.error = none) (hhistory : s'.history = s.history)
      (hdisplay : Displayable settings s'.display ∨ s.hasError = false ∧ s'.display = s.display) :
      Effect settings s s'
  /-- A calculation has failed. -/
  | failed (e : EvalError) : Effect settings s (s.fail e)
  /-- The result of the expression has been divided by a hundred. -/
  | hundredth {result text : List Char} (hflag : s.hasError = false) (hne : s.expression ≠ [])
      (hresult : Evaluation.evaluate settings s.expression = .ok (.ok result))
      (htext : Display.text settings (State.hundredth result) = .ok text) :
      Effect settings s { s with expression := text, display := text, showsResult := true }
  /-- The root of the shown result has been taken. -/
  | root {v : Binary64} {text : List Char} (hflag : s.hasError = false)
      (hshows : s.showsResult = true)
      (hroot : s.displayedNumber.bind Operation.squareRoot = .ok v)
      (htext : Display.text settings v = .ok text) :
      Effect settings s { s with expression := text, display := text, showsResult := true }
  /-- The expression has been calculated, and recorded. -/
  | committed {text : List Char} (hne : s.expression ≠ [])
      (hresult : Evaluation.evaluate settings s.expression = .ok (.ok text)) :
      Effect settings s (s.commit text)

namespace State

variable {settings : Settings} {s s' t : State}

/-! ## Ready to be typed into -/

/-- The state `t`, which comes from `s`, has no error and shows no result, and its display is that
of `s` or blank. -/
structure Ready (s t : State) : Prop where
  shows : t.showsResult = false
  flag : t.hasError = false
  error : t.error = none
  history : t.history = s.history
  display : t.display = blankDisplay ∨ s.hasError = false ∧ t.display = s.display

/-- A key that types leaves an error and a shown result behind. -/
theorem ready_of_start (herror : s.hasError = false → s.error = none) (h : Start s t) :
    Ready s t := by
  have hshows := h.showsResult_eq_false
  have hflag := h.hasError_eq_false
  cases h with
  | here _ _ => exact ⟨hshows, hflag, herror hflag, rfl, .inr ⟨hflag, rfl⟩⟩
  | cleared => exact ⟨hshows, hflag, rfl, rfl, .inl rfl⟩
  | aside hs _ _ => exact ⟨hshows, hflag, herror hs, rfl, .inr ⟨hs, rfl⟩⟩

/-- Refreshing touches nothing but the display, and puts a preview there if anything. -/
theorem exists_refresh (settings : Settings) (s : State) :
    ∃ display, (s.refresh settings).1 = { s with display } ∧
      (display = s.display ∨ Displayable settings display) := by
  unfold refresh
  split
  · exact ⟨s.display, rfl, .inl rfl⟩
  · split
    · next text hpreview =>
      split
      · exact ⟨s.display, rfl, .inl rfl⟩
      · exact ⟨text, rfl, .inr (.inr (Evaluation.exists_text_of_preview hpreview))⟩
    · exact ⟨s.display, rfl, .inl rfl⟩
    · exact ⟨s.display, rfl, .inl rfl⟩

/-- So does editing, but for the expression. -/
theorem exists_edit (settings : Settings) (t : State) (expression : List Char) :
    ∃ display, (t.edit settings expression).1 = { t with expression, display } ∧
      (display = t.display ∨ Displayable settings display) :=
  exists_refresh settings { t with expression }

theorem expression_edit (settings : Settings) (t : State) (expression : List Char) :
    (t.edit settings expression).1.expression = expression := by
  obtain ⟨display, hedit, -⟩ := exists_edit settings t expression
  rw [hedit]

theorem history_edit (settings : Settings) (t : State) (expression : List Char) :
    (t.edit settings expression).1.history = t.history := by
  obtain ⟨display, hedit, -⟩ := exists_edit settings t expression
  rw [hedit]

theorem flags_edit (settings : Settings) (t : State) (expression : List Char) :
    (t.edit settings expression).1.showsResult = t.showsResult ∧
      (t.edit settings expression).1.hasError = t.hasError := by
  obtain ⟨display, hedit, -⟩ := exists_edit settings t expression
  rw [hedit]
  exact ⟨rfl, rfl⟩

theorem Ready.displayable (h : Ready s t) :
    Displayable settings t.display ∨ s.hasError = false ∧ t.display = s.display := by
  rcases h.display with hblank | hsame
  · exact .inl (.inl hblank)
  · exact .inr hsame

/-- A state that has been made ready, and left at that. -/
theorem Ready.effect (h : Ready s t) : Effect settings s t :=
  .edited h.shows h.flag h.error h.history h.displayable

/-- A state that has been made ready, and typed into. -/
theorem Ready.effect_edit (h : Ready s t) (expression : List Char) :
    Effect settings s (t.edit settings expression).1 := by
  obtain ⟨display, hedit, hdisplay⟩ := exists_edit settings t expression
  rw [hedit]
  refine .edited h.shows h.flag h.error h.history ?_
  rcases hdisplay with rfl | hpreview
  · exact h.displayable
  · exact .inl hpreview

/-! ## The effect of a move -/

theorem effect_of_move (herror : s.hasError = false → s.error = none) {key : Key}
    (h : Move settings s key s') : Effect settings s s' := by
  cases h with
  | nothing => exact .nothing
  | emptied hstart _ => exact (ready_of_start herror hstart).effect
  | typed hstart _ => exact (ready_of_start herror hstart).effect_edit _
  | failed e => exact .failed e
  | hundredth hflag hne hresult htext => exact .hundredth hflag hne hresult htext
  | root hflag hshows hroot htext => exact .root hflag hshows hroot htext
  | committed hne hresult => exact .committed hne hresult

/-- **A press has one of the six effects.** -/
theorem effect_of_press (herror : s.hasError = false → s.error = none)
    (hresult : s.showsResult = true → s.expression ≠ []) (key : Key) :
    Effect settings s (s.press settings key).1 :=
  effect_of_move herror (move_of_press hresult key)

end State

end Reckoner.Keypad
