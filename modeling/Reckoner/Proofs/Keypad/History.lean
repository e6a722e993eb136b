import Reckoner.Proofs.Keypad.Consistency
/-!
# `Reckoner/Proofs/Keypad/History.lean` — the calculations on record

An entry of the history is an expression and the result that it had. Nothing is ever taken out of
the history or written over, and one key alone writes to it:

> **The history is a log that can be replayed** (`appendOnly_of_run`). In every state that is reached,
> with any settings, each expression in it evaluates to the result beside it. A press changes it if
> and only if it is equals, on an expression that has a result; the expression and the display are
> then put behind what was there.

A fault leaves the history alone, and so does an error, that of an earlier press included: equals is
pressed on what is typed, and neither asks how it came there nor whether the last calculation failed.
-/

set_option autoImplicit false

namespace Reckoner.Keypad.State

variable {settings : Settings} {s s' t : State} {key : Key}

/-- The key is equals, and the expression has a result. -/
def Commits (settings : Settings) (s : State) (key : Key) : Prop :=
  key = .equals ∧ s.expression ≠ [] ∧
    ∃ text, Evaluation.evaluate settings s.expression = .ok (.ok text)

theorem press_of_commits (h : Commits settings s key) :
    ∃ text, s.press settings key = (s.commit text).done := by
  obtain ⟨rfl, hne, text, hresult⟩ := h
  exact ⟨text, press_equals_of_result hne hresult⟩

/-- **One move alone writes to the history.** -/
theorem history_of_move (h : Move settings s key s') :
    s'.history = s.history ∨ key = .equals ∧ s.expression ≠ [] ∧
      ∃ text, Evaluation.evaluate settings s.expression = .ok (.ok text) ∧ s' = s.commit text := by
  cases h with
  | nothing => exact .inl rfl
  | emptied hstart _ => exact .inl hstart.history_eq
  | typed hstart _ =>
    rw [history_edit]
    exact .inl hstart.history_eq
  | failed e => exact .inl rfl
  | hundredth _ _ _ _ => exact .inl rfl
  | root _ _ _ _ => exact .inl rfl
  | committed hne hresult => exact .inr ⟨rfl, hne, _, hresult, rfl⟩

theorem history_isPrefix_of_move (h : Move settings s key s') : s.history <+: s'.history := by
  rcases history_of_move h with hsame | ⟨-, -, text, -, rfl⟩
  · rw [hsame]
  · exact List.prefix_append _ _

/-- Every entry has an expression, which evaluates to the result beside it. -/
def Replays (settings : Settings) (history : List Entry) : Prop :=
  ∀ e ∈ history, e.expression ≠ [] ∧
    Evaluation.evaluate settings e.expression = .ok (.ok e.result)

theorem replays_of_move (hs : Replays settings s.history) (h : Move settings s key s') :
    Replays settings s'.history := by
  rcases history_of_move h with hsame | ⟨-, hne, text, hresult, rfl⟩
  · rw [hsame]
    exact hs
  · intro e he
    rcases List.mem_append.mp he with he | he
    · exact hs e he
    · rw [List.mem_singleton.mp he]
      exact ⟨hne, hresult⟩

/-- **The history is an append-only log**, as far as a press of the key goes, and any run of keys. -/
structure AppendOnly (settings : Settings) (s : State) (key : Key) : Prop where
  replays : Replays settings s.history
  changes_iff : (s.press settings key).1.history ≠ s.history ↔ Commits settings s key
  appends : (s.press settings key).1.history ≠ s.history → (s.press settings key).1.history =
    s.history ++ [⟨s.expression, (s.press settings key).1.display⟩]
  stays : (s.press settings key).2 ≠ none ∨ (s.press settings key).1.hasError = true →
    (s.press settings key).1.history = s.history
  isPrefix : ∀ keys, s.history <+: (s.pressAll settings keys).history

theorem Consistent.appendOnly (h : Consistent settings s) (hs : Replays settings s.history)
    (key : Key) : AppendOnly settings s key := by
  have hmove : Move settings s key (s.press settings key).1 := move_of_press h.has_expression key
  have hchanges : (s.press settings key).1.history ≠ s.history → Commits settings s key := by
    intro hne
    rcases history_of_move hmove with hsame | ⟨hkey, hexpression, text, hresult, -⟩
    · exact absurd hsame hne
    · exact ⟨hkey, hexpression, text, hresult⟩
  refine ⟨hs, ⟨hchanges, ?_⟩, ?_, ?_, ?_⟩
  · intro hcommits
    obtain ⟨text, hpress⟩ := press_of_commits hcommits
    simp [hpress, done, commit]
  · intro hne
    obtain ⟨text, hpress⟩ := press_of_commits (hchanges hne)
    rw [hpress]
    rfl
  · intro hstopped
    by_contra hne
    obtain ⟨text, hpress⟩ := press_of_commits (hchanges hne)
    rw [hpress] at hstopped
    exact absurd hstopped (by simp [done, commit])
  · intro keys
    refine h.holds_pressAll (P := fun t => s.history <+: t.history) (List.prefix_refl _) ?_ keys
    intro t t' key _ hextends hmove
    exact hextends.trans (history_isPrefix_of_move hmove)

/-- **In every state that is reached, the history is an append-only log that can be replayed.** -/
theorem appendOnly_of_run (settings : Settings) (keys : List Key) (key : Key) :
    AppendOnly settings (initial.pressAll settings keys) key := by
  have hinitial := consistent_initial settings
  apply (hinitial.pressAll keys).appendOnly
  refine hinitial.holds_pressAll (P := fun s => Replays settings s.history) ?_ ?_ keys
  · intro e he
    exact absurd he (by simp [initial, cleared])
  · intro s s' key _ hs hmove
    exact replays_of_move hs hmove

end Reckoner.Keypad.State
