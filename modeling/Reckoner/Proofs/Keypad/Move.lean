import Reckoner.Keypad.Press
import Reckoner.Proofs.Stages
/-!
# `Reckoner/Proofs/Keypad/Move.lean` — what each key does

A key that types first makes room for what it types: it clears an error, or puts a shown result
aside (`Start`). What it then makes of the expression is one of a few things (`Typed`). A key that
calculates shows a result, or fails.

> **A press is a move** (`move_of_press`), and a move is all that is known of a press elsewhere: this
> is the one place where the keys are taken apart.

A move keeps the key with it only where one key alone can make it. So it is the move that tells that
nothing but equals commits a calculation.
-/

set_option autoImplicit false

namespace Reckoner.Keypad

/-- What a key that types starts from: the state as it is, a cleared one, or the state with its
result put aside for nothing, for a zero or for the operand of the result. -/
inductive Start (s : State) : State → Prop where
  | here (hflag : s.hasError = false) (hshows : s.showsResult = false) : Start s s
  | cleared : Start s (.cleared s.history)
  | aside {start : List Char} (hflag : s.hasError = false) (hshows : s.showsResult = true)
      (hstart : start = [] ∨ start = ['0'] ∨
        ∃ grouped, Operand.ofDisplay grouped s.display = .ok start) :
      Start s { s with expression := start, showsResult := false }

namespace Start

variable {s t : State}

theorem hasError_eq_false (h : Start s t) : t.hasError = false := by
  cases h with
  | here hflag _ => exact hflag
  | cleared => rfl
  | aside hflag _ _ => exact hflag

theorem showsResult_eq_false (h : Start s t) : t.showsResult = false := by
  cases h with
  | here _ hshows => exact hshows
  | cleared => rfl
  | aside _ _ _ => rfl

theorem history_eq (h : Start s t) : t.history = s.history := by
  cases h with
  | here _ _ => rfl
  | cleared => rfl
  | aside _ _ _ => rfl

end Start

/-- What is made of the expression of a state. -/
inductive Typed (t : State) : List Char → Prop where
  | digit {c : Char} (hc : c.isDigit = true) : Typed t (t.expression ++ [c])
  | point (hnone : '.' ∉ t.currentNumber) : Typed t (t.expression ++ ['.'])
  | zeroPoint (hnone : '.' ∉ t.currentNumber) : Typed t (t.expression ++ ['0', '.'])
  | operator {glyph : Char} (hglyph : State.endsNumber glyph = true)
      (hend : t.endsWithOperator = false) (hfirst : t.expression = [] → glyph = '-') :
      Typed t (t.expression ++ [glyph])
  | otherOperator {glyph : Char} (hglyph : State.endsNumber glyph = true)
      (hend : t.endsWithOperator = true) : Typed t (t.expression.dropLast ++ [glyph])
  | square : Typed t (t.expression ++ ['²'])
  | root : Typed t (t.expression ++ ['√', '('])
  | opened : Typed t (t.expression ++ ['('])
  | closed (hopen : t.expression.count ')' < t.expression.count '(') :
      Typed t (t.expression ++ [')'])
  | factor (hne : t.expression ≠ []) (hend : t.endsWithOperator = false) :
      Typed t (t.expression ++ ['×', '('])
  | deleted : Typed t t.expression.dropLast

/-- What a press of a key does. -/
inductive Move (settings : Settings) (s : State) : Key → State → Prop where
  /-- The key does not apply, or a fault has stopped it. -/
  | nothing {key : Key} : Move settings s key s
  | emptied {key : Key} {t : State} (hstart : Start s t) (hempty : t.expression = []) :
      Move settings s key t
  | typed {key : Key} {t : State} {expression : List Char} (hstart : Start s t)
      (htyped : Typed t expression) : Move settings s key (t.edit settings expression).1
  | failed {key : Key} (e : EvalError) : Move settings s key (s.fail e)
  | hundredth {result text : List Char} (hflag : s.hasError = false) (hne : s.expression ≠ [])
      (hresult : Evaluation.evaluate settings s.expression = .ok (.ok result))
      (htext : Display.text settings (State.hundredth result) = .ok text) :
      Move settings s .percent { s with expression := text, display := text, showsResult := true }
  | root {v : Binary64} {text : List Char} (hflag : s.hasError = false)
      (hshows : s.showsResult = true)
      (hroot : s.displayedNumber.bind Operation.squareRoot = .ok v)
      (htext : Display.text settings v = .ok text) :
      Move settings s .squareRoot { s with expression := text, display := text, showsResult := true }
  | committed {text : List Char} (hne : s.expression ≠ [])
      (hresult : Evaluation.evaluate settings s.expression = .ok (.ok text)) :
      Move settings s .equals (s.commit text)

namespace State

variable {settings : Settings} {s t : State} {key : Key}

/-! ## Where a key starts -/

theorem start_startWith {expression : List Char} (h : expression = [] ∨ expression = ['0']) :
    Start s (s.recover.startWith expression) := by
  by_cases hflag : s.hasError = true
  · rw [recover, if_pos hflag]
    exact .cleared
  · rw [recover, if_neg hflag, startWith]
    rw [Bool.not_eq_true] at hflag
    split
    · next hshows =>
      refine .aside hflag hshows ?_
      rcases h with h | h
      · exact .inl h
      · exact .inr (.inl h)
    · next hshows => exact .here hflag (by simpa using hshows)

/-- Where there is neither an error nor a shown result, there is room already. -/
theorem recover_startWith (hflag : s.hasError = false) (hshows : s.showsResult = false)
    (expression : List Char) : s.recover.startWith expression = s := by
  simp [recover, startWith, hflag, hshows]

theorem start_continueResult {grouped : Bool} (hflag : s.hasError = false)
    (h : s.continueResult grouped = .ok t) : Start s t := by
  unfold continueResult at h
  split at h
  · next hshows =>
    obtain ⟨operand, hoperand, rfl⟩ := map_eq_ok_iff.mp h
    exact .aside hflag hshows (.inr (.inr ⟨grouped, hoperand⟩))
  · next hshows =>
    cases h
    exact .here hflag (by simpa using hshows)

/-- A zero in the place of a result is a number without a point. -/
theorem startWith_eq_of_point (h : '.' ∈ (s.recover.startWith ['0']).currentNumber) :
    s.recover.startWith ['0'] = s := by
  by_cases hflag : s.hasError = true
  · rw [recover, if_pos hflag] at h
    exact absurd h (by simp [startWith, cleared, currentNumber])
  · rw [recover, if_neg hflag, startWith] at h ⊢
    split at h
    · exact absurd h (by simp [currentNumber, endsNumber])
    · next hshows => rw [if_neg hshows]

/-! ## What keys share -/

theorem move_of_continue {grouped : Bool} {rest : State → Pressed} (hflag : s.hasError = false)
    (hrest : ∀ t, Start s t → Move settings s key (rest t).1) :
    Move settings s key (s.andThen (s.continueResult grouped) rest).1 := by
  cases h : s.continueResult grouped with
  | error fault => exact .nothing
  | ok t => exact hrest t (start_continueResult hflag h)

theorem move_of_showNumber {v : Binary64}
    (h : ∀ text, Display.text settings v = .ok text →
      Move settings s key { s with expression := text, display := text, showsResult := true }) :
    Move settings s key (s.andThen (s.showNumber settings v) done).1 := by
  cases hshown : s.showNumber settings v with
  | error fault => exact .nothing
  | ok t =>
    obtain ⟨text, htext, rfl⟩ := map_eq_ok_iff.mp hshown
    exact h text htext

/-! ## The keys -/

theorem isDigit_of_digitOfLabel? {label : List Char} {c : Char} (h : digitOfLabel? label = some c) :
    c.isDigit = true := by
  unfold digitOfLabel? at h
  split at h
  · split at h
    · next hc =>
      cases h
      exact hc
    · cases h
  · cases h

theorem endsNumber_of_glyphOfLabel? {label : List Char} {glyph : Char}
    (h : glyphOfLabel? label = some glyph) : endsNumber glyph = true := by
  unfold glyphOfLabel? at h
  split at h
  all_goals
    cases h
  all_goals decide

theorem move_of_pressDigit (label : List Char) :
    Move settings s (.digit label) (s.pressDigit settings label).1 := by
  unfold pressDigit
  split
  · next hc => exact .typed (start_startWith (.inl rfl)) (.digit (isDigit_of_digitOfLabel? hc))
  · exact .nothing

theorem move_of_pressPoint : Move settings s .point (s.pressPoint settings).1 := by
  have hstart : Start s (s.recover.startWith ['0']) := start_startWith (.inr rfl)
  unfold pressPoint
  simp only
  split
  · next hpoint =>
    rw [startWith_eq_of_point (by simpa using hpoint)]
    exact .nothing
  · next hnone =>
    split
    · exact .typed hstart (.zeroPoint (by simpa using hnone))
    · exact .typed hstart (.point (by simpa using hnone))

theorem move_of_pressOperator (label : List Char) :
    Move settings s (.operator label) (s.pressOperator settings label).1 := by
  unfold pressOperator
  split
  · exact .nothing
  · next glyph hlabel =>
    have hglyph := endsNumber_of_glyphOfLabel? hlabel
    split
    · exact .nothing
    · next hflag =>
      apply move_of_continue (by simpa using hflag)
      intro t hstart
      split
      · next hempty =>
        rw [List.isEmpty_iff] at hempty
        split
        · next hminus =>
          have htyped : Typed t (t.expression ++ [glyph]) :=
            .operator hglyph (by simp [endsWithOperator, hempty]) fun _ => hminus
          rw [hempty, hminus] at htyped
          exact .typed hstart htyped
        · exact .emptied hstart hempty
      · next hne =>
        simp only
        split
        · next hend => exact .typed hstart (.otherOperator hglyph hend)
        · next hend =>
          refine .typed hstart (.operator hglyph (by simpa using hend) ?_)
          intro hempty
          exact absurd (List.isEmpty_iff.mpr hempty) hne

theorem move_of_pressSquare : Move settings s .square (s.pressSquare settings).1 := by
  unfold pressSquare
  split
  · exact .nothing
  · next hflag =>
    apply move_of_continue (by simpa using hflag)
    intro t hstart
    split
    · next hempty => exact .emptied hstart (List.isEmpty_iff.mp hempty)
    · exact .typed hstart .square

theorem move_of_pressParentheses :
    Move settings s .parentheses (s.pressParentheses settings).1 := by
  have hstart : Start s (s.recover.startWith []) := start_startWith (.inl rfl)
  unfold pressParentheses
  simp only
  split
  · exact .typed hstart .opened
  · next hend =>
    simp only [Bool.or_eq_true, not_or, Bool.not_eq_true] at hend
    split
    · next hopen => exact .typed hstart (.closed hopen)
    · exact .typed hstart (.factor (by simpa using hend.1.1) hend.1.2)

theorem move_of_pressDelete : Move settings s .delete (s.pressDelete settings).1 := by
  unfold pressDelete
  split
  · exact .emptied .cleared rfl
  · next hflag =>
    apply move_of_continue (by simpa using hflag)
    intro t hstart
    exact .typed hstart .deleted

theorem move_of_pressPercent : Move settings s .percent (s.pressPercent settings).1 := by
  unfold pressPercent
  split
  · exact .nothing
  · next hs =>
    simp only [Bool.or_eq_true, not_or, Bool.not_eq_true] at hs
    obtain ⟨hflag, hne⟩ := hs
    split
    · exact .nothing
    · next e _ => exact .failed e
    · next result hresult =>
      apply move_of_showNumber
      intro text htext
      exact .hundredth hflag (by simpa using hne) hresult htext

/-- The root key takes a shown result with nothing typed for none; there is no such state. -/
theorem move_of_pressSquareRoot (hresult : s.showsResult = true → s.expression ≠ []) :
    Move settings s .squareRoot (s.pressSquareRoot settings).1 := by
  unfold pressSquareRoot
  split
  · exact .nothing
  · next hflag =>
    rw [Bool.not_eq_true] at hflag
    split
    · next hshows =>
      rw [Bool.and_eq_true] at hshows
      split
      · next v hroot =>
        apply move_of_showNumber
        intro text htext
        exact .root hflag hshows.1 hroot htext
      · next e _ => exact .failed e
    · next hshows =>
      have hnone : s.showsResult = false := by
        cases hs : s.showsResult with
        | false => rfl
        | true => exact absurd (hresult hs) (by simpa [hs] using hshows)
      exact .typed (.here hflag hnone) .root

/-- Where the expression has a result, equals records it. -/
theorem press_equals_of_result (hne : s.expression ≠ []) {text : List Char}
    (h : Evaluation.evaluate settings s.expression = .ok (.ok text)) :
    s.press settings .equals = (s.commit text).done := by
  simp [press, pressEquals, hne, h]

theorem press_equals_of_error (hne : s.expression ≠ []) {e : EvalError}
    (h : Evaluation.evaluate settings s.expression = .ok (.error e)) :
    s.press settings .equals = (s.fail e).done := by
  simp [press, pressEquals, hne, h]

/-- Where the expression has a result, percent shows a hundredth of it. -/
theorem press_percent_of_result (hflag : s.hasError = false) (hne : s.expression ≠ [])
    {text : List Char} (h : Evaluation.evaluate settings s.expression = .ok (.ok text)) :
    s.press settings .percent = s.andThen (s.showNumber settings (hundredth text)) done := by
  simp [press, pressPercent, hflag, hne, h]

theorem press_percent_of_error (hflag : s.hasError = false) (hne : s.expression ≠ [])
    {e : EvalError} (h : Evaluation.evaluate settings s.expression = .ok (.error e)) :
    s.press settings .percent = (s.fail e).done := by
  simp [press, pressPercent, hflag, hne, h]

theorem move_of_pressEquals : Move settings s .equals (s.pressEquals settings).1 := by
  unfold pressEquals
  split
  · exact .nothing
  · next hne =>
    split
    · exact .nothing
    · next e _ => exact .failed e
    · next text hresult => exact .committed (by simpa using hne) hresult

/-- **A press is a move**, where a shown result has an expression. -/
theorem move_of_press (hresult : s.showsResult = true → s.expression ≠ []) (key : Key) :
    Move settings s key (s.press settings key).1 := by
  cases key with
  | digit label => exact move_of_pressDigit label
  | point => exact move_of_pressPoint
  | operator label => exact move_of_pressOperator label
  | percent => exact move_of_pressPercent
  | squareRoot => exact move_of_pressSquareRoot hresult
  | square => exact move_of_pressSquare
  | parentheses => exact move_of_pressParentheses
  | clear => exact .emptied .cleared rfl
  | delete => exact move_of_pressDelete
  | equals => exact move_of_pressEquals

end State

end Reckoner.Keypad
