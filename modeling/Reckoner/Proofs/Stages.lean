import Reckoner.Evaluation
/-!
# `Reckoner/Proofs/Stages.lean` — one stage after another

An evaluation is a chain: each stage hands what it has made to the next, or ends the chain with an
error. So to know that a chain has come through is to know that each stage has, and an error of the
chain is the error of one stage.

> **An expression has a text** if and only if it is read, its tokens have a value, and the value is
> shown (`value_eq_ok_iff`, `evaluate_eq_ok_iff`).
-/

set_option autoImplicit false

namespace Reckoner

/-! ## Chains -/

section Chains

variable {ε α β : Type} {x : Except ε α} {b : β} {e : ε}

theorem bind_eq_ok_iff {f : α → Except ε β} :
    x.bind f = .ok b ↔ ∃ a, x = .ok a ∧ f a = .ok b := by
  constructor
  · intro h
    cases x with
    | error e => cases h
    | ok a => exact ⟨a, rfl, h⟩
  · rintro ⟨a, rfl, h⟩
    exact h

theorem bind_eq_error_iff {f : α → Except ε β} :
    x.bind f = .error e ↔ x = .error e ∨ ∃ a, x = .ok a ∧ f a = .error e := by
  constructor
  · intro h
    cases x with
    | error e => cases h; exact .inl rfl
    | ok a => exact .inr ⟨a, rfl, h⟩
  · rintro (rfl | ⟨a, rfl, h⟩)
    · rfl
    · exact h

theorem map_eq_ok_iff {f : α → β} : x.map f = .ok b ↔ ∃ a, x = .ok a ∧ f a = b := by
  constructor
  · intro h
    cases x with
    | error e => cases h
    | ok a => cases h; exact ⟨a, rfl, rfl⟩
  · rintro ⟨a, rfl, rfl⟩
    rfl

theorem map_eq_error_iff {f : α → β} : x.map f = .error e ↔ x = .error e := by
  constructor
  · intro h
    cases x with
    | error e => cases h; rfl
    | ok a => cases h
  · rintro rfl
    rfl

end Chains

/-! ## Evaluation -/

/-- Nothing is shown of an infinity or of what is not a number. -/
theorem Display.isFinite_of_text {settings : Settings} {v : Binary64} {text : List Char}
    (h : Display.text settings v = .ok text) : v.isFinite = true := by
  unfold Display.text at h
  split at h
  all_goals
    split at h
    · cases h
    · split at h
      · assumption
      · cases h

/-- Only a finite value is the value of a sequence. -/
theorem Postfix.isFinite_of_evaluate {tokens : List Token} {v : Binary64}
    (h : Postfix.evaluate tokens = .ok v) : v.isFinite = true := by
  obtain ⟨stack, -, hresult⟩ := bind_eq_ok_iff.mp h
  match stack with
  | [.finite negative m e canonical] => cases hresult; rfl
  | [.nan] | [.infinity _] | [] | _ :: _ :: _ => cases hresult

namespace Evaluation

variable {settings : Settings} {expression text : List Char}

theorem value_eq_ok_iff {v : Binary64} :
    value expression = .ok v ↔ ∃ tokens, Token.read (Spelling.canonical expression) = .ok tokens ∧
      Postfix.evaluate (Postfix.ofInfix tokens) = .ok v := by
  constructor
  · intro h
    obtain ⟨ordered, hordered, hv⟩ := bind_eq_ok_iff.mp h
    obtain ⟨tokens, hread, rfl⟩ := map_eq_ok_iff.mp hordered
    exact ⟨tokens, hread, hv⟩
  · rintro ⟨tokens, hread, hv⟩
    rw [value, orderedTokens, hread]
    exact hv

theorem isFinite_of_value {v : Binary64} (h : value expression = .ok v) : v.isFinite = true := by
  obtain ⟨tokens, -, hv⟩ := value_eq_ok_iff.mp h
  exact Postfix.isFinite_of_evaluate hv

theorem evaluate_eq_ok_iff (hne : expression ≠ []) :
    evaluate settings expression = .ok (.ok text) ↔
      ∃ v, value expression = .ok v ∧ Display.text settings v = .ok text := by
  rw [evaluate, if_neg (by simpa using hne)]
  constructor
  · intro h
    cases hv : value expression with
    | error e => rw [hv] at h; cases h
    | ok v =>
      rw [hv] at h
      obtain ⟨shown, htext, hshown⟩ := map_eq_ok_iff.mp h
      cases hshown
      exact ⟨v, rfl, htext⟩
  · rintro ⟨v, hv, htext⟩
    rw [hv]
    exact map_eq_ok_iff.mpr ⟨text, htext, rfl⟩

theorem evaluate_eq_error_iff {e : EvalError} (hne : expression ≠ []) :
    evaluate settings expression = .ok (.error e) ↔ value expression = .error e := by
  rw [evaluate, if_neg (by simpa using hne)]
  cases value expression with
  | error e' => simp
  | ok v =>
    refine iff_of_false (fun h => ?_) (by simp)
    obtain ⟨shown, -, hshown⟩ := map_eq_ok_iff.mp h
    cases hshown

/-- A preview is the text of a finite value. -/
theorem exists_text_of_preview (h : preview settings expression = .ok (some text)) :
    ∃ v : Binary64, v.isFinite = true ∧ Display.text settings v = .ok text := by
  unfold preview at h
  split at h
  · cases h
  · next hrest =>
    have hne : expression ≠ [] := by
      rintro rfl
      exact hrest rfl
    obtain ⟨outcome, houtcome, hsome⟩ := map_eq_ok_iff.mp h
    cases outcome with
    | error e => cases hsome
    | ok shown =>
      cases hsome
      obtain ⟨v, -, htext⟩ := (evaluate_eq_ok_iff hne).mp houtcome
      exact ⟨v, Display.isFinite_of_text htext, htext⟩

end Evaluation

end Reckoner
