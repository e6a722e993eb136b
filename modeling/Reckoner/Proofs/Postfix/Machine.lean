import Reckoner.Postfix.Evaluation
import Reckoner.Proofs.Stages
/-!
# `Reckoner/Proofs/Postfix/Machine.lean` — what the postfix machine does to its stack

Facts about a run of the machine on any sequence, the post-order of a tree or not: how many values
are left when it comes through (`length_of_foldlM_step`), and what its errors have in common
(`hasNoPlace_of_evaluate`).
-/

set_option autoImplicit false

namespace Reckoner

/-! ## Counting operands

A number adds a value, a binary operator takes one away, and a unary operator leaves their number
as it is. -/

/-- The token is a number. -/
def Token.isNumber : Token → Bool
  | .number _ => true
  | _ => false

/-- The token is a binary operator. -/
def Token.isBinary : Token → Bool
  | .binary _ => true
  | _ => false

namespace Postfix

theorem foldlM_step_cons (token : Token) (rest : List Token) (stack : List Binary64) :
    (token :: rest).foldlM step stack =
      (step stack token).bind fun stack => rest.foldlM step stack := rfl

/-- **What a step does** when it comes through: a number is pushed, and an operator replaces its
operands by its result. -/
theorem step_eq_ok {stack stack' : List Binary64} {token : Token}
    (h : step stack token = .ok stack') :
    (∃ text v, token = .number text ∧ numberValue text = .ok v ∧ stack' = v :: stack) ∨
      (∃ op x rest v, token = .unary op ∧ stack = x :: rest ∧
        Operation.applyUnary op x = .ok v ∧ stack' = v :: rest) ∨
      ∃ op x y rest v, token = .binary op ∧ stack = y :: x :: rest ∧
        Operation.applyBinary op x y = .ok v ∧ stack' = v :: rest := by
  cases token with
  | number text =>
    obtain ⟨v, hv, rfl⟩ := map_eq_ok_iff.mp h
    exact .inl ⟨text, v, rfl, hv, rfl⟩
  | unary op =>
    cases stack with
    | nil => cases h
    | cons x rest =>
      obtain ⟨v, hv, rfl⟩ := map_eq_ok_iff.mp h
      exact .inr (.inl ⟨op, x, rest, v, rfl, rfl, hv, rfl⟩)
  | binary op =>
    cases stack with
    | nil => cases h
    | cons y below =>
      cases below with
      | nil => cases h
      | cons x rest =>
        obtain ⟨v, hv, rfl⟩ := map_eq_ok_iff.mp h
        exact .inr (.inr ⟨op, x, y, rest, v, rfl, rfl, hv, rfl⟩)
  | openParen | closeParen => cases h

theorem length_of_step {stack stack' : List Binary64} {token : Token}
    (h : step stack token = .ok stack') :
    stack'.length + (if token.isBinary then 1 else 0) =
      stack.length + (if token.isNumber then 1 else 0) := by
  rcases step_eq_ok h with ⟨_, _, rfl, -, rfl⟩ | ⟨_, _, _, _, rfl, rfl, -, rfl⟩ |
    ⟨_, _, _, _, _, rfl, rfl, -, rfl⟩ <;> rfl

/-- A run that comes through leaves as many values as there are numbers, less one for each binary
operator. -/
theorem length_of_foldlM_step {tokens : List Token} {stack stack' : List Binary64}
    (h : tokens.foldlM step stack = .ok stack') :
    stack'.length + tokens.countP Token.isBinary = stack.length + tokens.countP Token.isNumber := by
  induction tokens generalizing stack with
  | nil => cases h; rfl
  | cons token tokens ih =>
    obtain ⟨middle, hs, h⟩ := bind_eq_ok_iff.mp h
    have hstep := length_of_step hs
    have hrest := ih h
    rw [List.countP_cons, List.countP_cons]
    omega

/-- A sequence with a value has one number more than it has binary operators. -/
theorem countP_of_evaluate {tokens : List Token} {v : Binary64} (h : evaluate tokens = .ok v) :
    tokens.countP Token.isNumber = tokens.countP Token.isBinary + 1 := by
  obtain ⟨stack, hr, h⟩ := bind_eq_ok_iff.mp h
  have hlen := length_of_foldlM_step hr
  match stack with
  | [_] => simpa [Nat.add_comm] using hlen.symm
  | [] | _ :: _ :: _ => cases h

end Postfix

/-! ## Places

Only reading knows the place of a character, so no error of the machine reports one. -/

/-- The error with the place that it reports, if it reports one, moved to the right. -/
def EvalError.moveBy (k : Nat) : EvalError → EvalError
  | .unexpectedCharacter character index => .unexpectedCharacter character (index + k)
  | e => e

/-- An error that reports no place. -/
def EvalError.HasNoPlace (e : EvalError) : Prop := ∀ k, e.moveBy k = e

namespace Postfix

theorem hasNoPlace_of_applyUnary {op : UnaryOp} {x : Binary64} {e : EvalError}
    (h : Operation.applyUnary op x = .error e) : e.HasNoPlace := by
  cases op with
  | squareRoot =>
    simp only [Operation.applyUnary, Operation.squareRoot] at h
    split at h
    · cases h; exact fun _ => rfl
    · cases h
  | negate => cases h

theorem hasNoPlace_of_applyBinary {op : BinaryOp} {x y : Binary64} {e : EvalError}
    (h : Operation.applyBinary op x y = .error e) : e.HasNoPlace := by
  cases op with
  | divide =>
    simp only [Operation.applyBinary, Operation.divide] at h
    split at h
    · cases h; exact fun _ => rfl
    · cases h
  | add | subtract | multiply | power => cases h

theorem hasNoPlace_of_numberValue {text : List Char} {e : EvalError}
    (h : numberValue text = .error e) : e.HasNoPlace := by
  unfold numberValue at h
  split at h
  · cases h
  · cases h; exact fun _ => rfl

theorem hasNoPlace_of_step {stack : List Binary64} {token : Token} {e : EvalError}
    (h : step stack token = .error e) : e.HasNoPlace := by
  cases token with
  | number text => exact hasNoPlace_of_numberValue (map_eq_error_iff.mp h)
  | unary op =>
    cases stack with
    | nil => cases h; exact fun _ => rfl
    | cons x rest => exact hasNoPlace_of_applyUnary (map_eq_error_iff.mp h)
  | binary op =>
    cases stack with
    | nil => cases h; exact fun _ => rfl
    | cons y below =>
      cases below with
      | nil => cases h; exact fun _ => rfl
      | cons x rest => exact hasNoPlace_of_applyBinary (map_eq_error_iff.mp h)
  | openParen | closeParen => cases h; exact fun _ => rfl

theorem hasNoPlace_of_result {stack : List Binary64} {e : EvalError}
    (h : result stack = .error e) : e.HasNoPlace := by
  match stack with
  | [.nan] | [.infinity _] | [] | _ :: _ :: _ => cases h; exact fun _ => rfl
  | [.finite ..] => cases h

theorem hasNoPlace_of_foldlM_step {tokens : List Token} {stack : List Binary64} {e : EvalError}
    (h : tokens.foldlM step stack = .error e) : e.HasNoPlace := by
  induction tokens generalizing stack with
  | nil => cases h
  | cons token tokens ih =>
    rcases bind_eq_error_iff.mp h with hs | ⟨middle, -, hrest⟩
    · exact hasNoPlace_of_step hs
    · exact ih hrest

theorem hasNoPlace_of_evaluate {tokens : List Token} {e : EvalError}
    (h : evaluate tokens = .error e) : e.HasNoPlace := by
  rcases bind_eq_error_iff.mp h with hrun | ⟨stack, -, hresult⟩
  · exact hasNoPlace_of_foldlM_step hrun
  · exact hasNoPlace_of_result hresult

end Postfix

end Reckoner
