import Reckoner.Token.Basic
/-!
# `Reckoner/Proofs/Expression/Grammar.lean` — well-formed token lists

The grammar of infix expressions, on tokens:

```
E ::= P (binary P)*
P ::= (unary)* (number | open E close)
```

It is stated as an inductive family over the two categories, and says nothing about how tightly
operators bind. A parser reads from the left, so the form in which it meets an expression is
another one: a first token that decides, and a *tail* that is empty or starts with a binary
operator (`Derives.expression_head`). The two forms are the same language, and both directions are
proved, since a parser uses the one and a recogniser the other.
-/

set_option autoImplicit false

namespace Reckoner.Expression

/-- The two categories of the grammar. -/
inductive Category where
  | expression
  | operand
deriving DecidableEq, Repr

/-- The token lists of a category. -/
inductive Derives : Category → List Token → Prop where
  | number (text : List Char) : Derives .operand [.number text]
  | unary (op : UnaryOp) {w : List Token} : Derives .operand w → Derives .operand (.unary op :: w)
  | group {w : List Token} :
      Derives .expression w → Derives .operand (.openParen :: (w ++ [.closeParen]))
  | single {w : List Token} : Derives .operand w → Derives .expression w
  | binary (op : BinaryOp) {v w : List Token} :
      Derives .operand v → Derives .expression w → Derives .expression (v ++ .binary op :: w)

/-- What may follow an operand within an expression: nothing, or a binary operator and an
expression. -/
inductive Tail : List Token → Prop where
  | nil : Tail []
  | binary (op : BinaryOp) {w : List Token} : Derives .expression w → Tail (.binary op :: w)

/-! ## Expressions from the left -/

theorem Derives.append_tail {v tail : List Token} (hv : Derives .operand v) (ht : Tail tail) :
    Derives .expression (v ++ tail) := by
  cases ht with
  | nil => rw [List.append_nil]; exact .single hv
  | binary op hw => exact .binary op hv hw

theorem Derives.exists_tail {e : List Token} (h : Derives .expression e) :
    ∃ v tail, e = v ++ tail ∧ Derives .operand v ∧ Tail tail := by
  cases h with
  | single hv => exact ⟨e, [], (List.append_nil e).symm, hv, .nil⟩
  | binary op hv hw => exact ⟨_, _, rfl, hv, .binary op hw⟩

theorem Derives.number_tail (text : List Char) {tail : List Token} (ht : Tail tail) :
    Derives .expression (.number text :: tail) :=
  (Derives.number text).append_tail ht

theorem Derives.unary_expression (op : UnaryOp) {e : List Token} (h : Derives .expression e) :
    Derives .expression (.unary op :: e) := by
  obtain ⟨v, tail, rfl, hv, ht⟩ := h.exists_tail
  exact (Derives.unary op hv).append_tail ht

theorem Derives.group_tail {e tail : List Token} (h : Derives .expression e) (ht : Tail tail) :
    Derives .expression (.openParen :: (e ++ .closeParen :: tail)) := by
  have hg := (Derives.group h).append_tail ht
  rwa [List.cons_append, List.append_assoc, List.singleton_append] at hg

/-- **The first token decides**: an expression is a number and a tail, a unary operator and an
expression, or a group and a tail. -/
theorem Derives.expression_head {e : List Token} (h : Derives .expression e) :
    (∃ text tail, e = .number text :: tail ∧ Tail tail) ∨
      (∃ op e', e = .unary op :: e' ∧ Derives .expression e') ∨
        ∃ e' tail, e = .openParen :: (e' ++ .closeParen :: tail) ∧
          Derives .expression e' ∧ Tail tail := by
  obtain ⟨v, tail, rfl, hv, ht⟩ := h.exists_tail
  cases hv with
  | number text => exact .inl ⟨text, tail, rfl, ht⟩
  | unary op hw => exact .inr (.inl ⟨op, _, rfl, hw.append_tail ht⟩)
  | group he => exact .inr (.inr ⟨_, tail, by simp, he, ht⟩)

end Reckoner.Expression
