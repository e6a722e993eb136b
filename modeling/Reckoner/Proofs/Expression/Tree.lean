import Reckoner.Proofs.Postfix.Machine
/-!
# `Reckoner/Proofs/Expression/Tree.lean` — expressions as trees

The tree of an expression says which operator applies to which operands, and nothing about
parentheses or precedence. Two readings of a tree are defined here without any stack: its
*post-order*, and its *value*, computed by recursion with the operands before their operator and
the left one before the right one.

> **The postfix machine computes trees**: on a post-order it ends in the value of the tree, or in
> the first error that computing the tree meets.

The statement behind it is generalised over the stack and over the tokens that follow
(`foldlM_step_postorder`), since that is the form in which an operator meets its operands.
-/

set_option autoImplicit false

namespace Reckoner.Expression

/-- Which operator applies to which operands. -/
inductive Tree where
  | number (text : List Char)
  | unary (op : UnaryOp) (operand : Tree)
  | binary (op : BinaryOp) (left right : Tree)
deriving DecidableEq, Repr

namespace Tree

/-- The tokens of a tree, each operator behind its operands. -/
def postorder : Tree → List Token
  | .number text => [.number text]
  | .unary op operand => operand.postorder ++ [.unary op]
  | .binary op left right => left.postorder ++ right.postorder ++ [.binary op]

/-- The value of a tree, finite or not, or the first error on the way to it. -/
def compute : Tree → Except EvalError Binary64
  | .number text => Postfix.numberValue text
  | .unary op operand => operand.compute.bind fun x => Operation.applyUnary op x
  | .binary op left right =>
    left.compute.bind fun x => right.compute.bind fun y => Operation.applyBinary op x y

/-- The value of a tree as the value of a whole expression, which has to be finite. -/
def evaluate (t : Tree) : Except EvalError Binary64 := t.compute.bind Postfix.requireFinite

end Tree

/-! ## The postfix machine on a post-order -/

/-- **A post-order puts one value on the stack**, the value of its tree, and touches nothing below
it; where the tree has an error, so has the machine, whatever follows. -/
theorem foldlM_step_postorder (t : Tree) (rest : List Token) (stack : List Binary64) :
    (t.postorder ++ rest).foldlM Postfix.step stack =
      t.compute.bind fun v => rest.foldlM Postfix.step (v :: stack) := by
  induction t generalizing rest stack with
  | number text =>
    rw [Tree.postorder, List.singleton_append, Postfix.foldlM_step_cons, Tree.compute, Postfix.step]
    cases Postfix.numberValue text <;> rfl
  | unary op operand ih =>
    rw [Tree.postorder, List.append_assoc, ih, Tree.compute]
    cases operand.compute with
    | error e => rfl
    | ok x =>
      show ([Token.unary op] ++ rest).foldlM Postfix.step (x :: stack) = _
      rw [List.singleton_append, Postfix.foldlM_step_cons, Postfix.step]
      show _ = (Operation.applyUnary op x).bind _
      cases Operation.applyUnary op x <;> rfl
  | binary op left right ihl ihr =>
    rw [Tree.postorder, List.append_assoc, List.append_assoc, ihl, Tree.compute]
    cases left.compute with
    | error e => rfl
    | ok x =>
      -- The right operand is computed on top of the value of the left one.
      show (right.postorder ++ ([Token.binary op] ++ rest)).foldlM Postfix.step (x :: stack) = _
      rw [ihr]
      cases right.compute with
      | error e => rfl
      | ok y =>
        show ([Token.binary op] ++ rest).foldlM Postfix.step (y :: x :: stack) = _
        rw [List.singleton_append, Postfix.foldlM_step_cons, Postfix.step]
        show _ = (Operation.applyBinary op x y).bind _
        cases Operation.applyBinary op x y <;> rfl

/-- The value of a post-order is the value of its tree. -/
theorem evaluate_postorder (t : Tree) : Postfix.evaluate t.postorder = t.evaluate := by
  have h := foldlM_step_postorder t [] []
  rw [List.append_nil] at h
  rw [Postfix.evaluate, h, Tree.evaluate]
  cases t.compute <;> rfl

end Reckoner.Expression
