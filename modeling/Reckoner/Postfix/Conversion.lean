import Reckoner.Token.Basic
/-!
# `Reckoner/Postfix/Conversion.lean` — from infix to postfix order

Numbers keep their order, and each operator is moved behind its operands. Operators whose operands
are not complete wait on a stack, on which an opening parenthesis separates the operators of a
group from those around it.

**The conversion refuses nothing.** An expression is converted while it is being typed, so a group
that is not closed ends with the text, and a closing parenthesis without a group is passed over.
Whether the result makes sense is found out by evaluating it.
-/

set_option autoImplicit false

namespace Reckoner.Postfix

/-- What waits on the stack. -/
inductive Pending where
  | binary (op : BinaryOp)
  | unary (op : UnaryOp)
  | group
deriving DecidableEq, Repr

namespace Pending

/-- The token of a waiting operator; the start of a group leaves none. -/
def token? : Pending → Option Token
  | .binary op => some (.binary op)
  | .unary op => some (.unary op)
  | .group => none

/-- The entry is an operator of the innermost group. -/
def isOperator : Pending → Bool
  | .group => false
  | _ => true

/-- The waiting operator has its operands when the given one arrives: it binds at least as
tightly, and no group has been opened since. -/
def completedBy (arriving : BinaryOp) : Pending → Bool
  | .binary op => arriving.precedence ≤ op.precedence
  | .unary op => arriving.precedence ≤ op.precedence
  | .group => false

end Pending

/-- The tokens of waiting operators, the innermost first. -/
def release (stack : List Pending) : List Token := stack.filterMap Pending.token?

/-- The stack below a group that is closed, and the square root that was waiting for the group. -/
def leaveGroup : List Pending → List Token × List Pending
  | .group :: .unary .squareRoot :: stack => ([.unary .squareRoot], stack)
  | .group :: stack => ([], stack)
  | stack => ([], stack)

/-- The postfix order of the tokens, while the operators on the stack wait. -/
def convertWith (stack : List Pending) : List Token → List Token
  | [] => release stack
  | .number text :: rest => .number text :: convertWith stack rest
  | .unary op :: rest => convertWith (.unary op :: stack) rest
  | .binary op :: rest =>
    release (stack.takeWhile (·.completedBy op)) ++
      convertWith (.binary op :: stack.dropWhile (·.completedBy op)) rest
  | .openParen :: rest => convertWith (.group :: stack) rest
  | .closeParen :: rest =>
    let (root, outer) := leaveGroup (stack.dropWhile (·.isOperator))
    release (stack.takeWhile (·.isOperator)) ++ root ++ convertWith outer rest

/-- The tokens of an infix expression in postfix order. -/
def ofInfix (tokens : List Token) : List Token := convertWith [] tokens

end Reckoner.Postfix
