/-!
# `Reckoner/Token/Basic.lean` — tokens of an expression

The alphabet of the infix language after spelling: numbers as they were typed, five binary
operators, two operators that stand before their operand, and parentheses.
-/

set_option autoImplicit false

namespace Reckoner

/-- The operators between two operands. -/
inductive BinaryOp where
  | add
  | subtract
  | multiply
  | divide
  | power
deriving DecidableEq, Repr

/-- The operators in front of one operand. -/
inductive UnaryOp where
  | squareRoot
  | negate
deriving DecidableEq, Repr

/-- A token. A number keeps its text: whether it is a number at all is found out when its value
is needed. -/
inductive Token where
  | number (text : List Char)
  | binary (op : BinaryOp)
  | unary (op : UnaryOp)
  | openParen
  | closeParen
deriving DecidableEq, Repr

namespace BinaryOp

/-- The character that stands for the operator. -/
def symbol : BinaryOp → Char
  | .add => '+'
  | .subtract => '-'
  | .multiply => '*'
  | .divide => '/'
  | .power => '^'

/-- How tightly the operator binds. -/
def precedence : BinaryOp → Nat
  | .add | .subtract => 1
  | .multiply | .divide => 2
  | .power => 3

/-- The operator for which a character stands. -/
def ofChar? : Char → Option BinaryOp
  | '+' => some .add
  | '-' => some .subtract
  | '*' => some .multiply
  | '/' => some .divide
  | '^' => some .power
  | _ => none

/-- The operator for which a text stands. -/
def ofSymbol? : List Char → Option BinaryOp
  | [c] => ofChar? c
  | _ => none

@[simp] theorem ofChar?_symbol (op : BinaryOp) : ofChar? op.symbol = some op := by
  cases op <;> rfl

end BinaryOp

namespace UnaryOp

/-- The text that stands for the operator. -/
def symbol : UnaryOp → List Char
  | .squareRoot => ['s', 'q', 'r', 't']
  | .negate => ['-']

/-- How tightly the operator binds. A negation binds looser than a power. -/
def precedence : UnaryOp → Nat
  | .squareRoot => 4
  | .negate => 2

end UnaryOp

namespace Token

/-- The name of a token in a listing, where a negation is told apart from a subtraction. -/
def name : Token → List Char
  | .number text => text
  | .binary op => [op.symbol]
  | .unary .squareRoot => ['s', 'q', 'r', 't']
  | .unary .negate => ['n', 'e', 'g']
  | .openParen => ['(']
  | .closeParen => [')']

/-- The tokens by their names, with one space between neighbours. -/
def listing (tokens : List Token) : List Char :=
  [' '].intercalate (tokens.map name)

end Token

end Reckoner
