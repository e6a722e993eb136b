import Reckoner.Error
import Reckoner.Token.Basic
/-!
# `Reckoner/Token/Lexer.lean` — from characters to tokens

One pass from left to right. Digits and points run together to numbers, four letters make the
square root, and every other token is one character. A minus sign is a negation where an operand
is due: at the start, after an operator and after an opening parenthesis.

The pass carries two things along: whether an operand is due, and the index of the next character,
which is what an error reports. Recursion is on the text itself; a number grows at its front, since
the character before a number that starts with a digit or a point belongs to it.
-/

set_option autoImplicit false

namespace Reckoner.Token

/-- A digit or a point. -/
def isNumberChar (c : Char) : Bool := c.isDigit || c = '.'

/-- A character put before the tokens of what follows it: a number there takes it in. -/
def extendNumber (c : Char) : List Token → List Token
  | .number text :: tokens => .number (c :: text) :: tokens
  | tokens => .number [c] :: tokens

/-- The token of one character that is not part of a number. -/
def ofChar? (operandDue : Bool) (c : Char) : Option Token :=
  if c = '-' && operandDue then some (.unary .negate)
  else if c = '(' then some .openParen
  else if c = ')' then some .closeParen
  else (BinaryOp.ofChar? c).map .binary

/-- After this token, an operand is due. -/
def expectsOperand : Token → Bool
  | .binary _ | .unary _ | .openParen => true
  | .number _ | .closeParen => false

/-- The tokens of a text that starts at the given index. -/
def readFrom (operandDue : Bool) (index : Nat) : List Char → Except EvalError (List Token)
  | [] => .ok []
  | 's' :: 'q' :: 'r' :: 't' :: rest =>
    (readFrom true (index + 4) rest).map (.unary .squareRoot :: ·)
  | c :: rest =>
    if isNumberChar c then (readFrom false (index + 1) rest).map (extendNumber c)
    else
      match ofChar? operandDue c with
      | some token => (readFrom token.expectsOperand (index + 1) rest).map (token :: ·)
      | none => .error (.unexpectedCharacter c index)

/-- The tokens of a text, or the first character that starts none. -/
def read (text : List Char) : Except EvalError (List Token) := readFrom true 0 text

end Reckoner.Token
