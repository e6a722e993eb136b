import Reckoner.Binary64.Shortest
import Reckoner.Text.Quoted
/-!
# `Reckoner/Error.lean` — why an expression has no value

An expression that has no value has a reason, and the reason carries what it blames: a character
and its place, a text, a number. Reasons fall into six kinds, which is what the user sees first;
the message behind the kind is written in one place, `EvalError.message`.

**Errors are answers.** They are results of a calculation like any value. The cases in which no
answer of either sort comes about are faults, and have a type of their own (`Reckoner/Fault.lean`).
-/

set_option autoImplicit false

namespace Reckoner

/-- The six kinds of reasons. -/
inductive ErrorKind where
  | lexical
  | invalidExpression
  | divisionByZero
  | negativeSquareRoot
  | notANumber
  | infinity
deriving DecidableEq, Repr

/-- The name of the kind, as it is shown. -/
def ErrorKind.name : ErrorKind → String
  | .lexical => "lexical error"
  | .invalidExpression => "invalid expression"
  | .divisionByZero => "division by zero"
  | .negativeSquareRoot => "negative square root"
  | .notANumber => "not a number"
  | .infinity => "infinity"

/-- Why an expression has no value. -/
inductive EvalError where
  /-- A character that starts no token, with its index in the text that is read. -/
  | unexpectedCharacter (character : Char) (index : Nat)
  /-- A run of digits and points that is no number. -/
  | malformedNumber (text : List Char)
  /-- An operator that finds too few operands. -/
  | missingOperand (symbol : List Char)
  /-- A token that has no place in postfix order. -/
  | unexpectedToken (text : List Char)
  /-- An end with no value, or with several. -/
  | leftover (count : Nat)
  /-- A shown text that is taken for a number and is none. -/
  | unreadableDisplay (text : List Char)
  /-- An expression that is no text, with the name of what it is. -/
  | notText (found : String)
  | divisionByZero (dividend : Binary64)
  | negativeSquareRoot (operand : Binary64)
  | notANumber
  | infinite (value : Binary64)
deriving DecidableEq

namespace EvalError

/-- The kind of a reason. -/
def kind : EvalError → ErrorKind
  | .unexpectedCharacter .. => .lexical
  | .divisionByZero _ => .divisionByZero
  | .negativeSquareRoot _ => .negativeSquareRoot
  | .notANumber => .notANumber
  | .infinite _ => .infinity
  | _ => .invalidExpression

/-- A text between quotes. -/
def quote (text : List Char) : String := String.ofList (Text.quoted text)

/-- A number as it stands in a message. -/
def number (v : Binary64) : String := String.ofList v.text

/-- The message: what is wrong, and with what. -/
def message : EvalError → String
  | .unexpectedCharacter character index =>
    "Unexpected character at index " ++ toString index ++ ": " ++ quote [character]
  | .malformedNumber text => "Malformed number: " ++ quote text
  | .missingOperand symbol => "Missing operand for " ++ quote symbol
  | .unexpectedToken text => "Unexpected token in postfix sequence: " ++ quote text
  | .leftover count => "Expression reduces to " ++ toString count ++ " values"
  | .unreadableDisplay text => "Not a number: " ++ quote text
  | .notText found => "Expected text, got " ++ found
  | .divisionByZero dividend => "Division by zero: " ++ number dividend
  | .negativeSquareRoot operand => "Square root of a negative number: " ++ number operand
  | .notANumber => "Result is not a number"
  | .infinite value => "Result is infinite: " ++ number value

/-- The kind and the message, on one line. -/
def line (e : EvalError) : String := e.kind.name ++ ": " ++ e.message

end EvalError

end Reckoner
