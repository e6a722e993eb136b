import Reckoner.Display
import Reckoner.Postfix.Conversion
import Reckoner.Postfix.Evaluation
import Reckoner.Spelling
import Reckoner.Token.Lexer
/-!
# `Reckoner/Evaluation.lean` — from an expression to a shown result

The whole way: spelling, tokens, postfix order, value, text. An evaluation ends in a text or in
the first error on the way; a preview, made while an expression is being typed, keeps quiet about
errors and about expressions that are plainly not finished.
-/

set_option autoImplicit false

namespace Reckoner

/-- What an evaluation ends in. -/
abbrev Outcome := Except EvalError (List Char)

namespace Evaluation

/-- The tokens of an expression in postfix order. -/
def orderedTokens (expression : List Char) : Except EvalError (List Token) :=
  (Token.read (Spelling.canonical expression)).map Postfix.ofInfix

/-- The value of an expression. -/
def value (expression : List Char) : Except EvalError Binary64 :=
  (orderedTokens expression).bind Postfix.evaluate

/-- The outcome of an expression. Nothing typed is shown as zero. -/
def evaluate (settings : Settings) (expression : List Char) : Except Fault Outcome :=
  if expression.isEmpty then .ok (.ok ['0'])
  else
    match value expression with
    | .ok v => (Display.text settings v).map .ok
    | .error e => .ok (.error e)

/-- The outcome on one line, for the user. -/
def outcomeLine : Outcome → String
  | .ok text => String.ofList text
  | .error e => e.line

/-- The characters after which something is still to come. -/
def isTrailingOperator (c : Char) : Bool := "+-*/^×÷".toList.contains c

/-- The expression ends in an operator. -/
def endsWithOperator (expression : List Char) : Bool :=
  expression.getLast?.any isTrailingOperator

/-- The text to show while the expression is being typed, if there is one. -/
def preview (settings : Settings) (expression : List Char) : Except Fault (Option (List Char)) :=
  if expression.isEmpty || endsWithOperator expression then .ok none
  else (evaluate settings expression).map fun outcome => outcome.toOption

/-! ## Expressions of any type -/

/-- The outcome of an expression from a loosely typed source; only a text can have a value. -/
def evaluateRaw (settings : Settings) : RawValue → Except Fault Outcome
  | .text expression => evaluate settings expression
  | other => .ok (.error (.notText other.typeName))

/-- The preview of an expression from a loosely typed source. -/
def previewRaw (settings : Settings) : RawValue → Except Fault (Option (List Char))
  | .text expression => preview settings expression
  | _ => .ok none

end Evaluation

end Reckoner
