import Reckoner.Evaluation
/-!
# `Reckoner/Log.lean` — log lines

What a verbose run reports about an evaluation: the tokens in postfix order as soon as there are
any, and then how the evaluation ended. The lines carry no time; a program that prints them adds
its own.
-/

set_option autoImplicit false

namespace Reckoner.Log

/-- A line of the given part of the calculator. -/
def line (part message : String) : String := "DEBUG [infixcalc." ++ part ++ "] " ++ message

/-- The line of a conversion to postfix order, if the expression gets that far. -/
def conversion (expression : List Char) : List String :=
  if expression.isEmpty then []
  else
    match Evaluation.orderedTokens expression with
    | .ok tokens => [line "parser" ("postfix: " ++ String.ofList (Token.listing tokens))]
    | .error _ => []

/-- The line of an evaluation's end; a fault leaves none. -/
def ending (settings : Settings) (expression : List Char) : List String :=
  let start := "evaluate " ++ EvalError.quote expression
  match Evaluation.evaluate settings expression with
  | .ok (.ok text) => [line "engine" (start ++ " -> " ++ String.ofList text)]
  | .ok (.error e) => [line "engine" (start ++ " failed with " ++ e.line)]
  | .error _ => []

/-- The lines of an evaluation. -/
def evaluation (settings : Settings) (expression : List Char) : List String :=
  conversion expression ++ ending settings expression

/-- The line of a preview's failure. -/
def missedPreview (settings : Settings) (expression : List Char) : List String :=
  match Evaluation.evaluate settings expression with
  | .ok (.error e) =>
    [line "engine" ("no preview for " ++ EvalError.quote expression ++ ": " ++ e.kind.name)]
  | _ => []

/-- The lines of a preview; an expression that is not evaluated leaves none. -/
def preview (settings : Settings) (expression : List Char) : List String :=
  if expression.isEmpty || Evaluation.endsWithOperator expression then []
  else conversion expression ++ missedPreview settings expression

end Reckoner.Log
