import Reckoner.Evaluation
/-!
# `Reckoner/Keypad/State.lean` — a calculator with a display

What a handheld calculator remembers between two presses of a key: the expression typed so far,
the text on the display, whether that text is a result that has been asked for, the error that
stopped the last calculation, and the calculations that succeeded.

That a calculation has failed is a flag of its own, beside the error that it failed with. The keys
ask for the flag alone; that the two agree, and agree with the display, is proved of every state
that is reached (`Proofs/Keypad/Consistency.lean`).
-/

set_option autoImplicit false

namespace Reckoner.Keypad

/-- A calculation that succeeded. -/
structure Entry where
  expression : List Char
  result : List Char
deriving DecidableEq, Repr

/-- The entry on one line. -/
def Entry.line (e : Entry) : String :=
  String.ofList e.expression ++ " = " ++ String.ofList e.result

/-- What the calculator remembers. -/
structure State where
  expression : List Char
  display : List Char
  /-- The display shows a result, and a key that types continues from it or starts anew. -/
  showsResult : Bool
  /-- The last calculation has failed. -/
  hasError : Bool
  error : Option EvalError
  /-- The calculations that succeeded, the oldest first. -/
  history : List Entry
deriving DecidableEq

namespace State

/-- The display of a calculator that is switched on. -/
def blankDisplay : List Char := ['0']

/-- The display of a calculator in error. -/
def errorDisplay : List Char := "Error".toList

/-- Nothing typed, zero on the display, no error, and the given history. -/
def cleared (history : List Entry) : State := ⟨[], blankDisplay, false, false, none, history⟩

/-- The calculator when it is switched on. -/
def initial : State := cleared []

/-- The state as a developer sees it. -/
def description (s : State) : String :=
  "KeypadSession(expression=" ++ EvalError.quote s.expression ++ ", display=" ++
    EvalError.quote s.display ++ ", history_len=" ++ toString s.history.length ++ ")"

end State

end Reckoner.Keypad
