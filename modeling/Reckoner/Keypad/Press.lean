import Reckoner.Keypad.State
import Reckoner.Operand
import Reckoner.Binary64.Numeral
/-!
# `Reckoner/Keypad/Press.lean` — what the keys do

Each key edits the expression, or calculates. After an edit the display is refreshed with a preview
of the new expression, if there is one that differs from the expression itself.

A press gives a new state and, possibly, a fault. **A fault undoes nothing:** if the preview of an
edited expression fails, the edit stands; if a key fails before it has changed anything, the state
is what it was. The keys that type a digit, a point or a parenthesis leave an error behind; those
that work on what is there do nothing in error.
-/

set_option autoImplicit false

namespace Reckoner.Keypad

/-- The keys. The labels of digits and operators are texts, not all of which the keypad has. -/
inductive Key where
  | digit (label : List Char)
  | point
  | operator (label : List Char)
  | percent
  | squareRoot
  | square
  | parentheses
  | clear
  | delete
  | equals
deriving DecidableEq, Repr

/-- The state after a press, and the fault that stopped it, if one did. -/
abbrev Pressed := State × Option Fault

namespace State

/-! ## Steps that keys share -/

/-- The press is over. -/
def done (s : State) : Pressed := (s, none)

/-- The rest of a press on a state that can be faulty to get; a fault leaves the old state. -/
def andThen (s : State) (next : Except Fault State) (rest : State → Pressed) : Pressed :=
  match next with
  | .ok s => rest s
  | .error fault => (s, some fault)

/-- The display refreshed with a preview of the expression. In error, and while a result is shown,
the display stays. -/
def refresh (settings : Settings) (s : State) : Pressed :=
  if s.hasError || s.showsResult || s.expression.isEmpty then s.done
  else
    match Evaluation.preview settings s.expression with
    | .ok (some text) => (if text = s.expression then s else { s with display := text }).done
    | .ok none => s.done
    | .error fault => (s, some fault)

/-- The expression replaced, and the display refreshed. -/
def edit (settings : Settings) (s : State) (expression : List Char) : Pressed :=
  { s with expression }.refresh settings

/-- The expression with more typed after it. -/
def type (settings : Settings) (s : State) (text : List Char) : Pressed :=
  s.edit settings (s.expression ++ text)

/-- The state after a calculation that failed. -/
def fail (s : State) (e : EvalError) : State :=
  { s with hasError := true, error := some e, display := errorDisplay }

/-- A state in error cleared. -/
def recover (s : State) : State := if s.hasError then cleared s.history else s

/-- A shown result put aside, with the given expression in its place. -/
def startWith (s : State) (expression : List Char) : State :=
  if s.showsResult then { s with expression, showsResult := false } else s

/-- A shown result taken over into the expression as an operand. -/
def continueResult (s : State) (groupNegative : Bool) : Except Fault State :=
  if s.showsResult then
    (Operand.ofDisplay groupNegative s.display).map fun operand =>
      { s with expression := operand, showsResult := false }
  else .ok s

/-- The given number shown as a result, and taken for the expression. -/
def showNumber (settings : Settings) (s : State) (v : Binary64) : Except Fault State :=
  (Display.text settings v).map fun text =>
    { s with expression := text, display := text, showsResult := true }

/-! ## The expression -/

/-- The operators as they stand in an expression. -/
def isOperatorGlyph (c : Char) : Bool := "+-*/^×÷".toList.contains c

/-- The operators that end a number on the keypad. -/
def endsNumber (c : Char) : Bool := "+-×÷".toList.contains c

/-- The expression ends in an operator. -/
def endsWithOperator (s : State) : Bool := s.expression.getLast?.any isOperatorGlyph

/-- What has been typed since the last operator of the keypad. -/
def currentNumber (s : State) : List Char :=
  (s.expression.reverse.takeWhile fun c => !endsNumber c).reverse

/-! ## Keys that type -/

/-- The digit that a label stands for. -/
def digitOfLabel? : List Char → Option Char
  | [c] => if c.isDigit then some c else none
  | _ => none

/-- The glyph that an operator label stands for. -/
def glyphOfLabel? : List Char → Option Char
  | ['+'] => some '+'
  | ['-'] => some '-'
  | ['*'] | ['×'] => some '×'
  | ['/'] | ['÷'] => some '÷'
  | _ => none

/-- A digit starts a new expression after a result. -/
def pressDigit (settings : Settings) (s : State) (label : List Char) : Pressed :=
  match digitOfLabel? label with
  | some c => (s.recover.startWith []).type settings [c]
  | none => (s, some (.notADigit label))

/-- A point is typed once in a number, and starts a number with a zero. -/
def pressPoint (settings : Settings) (s : State) : Pressed :=
  let s := s.recover.startWith ['0']
  if s.currentNumber.contains '.' then s.done
  else if s.currentNumber.isEmpty || s.endsWithOperator then s.type settings ['0', '.']
  else s.type settings ['.']

/-- An operator continues a result, and replaces an operator just typed. Only a minus can start an
expression. -/
def pressOperator (settings : Settings) (s : State) (label : List Char) : Pressed :=
  match glyphOfLabel? label with
  | none => (s, some (.notAnOperator label))
  | some glyph =>
    if s.hasError then s.done
    else
      s.andThen (s.continueResult true) fun s =>
        if s.expression.isEmpty then
          if glyph = '-' then s.edit settings ['-'] else s.done
        else
          let start := if s.endsWithOperator then s.expression.dropLast else s.expression
          s.edit settings (start ++ [glyph])

/-- A square applies to what stands before it. -/
def pressSquare (settings : Settings) (s : State) : Pressed :=
  if s.hasError then s.done
  else
    s.andThen (s.continueResult true) fun s =>
      if s.expression.isEmpty then s.done else s.type settings ['²']

/-- A parenthesis opens where an operand is due, closes an open group, and else opens a factor. -/
def pressParentheses (settings : Settings) (s : State) : Pressed :=
  let s := s.recover.startWith []
  if s.expression.isEmpty || s.endsWithOperator || s.expression.getLast? = some '(' then
    s.type settings ['(']
  else if s.expression.count ')' < s.expression.count '(' then s.type settings [')']
  else s.type settings ['×', '(']

/-- The last character goes; in error, everything does. -/
def pressDelete (settings : Settings) (s : State) : Pressed :=
  if s.hasError then (cleared s.history).done
  else s.andThen (s.continueResult false) fun s => s.edit settings s.expression.dropLast

/-! ## Keys that calculate -/

/-- The number on the display, or the error that there is none. -/
def displayedNumber (s : State) : Except EvalError Binary64 :=
  match Binary64.ofText? s.display with
  | some v => .ok v
  | none => .error (.unreadableDisplay s.display)

/-- The text divided by a hundred, as a number. -/
def hundredth (text : List Char) : Binary64 :=
  ((Binary64.ofText? text).getD .nan).div (.ofDecimal ⟨false, 100, 0⟩)

/-- The percent key divides the shown result of the expression by a hundred. -/
def pressPercent (settings : Settings) (s : State) : Pressed :=
  if s.hasError || s.expression.isEmpty then s.done
  else
    match Evaluation.evaluate settings s.expression with
    | .error fault => (s, some fault)
    | .ok (.error e) => (s.fail e).done
    | .ok (.ok text) => s.andThen (s.showNumber settings (hundredth text)) done

/-- The root key takes the root of a shown result, and else starts a root. -/
def pressSquareRoot (settings : Settings) (s : State) : Pressed :=
  if s.hasError then s.done
  else if s.showsResult && !s.expression.isEmpty then
    match s.displayedNumber.bind Operation.squareRoot with
    | .ok v => s.andThen (s.showNumber settings v) done
    | .error e => (s.fail e).done
  else s.type settings ['√', '(']

/-- The state after a calculation that succeeded, which is recorded. -/
def commit (s : State) (text : List Char) : State :=
  { s with
    display := text
    showsResult := true
    hasError := false
    error := none
    history := s.history ++ [⟨s.expression, text⟩] }

/-- The equals key calculates, also in error. -/
def pressEquals (settings : Settings) (s : State) : Pressed :=
  if s.expression.isEmpty then s.done
  else
    match Evaluation.evaluate settings s.expression with
    | .error fault => (s, some fault)
    | .ok (.error e) => (s.fail e).done
    | .ok (.ok text) => (s.commit text).done

/-! ## All keys -/

/-- The state after a key has been pressed. -/
def press (settings : Settings) (s : State) : Key → Pressed
  | .digit label => s.pressDigit settings label
  | .point => s.pressPoint settings
  | .operator label => s.pressOperator settings label
  | .percent => s.pressPercent settings
  | .squareRoot => s.pressSquareRoot settings
  | .square => s.pressSquare settings
  | .parentheses => s.pressParentheses settings
  | .clear => (cleared s.history).done
  | .delete => s.pressDelete settings
  | .equals => s.pressEquals settings

/-- The state after a run of keys, each pressed whatever became of the one before. -/
def pressAll (settings : Settings) (s : State) (keys : List Key) : State :=
  keys.foldl (fun s key => (s.press settings key).1) s

end State

end Reckoner.Keypad
