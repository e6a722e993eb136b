import Reckoner.Main
import Reckoner.Keypad.Press
import Reckoner.Proofs.Expression.Climbing
import Reckoner.Proofs.Expression.Parentheses
import Reckoner.Proofs.Binary64.Nearest
import Reckoner.Proofs.Expression.WellFormed
import Reckoner.Proofs.Decimal.Significant
import Reckoner.Proofs.Binary64.Decimal
import Reckoner.Proofs.Decimal.Reading
import Reckoner.Proofs.Display.Text
import Reckoner.Proofs.Display.RoundTrip
import Reckoner.Proofs.Binary64.Root
import Reckoner.Proofs.Keypad.Move
import Reckoner.Proofs.Keypad.Effect
import Reckoner.Proofs.Keypad.Results
import Reckoner.Proofs.Token.Square
import Reckoner.Proofs.Token.Alphabet
import Reckoner.Proofs.Binary64.SevenDigits
import Reckoner.Proofs.Display.Operand
import Reckoner.Proofs.Display.Stability
import Reckoner.Proofs.Keypad.Consistency
import Reckoner.Proofs.Keypad.Faults
import Reckoner.Proofs.Keypad.History
import Reckoner.Proofs.Keypad.Freshness
import Reckoner.Proofs.Keypad.WellTyped
import Reckoner.Proofs.Decimal.Literal
import Reckoner.Proofs.Guards
import Reckoner.Proofs.Totality
import Reckoner.Proofs.Token.Rendering
import Reckoner.Proofs.Unreadable
import Reckoner.Proofs.Decimal.Tidy
import Reckoner.Proofs.Display.Typed
import Reckoner.Proofs.Rounding.Closest
import Reckoner.Proofs.Display.Closest
import Reckoner.Proofs.Keypad.Percent
import Reckoner.Proofs.Dialogue.Answers
import Reckoner.Proofs.Dialogue.Editing
import Reckoner.Proofs.Keypad.Continuation
import Reckoner.Proofs.Dialogue.Splicing
import Reckoner.Proofs.Binary64.Overflow
import Reckoner.Proofs.Settings
import Reckoner.Proofs.Display.Denotation
import Reckoner.Proofs.Display.Range
import Reckoner.Proofs.Keypad.Range
import Reckoner.Proofs.Display.Order
import Reckoner.Proofs.Spelling.NormalForm
import Reckoner.Proofs.Keypad.Point
import Reckoner.Proofs.Keypad.Leading
import Reckoner.Proofs.Expression.Postorder
import Reckoner.Proofs.Postfix.Order
import Reckoner.Proofs.Binary64.Power
import Reckoner.Proofs.Display.Canonical
import Reckoner.Proofs.Postfix.Number
