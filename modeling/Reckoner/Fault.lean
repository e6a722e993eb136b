import Reckoner.Error
/-!
# `Reckoner/Fault.lean` — when there is no answer at all

A fault is not an answer about an expression: the request itself cannot be met. The settings ask
for what cannot be done, a key is pressed that the keypad does not have, or a number is to be
shown or typed that has no text. The calculator does not recover from a fault by itself; what was
done before it stays done.
-/

set_option autoImplicit false

namespace Reckoner

/-- Why a request cannot be met. -/
inductive Fault where
  /-- No significant digit is asked for, or more than a decimal number may have. -/
  | digitsOutOfRange
  /-- An infinity is to be shown with an exponent. -/
  | infinityInScientific
  /-- Not a number, or an infinity, is to be shown without an exponent. -/
  | notFinite
  /-- A shown text with an exponent is no decimal number. -/
  | notDecimal
  /-- A shown text has an exponent that is too large to write the number out. -/
  | exponentTooLarge
  /-- The value of a setting is no number; with the setting's name and the value as written. -/
  | invalidSetting (name : String) (value : List Char)
  /-- A setting is too large a number. -/
  | settingTooLarge
  /-- A digit key with a label that is no digit. -/
  | notADigit (label : List Char)
  /-- An operator key with a label that is no operator of the keypad. -/
  | notAnOperator (label : List Char)
deriving DecidableEq, Repr

/-- The message of a fault, for those that have one. -/
def Fault.message? : Fault → Option String
  | .invalidSetting name value =>
    some ("Invalid value for " ++ EvalError.quote name.toList ++ ": " ++ String.ofList value)
  | .notADigit label => some ("Not a digit: " ++ EvalError.quote label)
  | .notAnOperator label => some ("Not a keypad operator: " ++ EvalError.quote label)
  | _ => none

end Reckoner
