import Reckoner.Binary64.Arithmetic
import Reckoner.Binary64.Decimal
import Reckoner.Decimal.Layout
import Reckoner.Settings
/-!
# `Reckoner/Display.lean` — how a result is shown

A result is shown as a decimal number, rounded to as many digits as the settings say. What is
rounded is the exact binary value, and half a unit is rounded away from zero. A magnitude that is
very large or very small is shown with an exponent and a fixed number of places; every other one
is written out, without zeros at the end.
-/

set_option autoImplicit false

namespace Reckoner.Display

/-- The most significant digits that a decimal number may be rounded to. -/
def maxDigits : Nat := 999999999999999999

/-- A decimal number may be rounded to so many significant digits. -/
def isPrecision (count : Nat) : Bool := 1 ≤ count && count ≤ maxDigits

/-- The value is shown with an exponent. -/
def usesScientific (settings : Settings) (v : Binary64) : Bool :=
  settings.scientificUpper.le v.abs ||
    (Binary64.zero false).lt v.abs && v.abs.lt settings.scientificLower

/-- A finite value rounded to so many significant digits, without zeros at the end. -/
def rounded (count : Nat) (v : Binary64) : Decimal :=
  (v.toDecimal.round .awayFromZero count).strip

/-- A finite value written out. No zero is negative. -/
def plainText (count : Nat) (v : Binary64) : List Char :=
  let d := rounded count v
  if d.coefficient = 0 then ['0'] else d.positional

/-- A finite value with an exponent, and `places` digits after the point. -/
def scientificText (places : Nat) (v : Binary64) : List Char :=
  (rounded (places + 1) v).scientific places

/-- A value as the settings have it shown. -/
def text (settings : Settings) (v : Binary64) : Except Fault (List Char) :=
  if usesScientific settings v then
    if !isPrecision (settings.mantissaDigits + 1) then .error .digitsOutOfRange
    else if v.isFinite then .ok (scientificText settings.mantissaDigits v)
    else .error .infinityInScientific
  else
    if !isPrecision settings.significantDigits then .error .digitsOutOfRange
    else if v.isFinite then .ok (plainText settings.significantDigits v)
    else .error .notFinite

end Reckoner.Display
