import Reckoner.Decimal.Layout
import Reckoner.Decimal.Reader
import Reckoner.Fault
import Reckoner.Text.Blank
import Reckoner.Text.DecimalDigit
/-!
# `Reckoner/Operand.lean` — a shown result as an operand

A result that is shown can be used again: its text is put in front of what is typed next. For that
it has to be spelt as an operand. An exponent is unknown to the language of expressions, so the
number is written out; and a negative number is put in parentheses, so that what follows applies
to the whole of it.

The text with an exponent may be any text, since a display can be set from outside. It is read in a
free form, rounded to 28 digits like any decimal result, and refused if its exponent is out of
bounds.
-/

set_option autoImplicit false

namespace Reckoner.Operand

/-! ## Reading a text with an exponent -/

/-- The largest exponent of a leading digit that can be read. -/
def readingLimit : Int := 999999999999999999

/-- The exponent of the number is within the bounds of reading. Of a zero, the exponent of the
last digit counts. -/
def isReadable (d : Decimal) : Bool :=
  if d.coefficient = 0 then
    d.exponent ≤ readingLimit && -(2 * readingLimit - 1) ≤ d.exponent
  else
    d.leadingExponent ≤ readingLimit &&
      (-readingLimit ≤ d.leadingExponent || -(2 * readingLimit - 1) ≤ d.exponent)

/-- The decimal number that a text denotes in free form: blanks around it and underscores anywhere
do not count, and digits may be of any script. -/
def readDecimal? (text : List Char) : Option Decimal :=
  let plain := ((Text.trim Text.isBlank text).filter (· ≠ '_')).map Text.toAsciiDigit
  (Decimal.ofNumeral? plain).filter isReadable

/-! ## Writing it out -/

/-- The digits of a decimal result. -/
def precision : Nat := 28

/-- The largest exponent of the leading digit of a decimal result. -/
def maxExponent : Int := 999999

/-- The least exponent of the last digit of a decimal result. -/
def leastExponent : Int := -1000026

/-- The number rounded to the digits that a decimal result may have: 28 of them, and none below
the least exponent. A number that ends below all of its digits is rounded to zero. -/
def roundedResult (d : Decimal) : Decimal :=
  let excess := max (d.digits.length - precision : Nat) (leastExponent - d.exponent).toNat
  if excess = 0 then d
  else if d.digits.length < excess then { d with coefficient := 0 }
  else d.dropDigits .toEven excess

/-- The number written out, as a decimal result. -/
def writtenOut (d : Decimal) : Except Fault (List Char) :=
  let result := (roundedResult d).strip
  if result.coefficient ≠ 0 ∧ maxExponent < result.leadingExponent then .error .exponentTooLarge
  else .ok result.positional

/-! ## Operands -/

/-- The text without an exponent. -/
def expand (text : List Char) : Except Fault (List Char) :=
  if text.contains 'E' then
    match readDecimal? text with
    | some d => writtenOut d
    | none => .error .notDecimal
  else .ok text

/-- A negative number in parentheses. -/
def group (text : List Char) : List Char :=
  if text.head? = some '-' then '(' :: text ++ [')'] else text

/-- A shown text spelt as an operand; a negative one is grouped if that is asked for. -/
def ofDisplay (groupNegative : Bool) (text : List Char) : Except Fault (List Char) :=
  (expand text).map fun plain => if groupNegative then group plain else plain

end Reckoner.Operand
