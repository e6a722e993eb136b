import Reckoner.Decimal.Basic
/-!
# `Reckoner/Decimal/Reader.lean` — numerals

Two grammars of numerals, both in ASCII. A *literal* is what can be typed into an expression:
digits with at most one point among them, and at least one digit. A *numeral* may also carry a
sign in front and an exponent behind; it is what a display may hold and what a setting may say.
-/

set_option autoImplicit false

namespace Reckoner.Decimal

/-! ## Literals -/

/-- The text is a literal: without its first point, a non-empty run of digits is left. -/
def isLiteral (text : List Char) : Bool :=
  let digits := text.erase '.'
  !digits.isEmpty && digits.all Char.isDigit

/-- The number with the digits before and after its point. -/
def ofDigits (negative : Bool) (whole fraction : List Char) : Decimal where
  negative := negative
  coefficient := Nat.ofDigitChars 10 (whole ++ fraction) 0
  exponent := -fraction.length

/-- The number that a literal denotes. -/
def ofLiteral? (text : List Char) : Option Decimal :=
  if isLiteral text then
    some (ofDigits false (text.takeWhile Char.isDigit) ((text.dropWhile Char.isDigit).drop 1))
  else none

/-! ## Numerals -/

/-- A leading sign, taken off; no sign counts as plus. -/
def splitSign : List Char → Bool × List Char
  | '-' :: rest => (true, rest)
  | '+' :: rest => (false, rest)
  | text => (false, text)

/-- The digits after a leading point, and what follows them; without a point there are none. -/
def splitFraction : List Char → List Char × List Char
  | '.' :: rest => rest.span Char.isDigit
  | rest => ([], rest)

/-- The exponent that ends a numeral: nothing, or the letter E in either case, a sign if there is
one, and at least one digit. -/
def readExponent? : List Char → Option Int
  | [] => some 0
  | c :: rest =>
    let (negative, digits) := splitSign rest
    if (c = 'e' || c = 'E') && !digits.isEmpty && digits.all Char.isDigit then
      let size : Int := Nat.ofDigitChars 10 digits 0
      some (if negative then -size else size)
    else none

/-- The number that a numeral denotes. -/
def ofNumeral? (text : List Char) : Option Decimal :=
  let (negative, body) := splitSign text
  let (whole, afterWhole) := body.span Char.isDigit
  let (fraction, rest) := splitFraction afterWhole
  if whole.isEmpty && fraction.isEmpty then none
  else
    let d := ofDigits negative whole fraction
    (readExponent? rest).map fun exponent => { d with exponent := d.exponent + exponent }

end Reckoner.Decimal
