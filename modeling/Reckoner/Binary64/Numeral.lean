import Reckoner.Binary64.Decimal
import Reckoner.Decimal.Reader
import Reckoner.Text.Blank
import Reckoner.Text.DecimalDigit
/-!
# `Reckoner/Binary64/Numeral.lean` — values from free text

A setting or a display may hold a number in a freer form than a numeral: with blanks around it,
with single underscores between digits, with the digits of any script, or spelt as infinity or
not a number. This file takes such a text to a plain numeral and that to its nearest value.
-/

set_option autoImplicit false

namespace Reckoner.Binary64

/-- A character in plain form: an ASCII digit for a digit of any script, a space for a blank
beyond ASCII. -/
def plainChar (c : Char) : Char :=
  if 0x7F < c.toNat && Text.isBlank c then ' ' else Text.toAsciiDigit c

/-- The text without its underscores, each of which has to stand between two digits. The first
argument is the character before the text. -/
def dropUnderscores? : Char → List Char → Option (List Char)
  | _, [] => some []
  | before, c :: rest =>
    if c = '_' then
      if before.isDigit && (rest.head?.any Char.isDigit) then dropUnderscores? c rest else none
    else (dropUnderscores? c rest).map (c :: ·)

/-- The values that are spelt out, in lower case. -/
def ofName? (negative : Bool) (name : List Char) : Option Binary64 :=
  if name = "inf".toList || name = "infinity".toList then some (.infinity negative)
  else if name = "nan".toList then some .nan
  else none

/-- The value that a text denotes, if it is a number in free form. -/
def ofText? (text : List Char) : Option Binary64 :=
  (dropUnderscores? ' ' (Text.trim Text.isAsciiBlank (text.map plainChar))).bind fun plain =>
    match Decimal.ofNumeral? plain with
    | some d => some (ofDecimal d)
    | none =>
      let (negative, name) := Decimal.splitSign plain
      ofName? negative (name.map Char.toLower)

end Reckoner.Binary64
