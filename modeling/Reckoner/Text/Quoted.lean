import Reckoner.Text.Printable
/-!
# `Reckoner/Text/Quoted.lean` — quoted text in messages

A message that blames a text shows it between quotes, on one line and in printable characters.
Single quotes are used unless the text holds a single quote and no double quote. The backslash,
the chosen quote and the three common controls are written with a backslash and one character;
any other character that is not printable is written by its code in two, four or eight
hexadecimal digits, whichever is the shortest that holds it.
-/

set_option autoImplicit false

namespace Reckoner.Text

/-- The digits of `n` in lower-case hexadecimal, filled up with zeros to `width`. -/
def hexDigits (width n : Nat) : List Char :=
  let digits := Nat.toDigits 16 n
  List.replicate (width - digits.length) '0' ++ digits

/-- The character as its code. -/
def escapeCode (c : Char) : List Char :=
  if c.toNat ≤ 0xFF then '\\' :: 'x' :: hexDigits 2 c.toNat
  else if c.toNat ≤ 0xFFFF then '\\' :: 'u' :: hexDigits 4 c.toNat
  else '\\' :: 'U' :: hexDigits 8 c.toNat

/-- The quote that encloses the text. -/
def quoteFor (text : List Char) : Char :=
  if text.contains '\'' && !text.contains '"' then '"' else '\''

/-- One character as it stands between the given quotes. -/
def escape (quote c : Char) : List Char :=
  if c = quote || c = '\\' then ['\\', c]
  else if c = '\n' then ['\\', 'n']
  else if c = '\r' then ['\\', 'r']
  else if c = '\t' then ['\\', 't']
  else if isPrintable c then [c]
  else escapeCode c

/-- The text between quotes. -/
def quoted (text : List Char) : List Char :=
  let quote := quoteFor text
  quote :: text.flatMap (escape quote) ++ [quote]

end Reckoner.Text
