/-!
# `Reckoner/Text/Blank.lean` — white space

The characters that separate words: the Unicode white space characters, and the four information
separators U+001C to U+001F, which count as blanks in typed text. Zero-width characters do not.
-/

set_option autoImplicit false

namespace Reckoner.Text

/-- Closed ranges of code points, ascending and apart. -/
def blankRanges : List (Nat × Nat) :=
  [(0x09, 0x0D), (0x1C, 0x20), (0x85, 0x85), (0xA0, 0xA0), (0x1680, 0x1680), (0x2000, 0x200A),
   (0x2028, 0x2029), (0x202F, 0x202F), (0x205F, 0x205F), (0x3000, 0x3000)]

/-- The code point lies in one of the ranges. -/
def inRanges (ranges : List (Nat × Nat)) (n : Nat) : Bool :=
  ranges.any fun r => decide (r.1 ≤ n) && decide (n ≤ r.2)

/-- White space of any script. -/
def isBlank (c : Char) : Bool := inRanges blankRanges c.toNat

/-- The ASCII blanks that may surround a number: tab, the line ends, and space. The information
separators are not among them. -/
def isAsciiBlank (c : Char) : Bool :=
  c = ' ' || decide (0x09 ≤ c.toNat) && decide (c.toNat ≤ 0x0D)

/-- A text without the leading and trailing characters of a class. -/
def trim (blank : Char → Bool) (text : List Char) : List Char :=
  ((text.dropWhile blank).reverse.dropWhile blank).reverse

end Reckoner.Text
