/-!
# `Reckoner/Spelling.lean` — the spelling of expressions

An expression may be typed with the glyphs of a keypad, and a product may be written without its
sign. Both are matters of spelling, and are settled on characters before anything is read: each
glyph is replaced by the spelling that the lexer knows, and a product sign is put between two
operands that stand side by side at a parenthesis.
-/

set_option autoImplicit false

namespace Reckoner.Spelling

/-- The plain spelling of one character. -/
def expandGlyph : Char → List Char
  | '×' => ['*']
  | '÷' => ['/']
  | '√' => ['s', 'q', 'r', 't']
  | '²' => ['^', '2']
  | c => [c]

/-- The text with its glyphs spelt out. -/
def expandGlyphs (text : List Char) : List Char := text.flatMap expandGlyph

/-- The neighbours are operands without an operator between them: a digit or a closing parenthesis
before an opening one, or a closing parenthesis before a digit. -/
def isProduct (left right : Char) : Bool :=
  (left.isDigit && right = '(') || (left = ')' && (right = '(' || right.isDigit))

/-- The text with its unwritten product signs written. -/
def insertProducts : List Char → List Char
  | left :: right :: rest =>
    if isProduct left right then left :: '*' :: insertProducts (right :: rest)
    else left :: insertProducts (right :: rest)
  | text => text

/-- The spelling in which an expression is read. -/
def canonical (text : List Char) : List Char := insertProducts (expandGlyphs text)

end Reckoner.Spelling
