import Reckoner.Binary64.Shortest
import Reckoner.Text.Quoted
/-!
# `Reckoner/RawValue.lean` — loosely typed values

Settings and expressions may come from a source that has types of its own: a text, a number, a
list. Such a value is taken as it comes; a message that blames one names its type or shows it as
it would be written down.

The types are those of a notation for data. A source may have more: strings of bytes, from which it
reads numbers as from texts, or types that a program defines. These are left out. And a source may
refuse to write down an integer of very many digits (more than 4300, say), and so a list that holds
one. Here every value can be written down.
-/

set_option autoImplicit false

namespace Reckoner

/-- A value from a loosely typed source. An object keeps the order of its entries. -/
inductive RawValue where
  | null
  | bool (b : Bool)
  | int (n : Int)
  | float (v : Binary64)
  | text (t : List Char)
  | list (items : List RawValue)
  | object (entries : List (List Char × RawValue))
deriving Inhabited

namespace RawValue

/-- The name of the value's type. -/
def typeName : RawValue → String
  | .null => "NoneType"
  | .bool _ => "bool"
  | .int _ => "int"
  | .float _ => "float"
  | .text _ => "str"
  | .list _ => "list"
  | .object _ => "dict"

/-- An integer in decimal digits. -/
def intText (n : Int) : List Char :=
  (if n < 0 then ['-'] else []) ++ Nat.toDigits 10 n.natAbs

mutual

/-- The value as it is written down. No integer is too long for that. -/
def literal : RawValue → List Char
  | .null => "None".toList
  | .bool b => if b then "True".toList else "False".toList
  | .int n => intText n
  | .float v => v.text
  | .text t => Text.quoted t
  | .list items => '[' :: literals items ++ [']']
  | .object entries => '\x7b' :: literalEntries entries ++ ['\x7d']

/-- Values with commas between them. -/
def literals : List RawValue → List Char
  | [] => []
  | [item] => item.literal
  | item :: rest => item.literal ++ ", ".toList ++ literals rest

/-- Entries with commas between them. -/
def literalEntries : List (List Char × RawValue) → List Char
  | [] => []
  | [(name, item)] => Text.quoted name ++ ": ".toList ++ item.literal
  | (name, item) :: rest =>
    Text.quoted name ++ ": ".toList ++ item.literal ++ ", ".toList ++ literalEntries rest

end

end RawValue

end Reckoner
