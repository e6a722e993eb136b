import Reckoner.Binary64.Decimal
import Reckoner.Decimal.Layout
/-!
# `Reckoner/Binary64/Shortest.lean` — the fewest digits that read back

A value in a message is written with the fewest significant digits that read back to it, and of
those with the digits nearest to it; an exact tie goes to the even last digit. Seventeen digits
are always enough. The text is positional while the leading digit has an exponent from -4 to 15,
and then always has a point; outside it is scientific, without a point if there is one digit.
-/

set_option autoImplicit false

namespace Reckoner.Binary64

/-- A decimal of at most `count` significant digits that reads back to the given finite value: of
the two such decimals around it the nearer one that does. -/
def readingBack? (v : Binary64) (count : Nat) : Option Decimal :=
  let unit := floorLog 10 v.magnitude + 1 - count
  let scaled := v.magnitude / (10 : Rat) ^ unit
  let nearer := roundNat .toEven scaled
  let below := scaled.floor.toNat
  let other := if nearer = below then below + 1 else below
  let candidate (coefficient : Nat) : Decimal := ⟨v.isNegative, coefficient, unit⟩
  [candidate nearer, candidate other].find? fun d => ofDecimal d = v

/-- The shortest decimal that reads back to a finite value. -/
def shortest (v : Binary64) : Decimal :=
  if v.isZero then ⟨v.isNegative, 0, 0⟩
  else
    match (List.range 17).findSome? fun i => v.readingBack? (i + 1) with
    | some d => d.strip
    | none => v.toDecimal.strip

/-- A decimal number positionally, with a point in any case. -/
def pointedText (d : Decimal) : List Char :=
  if 0 ≤ d.exponent then d.positional ++ ['.', '0'] else d.positional

/-- A decimal number with an exponent, and with a point only between digits. -/
def exponentialText (d : Decimal) : List Char :=
  let fraction := d.digits.drop 1
  Decimal.signText d.negative ++ d.digits.take 1 ++
    (if fraction.isEmpty then [] else '.' :: fraction) ++
    'e' :: Decimal.exponentText d.leadingExponent

/-- The text of a value in messages. -/
def text : Binary64 → List Char
  | .nan => "nan".toList
  | .infinity negative => Decimal.signText negative ++ "inf".toList
  | v =>
    let d := v.shortest
    if -4 ≤ d.leadingExponent ∧ d.leadingExponent < 16 then pointedText d else exponentialText d

end Reckoner.Binary64
