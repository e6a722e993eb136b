import Reckoner.Rounding
/-!
# `Reckoner/Binary64/Basic.lean` — binary floating-point values

The calculator computes with the 64-bit binary floating-point values. A finite one is stored as
what it denotes, a sign and an integer times a power of two, so that its exact value is at hand
wherever it is rounded, compared or shown. The pair of integer and power is canonical: each value
has one representation (the two zeros apart, which differ in sign), and equality of values is
equality of representations.

Every operation is *exact, then rounded*: `ofRat` is the one place where a value is made from a
rational, to the nearest and with ties to the even significand.
-/

set_option autoImplicit false

namespace Reckoner

namespace Binary64

/-- The significand has at most 53 bits, the exponent is in range, and the significand has all
53 bits unless the exponent is the least. The two bounds on it are `2 ^ 53` and `2 ^ 52`. -/
def Canonical (significand : Nat) (exponent : Int) : Prop :=
  significand < 9007199254740992 ∧ -1074 ≤ exponent ∧ exponent ≤ 971 ∧
    (4503599627370496 ≤ significand ∨ exponent = -1074)

instance (significand : Nat) (exponent : Int) : Decidable (Canonical significand exponent) :=
  inferInstanceAs (Decidable (_ ∧ _ ∧ _ ∧ _))

end Binary64

/-- A binary floating-point value: not a number, an infinity, or `± significand * 2 ^ exponent`. -/
inductive Binary64 where
  | nan
  | infinity (negative : Bool)
  | finite (negative : Bool) (significand : Nat) (exponent : Int)
      (canonical : Binary64.Canonical significand exponent)
deriving DecidableEq

namespace Binary64

/-- Zero of either sign. -/
def zero (negative : Bool) : Binary64 := .finite negative 0 (-1074) (by decide)

/-- The value with the given parts; a significand that is out of place for its exponent stands
for a magnitude beyond the largest finite one. -/
def ofParts (negative : Bool) (significand : Nat) (exponent : Int) : Binary64 :=
  if h : Canonical significand exponent then .finite negative significand exponent h
  else .infinity negative

/-- The value nearest to a magnitude, with the given sign; a tie goes to the even significand.

The exponent makes the unit of the significand the last of 53 bits, or the least unit there is.
Rounding up to `2 ^ 53` is the one case in which the significand gets a bit too long. -/
def ofRat (negative : Bool) (x : Rat) : Binary64 :=
  if x ≤ 0 then zero negative
  else
    let exponent := max (floorLog 2 x - 52) (-1074)
    let significand := roundNat .toEven (x / (2 : Rat) ^ exponent)
    if significand = 9007199254740992 then ofParts negative 4503599627370496 (exponent + 1)
    else ofParts negative significand exponent

/-- One. -/
def one : Binary64 := ofRat false 1

/-! ## What a value is -/

def isNaN : Binary64 → Bool
  | .nan => true
  | _ => false

def isInfinite : Binary64 → Bool
  | .infinity _ => true
  | _ => false

def isFinite : Binary64 → Bool
  | .finite .. => true
  | _ => false

/-- The sign; not a number has none. -/
def isNegative : Binary64 → Bool
  | .nan => false
  | .infinity negative => negative
  | .finite negative .. => negative

/-- The exact magnitude of a finite value. -/
def magnitude : Binary64 → Rat
  | .finite _ significand exponent _ => significand * (2 : Rat) ^ exponent
  | _ => 0

/-- The exact value of a finite value. -/
def value (v : Binary64) : Rat := if v.isNegative then -v.magnitude else v.magnitude

/-- Zero of either sign. -/
def isZero : Binary64 → Bool
  | .finite _ significand .. => significand = 0
  | _ => false

/-- A finite value without a fractional part. -/
def isInteger (v : Binary64) : Bool := v.isFinite && v.magnitude.isInt

/-- An integer that two does not divide. -/
def isOddInteger (v : Binary64) : Bool := v.isInteger && v.magnitude.num % 2 = 1

/-! ## Order

Not a number is neither below, above nor equal to anything. The two zeros are equal. -/

def lt : Binary64 → Binary64 → Bool
  | .nan, _ | _, .nan => false
  | .infinity s, .infinity t => s && !t
  | .infinity s, .finite .. => s
  | .finite .., .infinity t => !t
  | x, y => x.value < y.value

def le : Binary64 → Binary64 → Bool
  | .nan, _ | _, .nan => false
  | x, y => !y.lt x

end Binary64

end Reckoner
