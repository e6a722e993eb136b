import Reckoner.Binary64.Numeral
import Reckoner.Fault
import Reckoner.RawValue
/-!
# `Reckoner/Settings.lean` — how numbers are shown

Four settings say how a result is shown: to how many significant digits, with how many places
after the point where an exponent is used, and from which magnitudes on, at either end, one is.
They are read from entries with names, or from variables of the environment.

**Reading is all or nothing.** A value that is missing or null leaves the default; the first value
that is no number is a fault that names it.
-/

set_option autoImplicit false

namespace Reckoner

/-- How numbers are shown. Entries make counts of one digit at least. A count of none can be set, but
then a number may have no text. -/
structure Settings where
  significantDigits : Nat
  mantissaDigits : Nat
  scientificUpper : Binary64
  scientificLower : Binary64
deriving DecidableEq

namespace Settings

/-- Fifteen digits, or six places with an exponent for magnitudes from `1e10` up and below
`1e-6`. -/
def default : Settings where
  significantDigits := 15
  mantissaDigits := 6
  scientificUpper := .ofDecimal ⟨false, 1, 10⟩
  scientificLower := .ofDecimal ⟨false, 1, -6⟩

/-! ## Reading one value -/

/-- Why a value cannot be taken for a number. -/
inductive Refusal where
  /-- It is none. -/
  | invalid
  /-- It is one that is too large. -/
  | tooLarge
deriving DecidableEq, Repr

/-- The number that a value stands for. A truth value counts as one or zero. -/
def readNumber : RawValue → Except Refusal Binary64
  | .bool b => .ok (if b then .one else .zero false)
  | .int n =>
    let v := Binary64.ofRat (n < 0) n.natAbs
    if v.isInfinite then .error .tooLarge else .ok v
  | .float v => .ok v
  | .text t =>
    match Binary64.ofText? t with
    | some v => .ok v
    | none => .error .invalid
  | .null | .list _ | .object _ => .error .invalid

/-- The whole part of a number, as a count of digits: one at least. -/
def wholeCount : Binary64 → Except Refusal Nat
  | .nan => .error .invalid
  | .infinity _ => .error .tooLarge
  | v => .ok (if v.isNegative then 1 else max 1 v.magnitude.floor.toNat)

/-- The count of digits for which a value stands. -/
def readCount (raw : RawValue) : Except Refusal Nat := (readNumber raw).bind wholeCount

/-! ## Reading entries -/

/-- The fault of a refused value. -/
def Refusal.fault (name : String) (raw : RawValue) : Refusal → Fault
  | .invalid => .invalidSetting name raw.literal
  | .tooLarge => .settingTooLarge

/-- The entry of the given name, read, or the default. -/
def readEntry {α : Type} (read : RawValue → Except Refusal α) (fallback : α) (name : String)
    (entries : List (List Char × RawValue)) : Except Fault α :=
  match entries.lookup name.toList with
  | none | some .null => .ok fallback
  | some raw => (read raw).mapError (Refusal.fault name raw)

/-- The settings that the entries make, or the fault of the first bad value. The entries' names
are to be distinct. -/
def ofEntries (entries : List (List Char × RawValue)) : Except Fault Settings := do
  let significantDigits ← readEntry readCount default.significantDigits "significant_digits" entries
  let mantissaDigits ← readEntry readCount default.mantissaDigits "mantissa_digits" entries
  let scientificUpper ← readEntry readNumber default.scientificUpper "scientific_upper" entries
  let scientificLower ← readEntry readNumber default.scientificLower "scientific_lower" entries
  return { significantDigits, mantissaDigits, scientificUpper, scientificLower }

/-! ## The environment -/

/-- The beginning of the names of variables that hold settings. -/
def variableMark : List Char := "INFIXCALC_".toList

/-- Entries with one more put in: a present name keeps its place and takes the new value. -/
def putEntry {α : Type} (name : List Char) (value : α) :
    List (List Char × α) → List (List Char × α)
  | [] => [(name, value)]
  | (n, v) :: rest =>
    if n = name then (n, value) :: rest else (n, v) :: putEntry name value rest

/-- The entries, put in one after another. -/
def collect {α : Type} (pairs : List (List Char × α)) : List (List Char × α) :=
  pairs.foldl (fun entries p => putEntry p.1 p.2 entries) []

/-- The entry for which a variable stands: its name without the common beginning, in lower case.
Only ASCII letters are lowered; no other letter becomes a letter of a setting's name. -/
def ofVariable? (name value : List Char) : Option (List Char × RawValue) :=
  if variableMark.isPrefixOf name then
    some ((name.drop variableMark.length).map Char.toLower, .text value)
  else none

/-- The settings that the environment makes. Of two variables with one name the later value
counts, and so it does of two names that differ in case. -/
def ofEnvironment (environment : List (List Char × List Char)) : Except Fault Settings :=
  ofEntries (collect ((collect environment).filterMap fun p => ofVariable? p.1 p.2))

end Settings

end Reckoner
