import Mathlib.Data.List.TakeWhile
import Reckoner.Proofs.Display.Text
/-!
# `Reckoner/Proofs/Decimal/Literal.lean` — a literal is a numeral

A literal is told by taking a point out of the text and looking at what is left. That says nothing
of where the point was, so a literal may begin with its point, or end in it (`isLiteral_iff`). What is
left are the digits on both sides of the point (`erase_point`), and it is these that are read.

> **A literal consists of digits and at most one point, and has a digit**
> (`isLiteral_iff_hasLiteralChars`). The number that it denotes is the sum of its digits, each of them
> times the power of ten of its place (`literalNumber_eq_value`).

> **A literal is read in free form as well, and as the same number** (`exists_ofNumeral?`,
> `Binary64.exists_ofText?_of_isLiteral`). So a check for a literal is enough to read a text in free
> form without a failure.
-/

set_option autoImplicit false

namespace Reckoner

namespace Decimal

variable {text whole fraction : List Char}

theorem isLiteral_iff_erase : isLiteral text = true ↔
    text.erase '.' ≠ [] ∧ ∀ c ∈ text.erase '.', c.isDigit = true := by
  simp [isLiteral]

/-- **A literal is a run of digits, or two around a point**, and not both of these are empty. -/
theorem isLiteral_iff : isLiteral text = true ↔ ∃ whole fraction : List Char,
    (∀ c ∈ whole, c.isDigit = true) ∧ (∀ c ∈ fraction, c.isDigit = true) ∧
      whole ++ fraction ≠ [] ∧
      (text = whole ++ '.' :: fraction ∨ fraction = [] ∧ text = whole) := by
  rw [isLiteral_iff_erase]
  constructor
  · rintro ⟨hne, hdigits⟩
    by_cases hpoint : '.' ∈ text
    · obtain ⟨whole, fraction, -, htext, herase⟩ := List.exists_erase_eq hpoint
      rw [herase] at hne hdigits
      obtain ⟨hwhole, hfraction⟩ := List.forall_mem_append.mp hdigits
      exact ⟨whole, fraction, hwhole, hfraction, hne, .inl htext⟩
    · rw [List.erase_of_not_mem hpoint] at hne hdigits
      exact ⟨text, [], hdigits, by simp, by simpa using hne, .inr ⟨rfl, rfl⟩⟩
  · rintro ⟨whole, fraction, hwhole, hfraction, hne, htext⟩
    have herase : text.erase '.' = whole ++ fraction := by
      rcases htext with rfl | ⟨rfl, rfl⟩
      · rw [List.erase_append_right _ (point_not_mem hwhole), List.erase_cons_head]
      · rw [List.erase_of_not_mem (point_not_mem hwhole), List.append_nil]
    rw [herase]
    exact ⟨hne, List.forall_mem_append.mpr ⟨hwhole, hfraction⟩⟩

theorem mem_of_isLiteral (h : isLiteral text = true) {c : Char} (hc : c ∈ text) :
    c.isDigit = true ∨ c = '.' := by
  obtain ⟨whole, fraction, hwhole, hfraction, -, rfl | ⟨rfl, rfl⟩⟩ := isLiteral_iff.mp h
  · rcases List.mem_append.mp hc with hc | hc
    · exact .inl (hwhole c hc)
    · rcases List.mem_cons.mp hc with rfl | hc
      · exact .inr rfl
      · exact .inl (hfraction c hc)
  · exact .inl (hwhole c hc)

/-- A literal carries no sign. -/
theorem splitSign_of_isLiteral (h : isLiteral text = true) : splitSign text = (false, text) := by
  unfold splitSign
  split
  · exact absurd (mem_of_isLiteral h (List.mem_cons_self ..)) (by decide)
  · exact absurd (mem_of_isLiteral h (List.mem_cons_self ..)) (by decide)
  · rfl

theorem isShownChar_of_isLiteral (h : isLiteral text = true) {c : Char} (hc : c ∈ text) :
    isShownChar c = true := by
  rcases mem_of_isLiteral h hc with hdigit | rfl
  · exact isShownChar_of_isDigit hdigit
  · rfl

theorem ne_nil_of_isLiteral (h : isLiteral text = true) : text ≠ [] := by
  rintro rfl
  exact absurd h (by decide)

/-! ## By its characters -/

/-- The characters are those of a literal: digits and at most one point, and not a point alone. -/
structure HasLiteralChars (text : List Char) : Prop where
  digit_or_point : ∀ c ∈ text, c.isDigit = true ∨ c = '.'
  one_point : text.count '.' ≤ 1
  some_digit : ∃ c ∈ text, c.isDigit = true

/-- **A literal is told by its characters**, wherever its point stands. -/
theorem isLiteral_iff_hasLiteralChars : isLiteral text = true ↔ HasLiteralChars text := by
  constructor
  · intro h
    obtain ⟨hne, hdigits⟩ := isLiteral_iff_erase.mp h
    obtain ⟨c, hc⟩ := List.exists_mem_of_ne_nil _ hne
    have hcount : (text.erase '.').count '.' = 0 := List.count_eq_zero.mpr (point_not_mem hdigits)
    rw [List.count_erase_self] at hcount
    exact ⟨fun _ => mem_of_isLiteral h, by omega, c, List.mem_of_mem_erase hc, hdigits c hc⟩
  · rintro ⟨hchars, hcount, c, hc, hdigit⟩
    rw [isLiteral_iff_erase]
    constructor
    · have hne : c ≠ '.' := by
        rintro rfl
        cases hdigit
      exact List.ne_nil_of_mem ((List.mem_erase_of_ne hne).mpr hc)
    · -- If there is a point, it is the one that is taken out.
      have hnone : '.' ∉ text.erase '.' := by
        rw [← List.count_eq_zero, List.count_erase_self]
        omega
      intro x hx
      refine (hchars x (List.mem_of_mem_erase hx)).resolve_right ?_
      rintro rfl
      exact hnone hx

/-! ## The two runs of digits -/

/-- The digits of a text before its point. -/
def wholePart (text : List Char) : List Char := text.takeWhile Char.isDigit

/-- The digits of a text after its point. -/
def fractionPart (text : List Char) : List Char := (text.dropWhile Char.isDigit).drop 1

theorem ofLiteral?_eq_some_iff {d : Decimal} : ofLiteral? text = some d ↔
    isLiteral text = true ∧ ofDigits false (wholePart text) (fractionPart text) = d := by
  simp [ofLiteral?, wholePart, fractionPart]

theorem ofLiteral?_eq_none_iff : ofLiteral? text = none ↔ ¬ isLiteral text = true := by
  simp [ofLiteral?]

theorem negative_of_ofLiteral? {d : Decimal} (h : ofLiteral? text = some d) : d.negative = false := by
  obtain ⟨-, rfl⟩ := ofLiteral?_eq_some_iff.mp h
  rfl

theorem parts_point (h : ∀ c ∈ whole, c.isDigit = true) (fraction : List Char) :
    wholePart (whole ++ '.' :: fraction) = whole ∧
      fractionPart (whole ++ '.' :: fraction) = fraction := by
  have hspan := span_digits h (point_noDigitFirst fraction)
  rw [List.span_eq_takeWhile_dropWhile, Prod.mk.injEq] at hspan
  rw [wholePart, fractionPart, hspan.1, hspan.2]
  exact ⟨rfl, rfl⟩

theorem parts_whole (h : ∀ c ∈ whole, c.isDigit = true) :
    wholePart whole = whole ∧ fractionPart whole = [] := by
  rw [wholePart, fractionPart, List.takeWhile_eq_self_iff.mpr h, List.dropWhile_eq_nil_iff.mpr h]
  exact ⟨rfl, rfl⟩

/-- Without its point, a literal is its two runs of digits. -/
theorem erase_point (h : isLiteral text = true) :
    text.erase '.' = wholePart text ++ fractionPart text := by
  obtain ⟨whole, fraction, hwhole, -, -, rfl | ⟨-, rfl⟩⟩ := isLiteral_iff.mp h
  · obtain ⟨htake, hdrop⟩ := parts_point hwhole fraction
    rw [htake, hdrop, List.erase_append_right _ (point_not_mem hwhole), List.erase_cons_head]
  · obtain ⟨htake, hdrop⟩ := parts_whole hwhole
    rw [htake, hdrop, List.erase_of_not_mem (point_not_mem hwhole), List.append_nil]

theorem parts_digits (h : isLiteral text = true) :
    (∀ c ∈ wholePart text, c.isDigit = true) ∧ ∀ c ∈ fractionPart text, c.isDigit = true := by
  rw [← List.forall_mem_append, ← erase_point h]
  exact (isLiteral_iff_erase.mp h).2

/-! ## By its places -/

/-- The sum of digits, the first of them at the given place and each one lower than the one before. -/
def placeSum : Int → List Char → Rat
  | _, [] => 0
  | place, c :: digits =>
    (c.toNat - '0'.toNat : Nat) * (10 : Rat) ^ place + placeSum (place - 1) digits

/-- The number that a text of digits and a point says. The last digit before the point is at the
place of the ones; without a point, the last digit of all is. -/
def literalNumber (text : List Char) : Rat := placeSum (text.idxOf '.' - 1) (text.erase '.')

theorem placeSum_eq (place : Int) (digits : List Char) : placeSum place digits =
    Nat.ofDigitChars 10 digits 0 * (10 : Rat) ^ (place + 1 - digits.length) := by
  induction digits generalizing place with
  | nil => rw [placeSum, Nat.ofDigitChars_nil, Nat.cast_zero, zero_mul]
  | cons c digits ih =>
    have hplace : place + 1 - (c :: digits).length = place - digits.length := by
      rw [List.length_cons]
      omega
    have hpower : (10 : Rat) ^ place = (10 : Rat) ^ digits.length * (10 : Rat) ^
        (place - digits.length) := by
      rw [← zpow_natCast, ← zpow_add₀ (by simp)]
      congr 1
      omega
    have hvalue : Nat.ofDigitChars 10 (c :: digits) 0 =
        10 ^ digits.length * (c.toNat - '0'.toNat) + Nat.ofDigitChars 10 digits 0 := by
      rw [Nat.ofDigitChars_cons, Nat.mul_zero, Nat.zero_add]
      exact Nat.ofDigitChars_eq_ofDigitChars_zero
    rw [placeSum, ih, hplace, sub_add_cancel, hpower, hvalue, Nat.cast_add, Nat.cast_mul,
      Nat.cast_pow, Nat.cast_ofNat]
    ring

/-- The point stands behind the first run, and if there is none, so does the end. -/
theorem idxOf_point (h : isLiteral text = true) : text.idxOf '.' = (wholePart text).length := by
  obtain ⟨whole, fraction, hwhole, -, -, rfl | ⟨-, rfl⟩⟩ := isLiteral_iff.mp h
  · rw [(parts_point hwhole fraction).1, List.idxOf_append_of_notMem (point_not_mem hwhole),
      List.idxOf_cons_self, Nat.add_zero]
  · rw [(parts_whole hwhole).1, List.idxOf_eq_length (point_not_mem hwhole)]

/-- **A literal denotes the sum of its digits**, each at its place. -/
theorem literalNumber_eq_value {d : Decimal} (h : ofLiteral? text = some d) :
    literalNumber text = d.value := by
  obtain ⟨hliteral, rfl⟩ := ofLiteral?_eq_some_iff.mp h
  have hplace : ((wholePart text).length : Int) - 1 + 1 -
      (wholePart text ++ fractionPart text).length = -(fractionPart text).length := by
    rw [List.length_append]
    omega
  rw [literalNumber, idxOf_point hliteral, erase_point hliteral, placeSum_eq, hplace]
  rfl

/-! ## Read as a numeral -/

theorem ofLiteral?_of_span {rest : List Char} (h : isLiteral text = true)
    (hspan : text.span Char.isDigit = (whole, rest)) :
    ofLiteral? text = some (ofDigits false whole (rest.drop 1)) := by
  rw [List.span_eq_takeWhile_dropWhile, Prod.mk.injEq] at hspan
  rw [ofLiteral?, if_pos h, hspan.1, hspan.2]

theorem ofNumeral?_of_span {rest : List Char} (h : isLiteral text = true)
    (hspan : text.span Char.isDigit = (whole, rest)) (hsplit : splitFraction rest = (fraction, []))
    (hne : whole ++ fraction ≠ []) : ofNumeral? text = some (ofDigits false whole fraction) := by
  unfold ofNumeral?
  rw [splitSign_of_isLiteral h]
  simp only [hspan, hsplit]
  rw [if_neg (by simpa using hne)]
  simp [readExponent?, ofDigits]

/-- **A literal is read as a numeral**, and as the number that it denotes. -/
theorem exists_ofNumeral? (h : isLiteral text = true) :
    ∃ d, ofLiteral? text = some d ∧ ofNumeral? text = some d := by
  have hnoDigit := endsLiteral_nil.noDigitFirst
  obtain ⟨whole, fraction, hwhole, hfraction, hne, htext⟩ := isLiteral_iff.mp h
  refine ⟨ofDigits false whole fraction, ?_⟩
  rcases htext with rfl | ⟨rfl, rfl⟩
  · have hspan := span_digits hwhole (point_noDigitFirst fraction)
    have hsplit := splitFraction_point hfraction hnoDigit
    rw [List.append_nil] at hsplit
    exact ⟨ofLiteral?_of_span h hspan, ofNumeral?_of_span h hspan hsplit hne⟩
  · have hspan := span_digits hwhole hnoDigit
    rw [List.append_nil] at hspan
    exact ⟨ofLiteral?_of_span h hspan, ofNumeral?_of_span h hspan rfl hne⟩

end Decimal

/-- **A literal is read in free form as its value.** -/
theorem Binary64.exists_ofText?_of_isLiteral {text : List Char}
    (h : Decimal.isLiteral text = true) :
    ∃ d, Decimal.ofLiteral? text = some d ∧ ofText? text = some (ofDecimal d) := by
  obtain ⟨d, hliteral, hnumeral⟩ := Decimal.exists_ofNumeral? h
  exact ⟨d, hliteral, ofText?_eq_ofNumeral? (fun c => Decimal.isShownChar_of_isLiteral h) hnumeral⟩

end Reckoner
