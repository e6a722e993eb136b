import Reckoner.Proofs.Token.Square
/-!
# `Reckoner/Proofs/Token/Alphabet.lean` — texts in the alphabet of the reader

The reader knows digits, points, five operators, two parentheses and four letters that stand together.
A text that is spelt with these is read, whatever it says (`Spelt.exists_readFrom`).

> **Spelling keeps to the alphabet.** A product sign is put between two characters and never into the
> letters of a root (`spelt_insertProducts`), so it is enough that each glyph of an expression is
> spelt in the alphabet (`exists_read_canonical`).
-/

set_option autoImplicit false

namespace Reckoner

namespace Token

/-- The characters of the alphabet that stand by themselves. -/
def isAlphabet (c : Char) : Bool := isNumberChar c || "+-*/^()".toList.contains c

/-- The text is spelt in the alphabet. -/
inductive Spelt : List Char → Prop where
  | nil : Spelt []
  | char {c : Char} {rest : List Char} (hc : isAlphabet c = true) (h : Spelt rest) :
      Spelt (c :: rest)
  | root {rest : List Char} (h : Spelt rest) : Spelt (rootLetters ++ rest)

theorem isAlphabet_ne_letter {c : Char} (h : isAlphabet c = true) : c ≠ 's' := by
  rintro rfl
  exact absurd h (by decide)

/-- A character of the alphabet that is no part of a number is a token. -/
theorem exists_ofChar? {c : Char} (h : isAlphabet c = true) (hnumber : isNumberChar c = false)
    (due : Bool) : ∃ token, ofChar? due c = some token := by
  have hsign : c ∈ "+-*/^()".toList := by simpa [isAlphabet, hnumber] using h
  have hall : "+-*/^()".toList.all (fun c => (ofChar? due c).isSome) = true := by
    cases due <;> decide
  exact Option.isSome_iff_exists.mp (List.all_eq_true.mp hall c hsign)

/-- **A text in the alphabet is read.** -/
theorem Spelt.exists_readFrom {text : List Char} (h : Spelt text) (due : Bool) (index : Nat) :
    ∃ tokens, readFrom due index text = .ok tokens := by
  induction h generalizing due index with
  | nil => exact ⟨[], by rw [readFrom]⟩
  | @char c rest hc _ ih =>
    rw [readFrom_cons (not_startsRoot (isAlphabet_ne_letter hc) rest)]
    by_cases hnumber : isNumberChar c = true
    · obtain ⟨tokens, htokens⟩ := ih false (index + 1)
      exact ⟨extendNumber c tokens, by rw [if_pos hnumber, htokens]; rfl⟩
    · obtain ⟨token, htoken⟩ := exists_ofChar? hc (by simpa using hnumber) due
      obtain ⟨tokens, htokens⟩ := ih token.expectsOperand (index + 1)
      exact ⟨token :: tokens, by rw [if_neg hnumber, htoken]; simp only [htokens]; rfl⟩
  | root _ ih =>
    obtain ⟨tokens, htokens⟩ := ih true (index + 4)
    exact ⟨.unary .squareRoot :: tokens, by rw [readFrom_root, htokens]; rfl⟩

theorem spelt_of_all {text : List Char} (h : text.all isAlphabet = true) : Spelt text := by
  induction text with
  | nil => exact .nil
  | cons c rest ih =>
    rw [List.all_cons, Bool.and_eq_true] at h
    exact .char h.1 (ih h.2)

theorem Spelt.append {left right : List Char} (hleft : Spelt left) (hright : Spelt right) :
    Spelt (left ++ right) := by
  induction hleft with
  | nil => exact hright
  | char hc _ ih => exact .char hc ih
  | root _ ih =>
    rw [List.append_assoc]
    exact .root ih

end Token

namespace Spelling

open Token

theorem insertProducts_letters_append {letters : List Char} (h : ∀ c ∈ letters, Cuts c)
    (rest : List Char) : insertProducts (letters ++ rest) = letters ++ insertProducts rest := by
  induction letters with
  | nil => rfl
  | cons c letters ih =>
    have hcut := insertProducts_append_cons (h c (by simp)) [] (letters ++ rest)
    rw [List.cons_append, List.cons_append, ← ih fun x hx => h x (List.mem_cons_of_mem c hx)]
    exact hcut

theorem cuts_rootLetters : ∀ c ∈ rootLetters, Cuts c := by
  intro c hc x
  simp only [rootLetters, List.mem_cons, List.not_mem_nil, or_false] at hc
  rcases hc with rfl | rfl | rfl | rfl
  all_goals simp [isProduct]

theorem spelt_insertProducts {text : List Char} (h : Spelt text) :
    Spelt (insertProducts text) := by
  induction h with
  | nil => exact .nil
  | @char c rest hc hrest ih =>
    cases rest with
    | nil => exact .char hc hrest
    | cons right rest =>
      rw [insertProducts]
      split
      · exact .char hc (.char (by decide) ih)
      · exact .char hc ih
  | root _ ih =>
    rw [insertProducts_letters_append cuts_rootLetters]
    exact .root ih

/-- The characters that an expression may be typed with, each by itself: those that are read, and the
glyphs. -/
def isUnit (c : Char) : Bool := isAlphabet c || "×÷√²".toList.contains c

theorem expandGlyph_of_not_glyph {c : Char} (h : c ∉ "×÷√²".toList) : expandGlyph c = [c] := by
  unfold expandGlyph
  split
  all_goals first
    | rfl
    | exact absurd (by decide) h

theorem spelt_expandGlyph {c : Char} (h : isUnit c = true) : Spelt (expandGlyph c) := by
  by_cases hglyph : c ∈ "×÷√²".toList
  · have hall : "×÷√²".toList.all
        (fun c => c == '√' || (expandGlyph c).all isAlphabet) = true := by decide
    have hc := List.all_eq_true.mp hall c hglyph
    rw [Bool.or_eq_true, beq_iff_eq] at hc
    rcases hc with rfl | hspelt
    · exact .root .nil
    · exact spelt_of_all hspelt
  · rw [isUnit, Bool.or_eq_true] at h
    rw [expandGlyph_of_not_glyph hglyph]
    exact .char (h.resolve_right (by simpa using hglyph)) .nil

theorem spelt_expandGlyphs {text : List Char} (h : ∀ c ∈ text, Spelt (expandGlyph c)) :
    Spelt (expandGlyphs text) := by
  unfold expandGlyphs
  induction text with
  | nil => exact .nil
  | cons c rest ih =>
    rw [List.flatMap_cons]
    exact (h c (by simp)).append (ih fun x hx => h x (List.mem_cons_of_mem c hx))

/-- **An expression is read if each of its characters is spelt in the alphabet.** -/
theorem exists_read_canonical {text : List Char} (h : ∀ c ∈ text, Spelt (expandGlyph c)) :
    ∃ tokens, read (canonical text) = .ok tokens :=
  (spelt_insertProducts (spelt_expandGlyphs h)).exists_readFrom true 0

end Spelling

end Reckoner
