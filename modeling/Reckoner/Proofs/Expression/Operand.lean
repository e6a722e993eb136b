import Reckoner.Dialogue
import Reckoner.Proofs.Display.RoundTrip
import Reckoner.Proofs.Expression.Parentheses
import Reckoner.Proofs.Expression.Tree
import Reckoner.Proofs.Token.Square
/-!
# `Reckoner/Proofs/Expression/Operand.lean` — an operand at the front

A number spelt as an operand is a literal, or a literal behind a minus sign in parentheses. In front
of a sign it stays by itself at every stage: the spelling is cut at the sign
(`canonical_append_sign`), the reader leaves the tokens of the operand in front of those of the rest
(`read_group_append`), and the conversion puts the post-order of its tree in front of that of the
rest (`ofInfix_tokens_append`).

> **Behind an operand, it does not matter which operand it is.** What follows the tokens of one
> follows those of another (`Token.readFrom_eq_ok_iff`), a number that is typed among them.
-/

set_option autoImplicit false

namespace Reckoner

/-! ## Spelling -/

namespace Spelling

/-- **The text is cut in two at a sign**, also at one that is spelt out. -/
theorem canonical_append_sign {c sign : Char} {tail : List Char}
    (hglyph : expandGlyph c = sign :: tail) (hsign : Cuts sign) (left right : List Char) :
    canonical (left ++ c :: right) = canonical left ++ canonical (c :: right) := by
  have hbehind : expandGlyphs (c :: right) = sign :: (tail ++ expandGlyphs right) := by
    rw [expandGlyphs, List.flatMap_cons, hglyph]
    rfl
  have hwhole : expandGlyphs (left ++ c :: right) =
      expandGlyphs left ++ sign :: (tail ++ expandGlyphs right) := by
    rw [← hbehind, expandGlyphs, List.flatMap_append]
    rfl
  have hfirst := insertProducts_append_cons hsign [] (tail ++ expandGlyphs right)
  rw [canonical, hwhole, insertProducts_append_cons hsign, canonical, canonical, hbehind]
  exact congrArg (insertProducts (expandGlyphs left) ++ ·) hfirst.symm

/-- What goes on from a result begins, spelt out, with a sign. -/
theorem exists_sign_of_continuesResult {c : Char} (h : Dialogue.continuesResult c = true) :
    ∃ sign tail, expandGlyph c = sign :: tail ∧ Cuts sign ∧ Token.isNumberChar sign = false := by
  have hmem : c ∈ ['+', '-', '*', '/', '^', '×', '÷', '²'] := by
    simpa [Dialogue.continuesResult] using h
  simp only [List.mem_cons, List.not_mem_nil, or_false] at hmem
  rcases hmem with rfl | rfl | rfl | rfl | rfl | rfl | rfl | rfl
  all_goals exact ⟨_, _, rfl, cuts_of (by decide) (by decide) (by decide), rfl⟩

/-- So no number in front of it goes on there. -/
theorem noNumberFirst_canonical {c : Char} (h : Dialogue.continuesResult c = true)
    (rest : List Char) : Token.NoNumberFirst (canonical (c :: rest)) := by
  obtain ⟨sign, tail, hglyph, -, hnumber⟩ := exists_sign_of_continuesResult h
  intro x hx
  rw [canonical, head?_insertProducts, expandGlyphs, List.flatMap_cons, hglyph] at hx
  obtain rfl : sign = x := by simpa using hx
  exact hnumber

end Spelling

/-- Which tokens a text has does not depend on where it stands. -/
theorem Token.readFrom_eq_ok_iff {due : Bool} {index : Nat} {text : List Char}
    {found : List Token} : readFrom due index text = .ok found ↔ readFrom due 0 text = .ok found := by
  have hmove := readFrom_add due 0 index text
  rw [Nat.zero_add] at hmove
  rw [hmove]
  cases readFrom due 0 text with
  | error e => exact iff_of_false (by rintro ⟨⟩) (by rintro ⟨⟩)
  | ok tokens => exact Iff.rfl

/-! ## A number spelt as an operand -/

namespace Operand

open Token

/-- The tokens of an operand. -/
def tokens (negative : Bool) (number : List Char) : List Token :=
  if negative then [.openParen, .unary .negate, .number number, .closeParen] else [.number number]

/-- The tree of an operand. -/
def tree (negative : Bool) (number : List Char) : Expression.Tree :=
  if negative then .unary .negate (.number number) else .number number

variable {number : List Char}

theorem group_negative (number : List Char) :
    group (Decimal.signText true ++ number) = ['('] ++ '-' :: (number ++ [')']) := rfl

theorem group_positive (hnumber : ∀ c ∈ number, isNumberChar c = true) :
    group (Decimal.signText false ++ number) = number := by
  show group number = number
  rw [group, if_neg]
  intro hhead
  exact absurd (hnumber '-' (List.mem_of_head? hhead)) (by decide)

/-- **An operand is spelt out already.** -/
theorem canonical_group (hnumber : ∀ c ∈ number, isNumberChar c = true) (negative : Bool) :
    Spelling.canonical (group (Decimal.signText negative ++ number)) =
      group (Decimal.signText negative ++ number) := by
  have hglyphs := Spelling.expandGlyphs_of_isNumberChar hnumber
  have hproducts : Spelling.insertProducts number = number := by
    refine Spelling.insertProducts_eq_self fun c hc => ⟨?_, ?_⟩
    all_goals
      rintro rfl
      exact absurd (hnumber _ hc) (by decide)
  cases negative with
  | false => rw [group_positive hnumber, Spelling.canonical, hglyphs, hproducts]
  | true =>
    have hspelt : Spelling.expandGlyphs (['('] ++ '-' :: (number ++ [')'])) =
        ['('] ++ '-' :: (number ++ [')']) := by
      simp only [Spelling.expandGlyphs, List.flatMap_append, List.flatMap_cons] at hglyphs ⊢
      rw [hglyphs]
      rfl
    have hclosing := Spelling.insertProducts_closing number 1
    rw [hproducts] at hclosing
    have hcuts : Spelling.Cuts '-' := Spelling.cuts_of (by decide) (by decide) (by decide)
    rw [group_negative, Spelling.canonical, hspelt, Spelling.insertProducts_append_cons hcuts]
    exact congrArg (['('] ++ '-' :: ·) hclosing

/-- **The reader leaves an operand in front of what follows it.** -/
theorem readFrom_group_append (hne : number ≠ []) (hnumber : ∀ c ∈ number, isNumberChar c = true)
    {rest : List Char} (hrest : NoNumberFirst rest) (negative : Bool) (index : Nat) :
    readFrom true index (group (Decimal.signText negative ++ number) ++ rest) =
      (readFrom false (index + (group (Decimal.signText negative ++ number)).length) rest).map
        (tokens negative number ++ ·) := by
  cases negative with
  | false =>
    rw [group_positive hnumber, readFrom_number_append hne hnumber hrest]
    rfl
  | true =>
    have hclosing : NoNumberFirst (')' :: rest) := by
      intro c hc
      obtain rfl : ')' = c := by simpa using hc
      rfl
    have hlength : index + (group (Decimal.signText true ++ number)).length =
        index + 1 + 1 + number.length + 1 := by
      simp only [group_negative, List.length_append, List.length_cons, List.length_nil]
      omega
    have htext : group (Decimal.signText true ++ number) ++ rest =
        '(' :: '-' :: (number ++ ')' :: rest) := by
      simp [group_negative]
    rw [htext, hlength, readFrom_opening, readFrom_cons (not_startsRoot (by decide) _)]
    show ((readFrom true (index + 1 + 1) (number ++ ')' :: rest)).map _).map _ = _
    rw [readFrom_number_append hne hnumber hclosing, readFrom_closing]
    cases readFrom false (index + 1 + 1 + number.length + 1) rest <;> rfl

/-- The conversion does so as well: with nothing on the stack, an operand leaves nothing there. -/
theorem ofInfix_tokens_append (negative : Bool) (number : List Char) (rest : List Token) :
    Postfix.ofInfix (tokens negative number ++ rest) =
      (tree negative number).postorder ++ Postfix.ofInfix rest := by
  cases negative <;> rfl

theorem read_group (hne : number ≠ []) (hnumber : ∀ c ∈ number, isNumberChar c = true)
    (negative : Bool) :
    Token.read (Spelling.canonical (group (Decimal.signText negative ++ number))) =
      .ok (tokens negative number) := by
  have hend : NoNumberFirst [] := by
    intro c hc
    exact absurd hc (by simp)
  have hread := readFrom_group_append hne hnumber hend negative 0
  rw [List.append_nil, readFrom] at hread
  rw [canonical_group hnumber, Token.read, hread]
  exact congrArg Except.ok (List.append_nil _)

/-- **An operand in front of a line that goes on from it** is read as its tokens, and what follows
them does not depend on the operand. -/
theorem read_group_append_iff (hne : number ≠ []) (hnumber : ∀ c ∈ number, isNumberChar c = true)
    (negative : Bool) {c : Char} (hc : Dialogue.continuesResult c = true) (rest : List Char)
    (found : List Token) :
    Token.read (Spelling.canonical (group (Decimal.signText negative ++ number) ++ c :: rest)) =
        .ok found ↔
      ∃ behind, readFrom false 0 (Spelling.canonical (c :: rest)) = .ok behind ∧
        tokens negative number ++ behind = found := by
  obtain ⟨sign, tail, hglyph, hcuts, -⟩ := Spelling.exists_sign_of_continuesResult hc
  have hbehind := Spelling.noNumberFirst_canonical hc rest
  rw [Spelling.canonical_append_sign hglyph hcuts, canonical_group hnumber, Token.read,
    readFrom_group_append hne hnumber hbehind, map_eq_ok_iff]
  constructor
  · rintro ⟨behind, hread, hfound⟩
    exact ⟨behind, readFrom_eq_ok_iff.mp hread, hfound⟩
  · rintro ⟨behind, hread, hfound⟩
    exact ⟨behind, readFrom_eq_ok_iff.mpr hread, hfound⟩

end Operand

end Reckoner
