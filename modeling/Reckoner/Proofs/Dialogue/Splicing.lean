import Reckoner.Proofs.Dialogue.Answers
import Reckoner.Proofs.Expression.Operand
/-!
# `Reckoner/Proofs/Dialogue/Splicing.lean` — a result in front of a line

A line that goes on from a result is put behind the operand of the result, as text. So it has to be
asked whether the text is read as it is meant: whether the sign of a negative result stays with its
number, and whether the line's own sign is still the sign between two operands.

> **A result in front of a line acts as one operand** (`exists_substituting_operand`). Whatever
> follows, parentheses without a partner included, the whole is read if and only if it is read with
> a number in the result's place; and the two have the same postfix order, but for the number at its
> front.
-/

set_option autoImplicit false

namespace Reckoner.Dialogue

open Expression (Tree)

/-- The one expression has tokens where the other has; and where that has the number at the front of
its postfix order, this has the post-order of the tree. -/
structure Substitutes (tree : Tree) (number spliced typed : List Char) : Prop where
  read_iff : (∃ found, Token.read (Spelling.canonical spliced) = .ok found) ↔
    ∃ found, Token.read (Spelling.canonical typed) = .ok found
  ofInfix_eq : ∀ {found found' : List Token},
    Token.read (Spelling.canonical spliced) = .ok found →
      Token.read (Spelling.canonical typed) = .ok found' →
        ∃ rest, Postfix.ofInfix found' = .number number :: rest ∧
          Postfix.ofInfix found = tree.postorder ++ rest

/-- **An operand substitutes for a number**, in front of any line that goes on from it. -/
theorem substitutes_group {number typed : List Char} (hne : number ≠ [])
    (hnumber : ∀ d ∈ number, Token.isNumberChar d = true) (htyped : typed ≠ [])
    (htypedNumber : ∀ d ∈ typed, Token.isNumberChar d = true) (negative : Bool) {c : Char}
    (hc : continuesResult c = true) (line : List Char) :
    Substitutes (Operand.tree negative number) typed
      (Operand.group (Decimal.signText negative ++ number) ++ c :: line) (typed ++ c :: line) := by
  have hspliced := Operand.read_group_append_iff hne hnumber negative hc line
  -- A number that is typed is an operand as well, one without a sign.
  have hplain := Operand.read_group_append_iff htyped htypedNumber false hc line
  rw [Operand.group_positive htypedNumber] at hplain
  constructor
  · constructor
    · rintro ⟨found, hfound⟩
      obtain ⟨behind, hbehind, -⟩ := (hspliced _).mp hfound
      exact ⟨_, (hplain _).mpr ⟨behind, hbehind, rfl⟩⟩
    · rintro ⟨found, hfound⟩
      obtain ⟨behind, hbehind, -⟩ := (hplain _).mp hfound
      exact ⟨_, (hspliced _).mpr ⟨behind, hbehind, rfl⟩⟩
  · intro found found' hfound hfound'
    obtain ⟨behind, hbehind, rfl⟩ := (hspliced _).mp hfound
    obtain ⟨behind', hbehind', rfl⟩ := (hplain _).mp hfound'
    have hsame : behind = behind' := Except.ok.inj (hbehind.symm.trans hbehind')
    subst hsame
    exact ⟨Postfix.ofInfix behind, Operand.ofInfix_tokens_append false typed behind,
      Operand.ofInfix_tokens_append negative number behind⟩

/-- The operand of a shown text is a literal, or a literal behind a minus sign in parentheses. -/
theorem exists_group_of_ofDisplay {settings : Settings} {v : Binary64} {text operand : List Char}
    (htext : Display.text settings v = .ok text) (h : Operand.ofDisplay true text = .ok operand) :
    ∃ negative number, Decimal.isLiteral number = true ∧
      operand = Operand.group (Decimal.signText negative ++ number) := by
  obtain ⟨plain, hplain, rfl⟩ := map_eq_ok_iff.mp h
  obtain ⟨d, rfl⟩ := Operand.exists_positional_of_expand htext hplain
  obtain ⟨whole, fraction, hdigits, hlayout, -⟩ := d.exists_positional
  refine ⟨d.negative, Decimal.literal whole fraction, Decimal.isLiteral_literal hdigits, ?_⟩
  rw [← hlayout]
  rfl

/-- **A result in front of a line acts as one operand.** Every finite value has a text, and the text
an operand, which is read as one number or as a negated number in parentheses. In front of every
line that goes on from the result, the operand substitutes for any number that might stand there. -/
theorem exists_substituting_operand {v : Binary64} (hv : v.isFinite = true) :
    ∃ text operand negative number, Display.text Settings.default v = .ok text ∧
      Operand.ofDisplay true text = .ok operand ∧ Decimal.isLiteral number = true ∧
      Token.read (Spelling.canonical operand) = .ok (Operand.tokens negative number) ∧
      ∀ (c : Char) (line : List Char), continuesResult c = true →
        chainOnto (some text) (c :: line) = .ok (operand ++ c :: line) ∧
          ∀ typed, typed ≠ [] → (∀ d ∈ typed, Token.isNumberChar d = true) →
            Substitutes (Operand.tree negative number) typed (operand ++ c :: line)
              (typed ++ c :: line) := by
  obtain ⟨text, htext⟩ := Display.exists_text Settings.digitsWithin_default (by decide) hv
  obtain ⟨operand, hoperand⟩ := Evaluation.exists_ofDisplay htext true
  obtain ⟨negative, number, hliteral, hgroup⟩ := exists_group_of_ofDisplay htext hoperand
  have hne := Decimal.ne_nil_of_isLiteral hliteral
  have hnumber : ∀ d ∈ number, Token.isNumberChar d = true :=
    fun d => Token.isNumberChar_of_isLiteral hliteral
  refine ⟨text, operand, negative, number, htext, hoperand, hliteral, ?_, ?_⟩
  · rw [hgroup]
    exact Operand.read_group hne hnumber negative
  · intro c line hc
    refine ⟨chainOnto_eq hc hoperand line, fun typed htyped htypedNumber => ?_⟩
    rw [hgroup]
    exact substitutes_group hne hnumber htyped htypedNumber negative hc line

/-- A negative result is squared as a whole, also in front of a parenthesis without a partner. -/
theorem substitutes_negative_result :
    Display.text Settings.default (.ofDecimal ⟨true, 1, -8⟩) = .ok "-1.000000E-08".toList ∧
      chainOnto (some "-1.000000E-08".toList) "²+1)".toList =
        .ok "(-0.00000001)²+1)".toList ∧
      Substitutes (.unary .negate (.number "0.00000001".toList)) "3".toList
        "(-0.00000001)²+1)".toList "3²+1)".toList := by
  have hshown : Display.text Settings.default (.ofDecimal ⟨true, 1, -8⟩) =
      .ok "-1.000000E-08".toList := by decide +kernel
  have hspelt : Operand.ofDisplay true "-1.000000E-08".toList = .ok "(-0.00000001)".toList := by
    decide +kernel
  have hfound : Token.read (Spelling.canonical "(-0.00000001)".toList) =
      .ok (Operand.tokens true "0.00000001".toList) := by decide +kernel
  obtain ⟨text, operand, negative, number, htext, hoperand, -, hread, hall⟩ :=
    exists_substituting_operand (v := .ofDecimal ⟨true, 1, -8⟩) (by decide +kernel)
  obtain rfl : text = _ := Except.ok.inj (htext.symm.trans hshown)
  obtain rfl : operand = _ := Except.ok.inj (hoperand.symm.trans hspelt)
  have htokens := Except.ok.inj (hread.symm.trans hfound)
  obtain ⟨hchain, hsubstitutes⟩ := hall '²' "+1)".toList (by decide)
  have htree : Operand.tree negative number = .unary .negate (.number "0.00000001".toList) := by
    cases negative with
    | false => exact absurd htokens (by simp [Operand.tokens])
    | true =>
      simp only [Operand.tokens, ↓reduceIte, List.cons.injEq, Token.number.injEq] at htokens
      rw [htokens.2.2.1]
      rfl
  rw [← htree]
  exact ⟨hshown, hchain, hsubstitutes "3".toList (by decide) (List.all_eq_true.mp rfl)⟩

end Reckoner.Dialogue
