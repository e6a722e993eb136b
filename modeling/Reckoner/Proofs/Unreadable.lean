import Reckoner.Proofs.Postfix.Machine
import Reckoner.Proofs.Token.Units
/-!
# `Reckoner/Proofs/Unreadable.lean` — expressions that cannot be read

Glyphs are spelt out and product signs are put in before anything is read. So it is not the expression
that is read, but a longer text. Does that make something readable that is not, or the other way round?

> **The alphabet is exact, and is checked first** (`unexpectedCharacter_iff`). An expression that is put
> together from digits, points, signs, glyphs and the four letters of a root is read, whatever else may
> be wrong with it; every other one is refused, at the end of the longest beginning that can be read.

Spelling makes no unit out of what is none: neither a product sign nor a glyph spelt out completes the
letters of a root (`breaksAt_canonical`).

The index that is reported belongs to the text that is read. The character that it blames is one of the
expression, but its place there is another one as soon as spelling has made the text in front of it
longer (`exists_unexpectedCharacter`). The place in the expression is not reported.
-/

set_option autoImplicit false

namespace Reckoner

open Token (rootLetters BreaksAt isAlphabet)
open scoped Computability

namespace Spelling

/-- The units that an expression may be typed with. -/
def units : Language Char := Token.unitsOf isUnit

/-! ## Units spelt out -/

theorem spelt_expandGlyphs_of_mem {text : List Char} (h : text ∈ units∗) :
    Token.Spelt (expandGlyphs text) := by
  induction text using Token.induction_on_units with
  | nil => exact .nil
  | root rest ih => exact .root (ih ((Token.root_append_mem_kstar_iff rfl).mp h))
  | cons c rest hroot ih =>
    obtain ⟨hc, hrest⟩ := (Token.cons_mem_kstar_iff hroot).mp h
    rw [expandGlyphs, List.flatMap_cons]
    exact (spelt_expandGlyph hc).append (ih hrest)

theorem canonical_mem_kstar {text : List Char} (h : text ∈ units∗) :
    canonical text ∈ Token.units∗ :=
  (spelt_insertProducts (spelt_expandGlyphs_of_mem h)).mem_kstar

/-! ## Where no unit starts -/

theorem canonical_append_cons {c : Char} (hcut : Cuts c) (hplain : expandGlyph c = [c])
    (before rest : List Char) :
    canonical (before ++ c :: rest) = canonical before ++ c :: canonical rest := by
  have hglyphs : expandGlyphs (before ++ c :: rest) =
      expandGlyphs before ++ c :: expandGlyphs rest := by
    simp [expandGlyphs, hplain]
  rw [canonical, hglyphs, insertProducts_append_cons hcut, canonical, canonical]

theorem cuts_of_not_isAlphabet {c : Char} (h : isAlphabet c = false) : Cuts c := by
  have hparts : c.isDigit = false ∧ c ≠ '(' ∧ c ≠ ')' := by
    simp only [isAlphabet, Token.isNumberChar, Bool.or_eq_false_iff] at h
    refine ⟨h.1.1, ?_, ?_⟩
    all_goals
      rintro rfl
      exact absurd h.2 (by decide)
  exact cuts_of hparts.1 hparts.2.1 hparts.2.2

theorem head?_canonical {c : Char} {text : List Char} (h : (canonical text).head? = some c) :
    ∃ x rest, text = x :: rest ∧ (expandGlyph x).head? = some c := by
  rw [canonical, head?_insertProducts] at h
  cases text with
  | nil => cases h
  | cons x rest =>
    refine ⟨x, rest, rfl, ?_⟩
    have hne : expandGlyph x ≠ [] := by
      unfold expandGlyph
      split <;> simp
    obtain ⟨y, ys, hys⟩ := List.exists_cons_of_ne_nil hne
    simpa [expandGlyphs, hys] using h

/-- The letters of a root behind its first one. -/
def innerLetters : List Char := ['q', 'r', 't']

theorem expandGlyph_of_inner {c : Char} (hc : c ∈ innerLetters) : expandGlyph c = [c] := by
  simp only [innerLetters, List.mem_cons, List.not_mem_nil, or_false] at hc
  rcases hc with rfl | rfl | rfl
  all_goals rfl

theorem eq_of_head?_expandGlyph {x c : Char} (hc : c ∈ innerLetters)
    (h : (expandGlyph x).head? = some c) : x = c := by
  unfold expandGlyph at h
  split at h
  all_goals
    obtain rfl := Option.some.inj h
    first
      | rfl
      | exact absurd hc (by decide)

/-- Spelling makes no inner letters of a root without its first one. -/
theorem prefix_of_prefix_canonical {letters text : List Char} (hletters : letters ⊆ innerLetters)
    (h : letters <+: canonical text) : letters <+: text := by
  induction letters generalizing text with
  | nil => exact List.nil_prefix
  | cons c letters ih =>
    obtain ⟨hc, hinner⟩ := List.cons_subset.mp hletters
    obtain ⟨after, hafter⟩ := h
    have hhead : (canonical text).head? = some c := by
      rw [← hafter]
      rfl
    obtain ⟨x, rest, rfl, hx⟩ := head?_canonical hhead
    obtain rfl := eq_of_head?_expandGlyph hc hx
    have hcut : Cuts x := cuts_rootLetters x (List.mem_cons_of_mem 's' hc)
    have hcanonical := canonical_append_cons hcut (expandGlyph_of_inner hc) [] rest
    rw [List.nil_append] at hcanonical
    rw [hcanonical] at hafter
    exact List.cons_prefix_cons.mpr ⟨rfl, ih hinner ⟨after, (List.cons.inj hafter).2⟩⟩

theorem breaksAt_canonical {c : Char} {rest : List Char} (h : BreaksAt isUnit c rest) :
    BreaksAt isAlphabet c (canonical rest) := by
  have hunit := h.not_unit
  rw [isUnit, Bool.or_eq_false_iff] at hunit
  refine ⟨hunit.1, ?_⟩
  intro hroot
  obtain ⟨rfl, hletters⟩ := List.cons_prefix_cons.mp hroot
  have hprefix := prefix_of_prefix_canonical (List.Subset.refl innerLetters) hletters
  exact h.not_root (List.cons_prefix_cons.mpr ⟨rfl, hprefix⟩)

variable {before rest text : List Char} {c : Char}

theorem canonical_of_breaksAt (h : BreaksAt isUnit c rest) (before : List Char) :
    canonical (before ++ c :: rest) = canonical before ++ c :: canonical rest := by
  have hunit := h.not_unit
  rw [isUnit, Bool.or_eq_false_iff] at hunit
  have hglyph : c ∉ "×÷√²".toList := by simpa using hunit.2
  exact canonical_append_cons (cuts_of_not_isAlphabet hunit.1) (expandGlyph_of_not_glyph hglyph) ..

theorem read_canonical_of_breaksAt (hbefore : before ∈ units∗) (h : BreaksAt isUnit c rest) :
    Token.read (canonical (before ++ c :: rest)) =
      .error (.unexpectedCharacter c (canonical before).length) := by
  have hread := Token.readFrom_of_breaksAt (canonical_mem_kstar hbefore) (breaksAt_canonical h) true 0
  rw [canonical_of_breaksAt h, Token.read, hread, Nat.zero_add]

/-! ## How far spelling moves what follows -/

theorem length_expandGlyph (c : Char) :
    1 ≤ (expandGlyph c).length ∧ ((expandGlyph c).length = 1 ↔ c ≠ '√' ∧ c ≠ '²') := by
  unfold expandGlyph
  split
  all_goals simp_all

theorem length_expandGlyphs (text : List Char) : text.length ≤ (expandGlyphs text).length ∧
    ((expandGlyphs text).length = text.length ↔ ∀ c ∈ text, c ≠ '√' ∧ c ≠ '²') := by
  unfold expandGlyphs
  induction text with
  | nil => simp
  | cons c rest ih =>
    obtain ⟨hle, hiff⟩ := length_expandGlyph c
    rw [List.flatMap_cons, List.length_append, List.length_cons, List.forall_mem_cons, ← ih.2, ← hiff]
    omega

/-- No product is left unwritten in the text. -/
def ProductsWritten (text : List Char) : Prop :=
  text.IsChain fun left right => isProduct left right = false

theorem length_insertProducts (text : List Char) : text.length ≤ (insertProducts text).length ∧
    ((insertProducts text).length = text.length ↔ ProductsWritten text) := by
  unfold ProductsWritten
  fun_induction insertProducts text with
  | case1 left right rest hp ih =>
    simp only [List.length_cons] at ih ⊢
    refine ⟨by omega, iff_of_false (by omega) ?_⟩
    intro hchain
    rw [List.isChain_cons_cons] at hchain
    exact absurd hp (by simp [hchain.1])
  | case2 left right rest hp ih =>
    rw [List.isChain_cons_cons, ← ih.2]
    simp only [List.length_cons] at ih ⊢
    exact ⟨by omega, by simp [hp]⟩
  | case3 text hshort =>
    refine ⟨Nat.le_refl _, iff_of_true rfl ?_⟩
    rcases text with - | ⟨left, - | ⟨right, rest⟩⟩
    · exact .nil
    · exact .singleton left
    · exact absurd rfl (hshort left right rest)

/-- A glyph of one character spelt out makes or hides no product. -/
theorem productsWritten_expandGlyphs_iff (h : ∀ c ∈ text, c ≠ '√' ∧ c ≠ '²') :
    ProductsWritten (expandGlyphs text) ↔ ProductsWritten text := by
  have hsame : ∀ c ≠ '√', c ≠ '²' → ∃ d, expandGlyph c = [d] ∧
      ∀ x, isProduct d x = isProduct c x ∧ isProduct x d = isProduct x c := by
    intro c hroot hsquare
    unfold expandGlyph
    split
    · exact ⟨'*', rfl, by simp [isProduct]⟩
    · exact ⟨'/', rfl, by simp [isProduct]⟩
    · exact absurd rfl hroot
    · exact absurd rfl hsquare
    · exact ⟨c, rfl, by simp⟩
  unfold ProductsWritten expandGlyphs
  induction text with
  | nil => rfl
  | cons left rest ih =>
    obtain ⟨hleft, hrest⟩ := List.forall_mem_cons.mp h
    obtain ⟨x, hx, hxsame⟩ := hsame left hleft.1 hleft.2
    have ih := ih hrest
    cases rest with
    | nil => simp [hx]
    | cons right rest =>
      obtain ⟨hright, -⟩ := List.forall_mem_cons.mp hrest
      obtain ⟨y, hy, hysame⟩ := hsame right hright.1 hright.2
      simp only [List.flatMap_cons, hx, hy, List.singleton_append] at ih ⊢
      rw [List.isChain_cons_cons, List.isChain_cons_cons, (hxsame y).1, (hysame left).2]
      exact and_congr_right fun _ => ih

/-- **Spelling keeps places**, unless there is a glyph that is spelt with several characters, or a
product without a sign. -/
theorem length_canonical_eq_iff (text : List Char) : (canonical text).length = text.length ↔
    (∀ c ∈ text, c ≠ '√' ∧ c ≠ '²') ∧ ProductsWritten text := by
  obtain ⟨hglyphs, hglyphs'⟩ := length_expandGlyphs text
  obtain ⟨hproducts, hproducts'⟩ := length_insertProducts (expandGlyphs text)
  rw [canonical]
  constructor
  · intro h
    have hplain := hglyphs'.mp (by omega)
    exact ⟨hplain, (productsWritten_expandGlyphs_iff hplain).mp (hproducts'.mp (by omega))⟩
  · rintro ⟨hplain, hwritten⟩
    rw [hproducts'.mpr ((productsWritten_expandGlyphs_iff hplain).mpr hwritten), hglyphs'.mpr hplain]

end Spelling

namespace Evaluation

variable {settings : Settings} {expression : List Char} {c : Char} {index : Nat}

/-- No error but those of reading reports a place. -/
theorem evaluate_eq_unexpectedCharacter_iff :
    evaluate settings expression = .ok (.error (.unexpectedCharacter c index)) ↔
      Token.read (Spelling.canonical expression) = .error (.unexpectedCharacter c index) := by
  by_cases hne : expression = []
  · subst hne
    exact iff_of_false (by simp [evaluate]) (by simp [Spelling.canonical, Spelling.expandGlyphs,
      Spelling.insertProducts, Token.read, Token.readFrom])
  · rw [evaluate_eq_error_iff hne, value, orderedTokens, bind_eq_error_iff, map_eq_error_iff]
    refine or_iff_left ?_
    rintro ⟨tokens, -, herror⟩
    have hplace := Postfix.hasNoPlace_of_evaluate herror 1
    simp [EvalError.moveBy] at hplace

/-- **An unexpected character is the first one with which no unit starts.** Its index is that of its
place in the text that is read, behind the spelling of all that stands in front of it. -/
theorem evaluate_eq_unexpectedCharacter_iff_breaksAt :
    evaluate settings expression = .ok (.error (.unexpectedCharacter c index)) ↔
      ∃ before rest, expression = before ++ c :: rest ∧ before ∈ Spelling.units∗ ∧
        BreaksAt Spelling.isUnit c rest ∧ index = (Spelling.canonical before).length := by
  rw [evaluate_eq_unexpectedCharacter_iff]
  constructor
  · intro h
    rcases @Token.exists_breaksAt Spelling.isUnit expression with
      hunits | ⟨before, x, rest, rfl, hbefore, hbreak⟩
    · obtain ⟨tokens, htokens⟩ := (Token.spelt_of_mem_kstar
        (Spelling.canonical_mem_kstar hunits)).exists_readFrom true 0
      rw [Token.read, htokens] at h
      cases h
    · rw [Spelling.read_canonical_of_breaksAt hbefore hbreak] at h
      cases h
      exact ⟨before, rest, rfl, hbefore, hbreak, rfl⟩
  · rintro ⟨before, rest, rfl, hbefore, hbreak, rfl⟩
    exact Spelling.read_canonical_of_breaksAt hbefore hbreak

theorem isGreatest_length_of_breaksAt {before rest : List Char} (hbefore : before ∈ Spelling.units∗)
    (hbreak : BreaksAt Spelling.isUnit c rest) :
    IsGreatest (List.length '' {start | start <+: Spelling.canonical (before ++ c :: rest) ∧
      start ∈ Token.units∗}) (Spelling.canonical before).length := by
  rw [Spelling.canonical_of_breaksAt hbreak]
  exact Token.isGreatest_length_of_breaksAt rfl (Spelling.canonical_mem_kstar hbefore)
    (Spelling.breaksAt_canonical hbreak)

theorem getElem?_canonical_of_breaksAt {before rest : List Char}
    (hbreak : BreaksAt Spelling.isUnit c rest) :
    (Spelling.canonical (before ++ c :: rest))[(Spelling.canonical before).length]? = some c := by
  rw [Spelling.canonical_of_breaksAt hbreak, List.getElem?_append_right (Nat.le_refl _), Nat.sub_self]
  rfl

/-- **The alphabet is exact, and is checked first.** An expression has an unexpected character if and
only if it is not put together from the units of the alphabet, whatever else is wrong with it. The
index is the length of the longest beginning, of the text that is read, that is put together from the
units of the reader, and the character is the one behind it. -/
theorem unexpectedCharacter_iff (settings : Settings) (expression : List Char) :
    ((∃ c index, evaluate settings expression = .ok (.error (.unexpectedCharacter c index))) ↔
        expression ∉ Spelling.units∗) ∧
      ∀ c index, evaluate settings expression = .ok (.error (.unexpectedCharacter c index)) ↔
        IsGreatest (List.length '' {start | start <+: Spelling.canonical expression ∧
          start ∈ Token.units∗}) index ∧ (Spelling.canonical expression)[index]? = some c := by
  rcases @Token.exists_breaksAt Spelling.isUnit expression with
    hunits | ⟨before, x, rest, rfl, hbefore, hbreak⟩
  · have hread : ∀ c index, evaluate settings expression ≠
        .ok (.error (.unexpectedCharacter c index)) := by
      intro c index h
      obtain ⟨before, rest, rfl, hbefore, hbreak, -⟩ :=
        evaluate_eq_unexpectedCharacter_iff_breaksAt.mp h
      exact Token.not_mem_kstar_of_breaksAt rfl hbefore hbreak hunits
    refine ⟨iff_of_false ?_ (not_not.mpr hunits), fun c index => iff_of_false (hread c index) ?_⟩
    · rintro ⟨c, index, h⟩
      exact hread c index h
    · -- The whole text consists of units, and behind it there is no character.
      rintro ⟨hgreatest, hchar⟩
      have hle := hgreatest.2
        ⟨_, ⟨List.prefix_refl _, Spelling.canonical_mem_kstar hunits⟩, rfl⟩
      rw [List.getElem?_eq_none hle] at hchar
      cases hchar
  · have hread : evaluate settings (before ++ x :: rest) =
        .ok (.error (.unexpectedCharacter x (Spelling.canonical before).length)) :=
      evaluate_eq_unexpectedCharacter_iff_breaksAt.mpr ⟨before, rest, rfl, hbefore, hbreak, rfl⟩
    refine ⟨iff_of_true ⟨x, _, hread⟩ (Token.not_mem_kstar_of_breaksAt rfl hbefore hbreak), ?_⟩
    intro c index
    constructor
    · intro h
      rw [hread] at h
      cases h
      exact ⟨isGreatest_length_of_breaksAt hbefore hbreak, getElem?_canonical_of_breaksAt hbreak⟩
    · rintro ⟨hgreatest, hchar⟩
      obtain rfl := hgreatest.unique (isGreatest_length_of_breaksAt hbefore hbreak)
      rw [getElem?_canonical_of_breaksAt hbreak] at hchar
      cases hchar
      exact hread

/-- **The character that an error blames is in the expression**, as the first with which no unit
starts. Its index there is the one that is reported if and only if no root or square sign and no
unwritten product stands in front of it; in the text that is read, it always is. -/
theorem exists_unexpectedCharacter
    (h : evaluate settings expression = .ok (.error (.unexpectedCharacter c index))) :
    (Spelling.canonical expression)[index]? = some c ∧
      ∃ before rest, expression = before ++ c :: rest ∧ before ∈ Spelling.units∗ ∧
        (∀ unit ∈ Spelling.units, ¬unit <+: c :: rest) ∧
        (index = before.length ↔
          (∀ x ∈ before, x ≠ '√' ∧ x ≠ '²') ∧ Spelling.ProductsWritten before) := by
  obtain ⟨before, rest, rfl, hbefore, hbreak, rfl⟩ :=
    evaluate_eq_unexpectedCharacter_iff_breaksAt.mp h
  refine ⟨getElem?_canonical_of_breaksAt hbreak, before, rest, rfl, hbefore, ?_,
    Spelling.length_canonical_eq_iff before⟩
  intro unit hunit
  exact hbreak.not_prefix hunit

/-- A product without a sign moves the character that is blamed by one place. -/
theorem exists_unexpectedCharacter_behind_product :
    evaluate Settings.default "8÷2(3$".toList = .ok (.error (.unexpectedCharacter '$' 6)) ∧
      (Spelling.canonical "8÷2(3$".toList)[6]? = some '$' ∧
      ∃ before rest, "8÷2(3$".toList = before ++ '$' :: rest ∧ before ∈ Spelling.units∗ ∧
        (∀ unit ∈ Spelling.units, ¬unit <+: '$' :: rest) ∧
        (6 = before.length ↔
          (∀ x ∈ before, x ≠ '√' ∧ x ≠ '²') ∧ Spelling.ProductsWritten before) :=
  have hread : evaluate Settings.default "8÷2(3$".toList =
      .ok (.error (.unexpectedCharacter '$' 6)) := by decide +kernel
  ⟨hread, exists_unexpectedCharacter hread⟩

/-- The place that is reported behind a root sign is not even a place of the expression. -/
theorem index_behind_root_sign_outside :
    evaluate Settings.default "√$".toList = .ok (.error (.unexpectedCharacter '$' 4)) ∧
      ¬4 < "√$".toList.length ∧ "√$".toList[4]? ≠ some '$' := by
  decide +kernel

end Evaluation

end Reckoner
