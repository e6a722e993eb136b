import Reckoner.Spelling
/-!
# `Reckoner/Proofs/Spelling.lean` — what spelling leaves alone

Spelling replaces glyphs and puts product signs in. A text without glyphs and parentheses is left as
it is (`expandGlyphs_eq_self`, `insertProducts_eq_self`), and so are the parentheses at the ends of a
text: they start and end nothing but groups (`insertProducts_opening`, `insertProducts_closing`).
-/

set_option autoImplicit false

namespace Reckoner.Spelling

/-! ## Plain texts -/

theorem flatMap_eq_self {spell : Char → List Char} {text : List Char}
    (h : ∀ c ∈ text, spell c = [c]) : text.flatMap spell = text := by
  induction text with
  | nil => rfl
  | cons c rest ih =>
    rw [List.flatMap_cons, h c (by simp), ih fun x hx => h x (List.mem_cons_of_mem c hx)]
    rfl

theorem expandGlyphs_eq_self {text : List Char} (h : ∀ c ∈ text, expandGlyph c = [c]) :
    expandGlyphs text = text :=
  flatMap_eq_self h

theorem insertProducts_eq_self {text : List Char} (h : ∀ c ∈ text, c ≠ '(' ∧ c ≠ ')') :
    insertProducts text = text := by
  fun_induction insertProducts text with
  | case1 left right rest hp ih =>
    have hleft := h left (by simp)
    have hright := h right (by simp)
    exact absurd hp (by simp [isProduct, hleft.2, hright.1])
  | case2 left right rest hp ih =>
    rw [ih fun x hx => h x (List.mem_cons_of_mem left hx)]
  | case3 text hshort => rfl

theorem mem_insertProducts {c : Char} {text : List Char} (h : c ∈ text) :
    c ∈ insertProducts text := by
  fun_induction insertProducts text with
  | case1 left right rest hp ih =>
    rcases List.mem_cons.mp h with rfl | hrest
    · simp
    · exact List.mem_cons_of_mem _ (List.mem_cons_of_mem _ (ih hrest))
  | case2 left right rest hp ih =>
    rcases List.mem_cons.mp h with rfl | hrest
    · simp
    · exact List.mem_cons_of_mem _ (ih hrest)
  | case3 text hshort => exact h

/-- A character that is no glyph is still there. -/
theorem mem_canonical {c : Char} (hc : expandGlyph c = [c]) {text : List Char} (h : c ∈ text) :
    c ∈ canonical text :=
  mem_insertProducts (List.mem_flatMap.mpr ⟨c, h, by simp [hc]⟩)

/-! ## Parentheses at the ends -/

theorem insertProducts_opening (k : Nat) (text : List Char) :
    insertProducts (List.replicate k '(' ++ text) = List.replicate k '(' ++ insertProducts text := by
  induction k with
  | zero => rfl
  | succ k ih =>
    rw [List.replicate_succ, List.cons_append, List.cons_append, ← ih]
    cases List.replicate k '(' ++ text with
    | nil => rfl
    | cons right rest => rfl

theorem isProduct_closing (left : Char) : isProduct left ')' = false := by
  have hdigit : (')').isDigit = false := by decide
  simp [isProduct, hdigit]

theorem insertProducts_cons_closing (c : Char) (m : Nat) :
    insertProducts (c :: List.replicate m ')') = c :: List.replicate m ')' := by
  induction m generalizing c with
  | zero => rfl
  | succ m ih => rw [List.replicate_succ, insertProducts, isProduct_closing, if_neg (by simp), ih]

theorem insertProducts_closing (text : List Char) (m : Nat) :
    insertProducts (text ++ List.replicate m ')') = insertProducts text ++ List.replicate m ')' := by
  fun_induction insertProducts text with
  | case1 left right rest hp ih =>
    rw [List.cons_append, List.cons_append, insertProducts, if_pos hp, ← List.cons_append, ih]
    rfl
  | case2 left right rest hp ih =>
    rw [List.cons_append, List.cons_append, insertProducts, if_neg hp, ← List.cons_append, ih]
    rfl
  | case3 text hshort =>
    match text with
    | [] =>
      cases m with
      | zero => rfl
      | succ m => exact insertProducts_cons_closing ')' m
    | [c] => exact insertProducts_cons_closing c m
    | left :: right :: rest => exact absurd rfl (hshort left right rest)

theorem flatMap_expandGlyph_replicate {c : Char} (hc : expandGlyph c = [c]) (k : Nat) :
    (List.replicate k c).flatMap expandGlyph = List.replicate k c := by
  induction k with
  | zero => rfl
  | succ k ih => rw [List.replicate_succ, List.flatMap_cons, hc, ih, List.singleton_append]

end Reckoner.Spelling
