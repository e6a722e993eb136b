import Mathlib.Data.List.Perm.Basic
import Mathlib.Data.List.SplitBy
import Reckoner.Proofs.Totality
import Reckoner.Proofs.Unreadable
/-!
# `Reckoner/Proofs/Spelling/NormalForm.lean` — the canonical spelling is a normal form

Glyphs are spelt out all at once, each where it stands. It would come to the same to replace one glyph
after another in the whole text, in any order (`foldl_replaceGlyph`): no glyph is spelt with a glyph.
Product signs are then put between the factors that stand side by side, and nowhere else
(`insertProducts_eq_intercalate`), and behind a product sign or before one there are no such factors
(`productsWritten_insertProducts`).

> **A canonical text is its own canonical spelling** (`canonical_canonical`). So an expression whose
> glyphs have been spelt out, or whose products have been written as well, has the outcome that it had
> before (`spelling_normalForm`): an evaluation depends on nothing but the canonical spelling
> (`evaluate_congr`).
-/

set_option autoImplicit false

namespace Reckoner

namespace Spelling

variable {text : List Char}

/-! ## One glyph after another -/

/-- The glyphs and how they are spelt. -/
def glyphSpellings : List (Char × List Char) :=
  [('×', ['*']), ('÷', ['/']), ('√', ['s', 'q', 'r', 't']), ('²', ['^', '2'])]

/-- A character with one glyph replaced. -/
def replaceChar (glyph : Char × List Char) (c : Char) : List Char :=
  if c = glyph.1 then glyph.2 else [c]

/-- The text with one glyph replaced wherever it stands. -/
def replaceGlyph (text : List Char) (glyph : Char × List Char) : List Char :=
  text.flatMap (replaceChar glyph)

/-- A glyph has one spelling, and no glyph stands in it. -/
theorem glyphSpellings_apart : ∀ g ∈ glyphSpellings, ∀ h ∈ glyphSpellings,
    (g.1 = h.1 → g = h) ∧ h.1 ∉ g.2 := by
  decide

section Glyphs

variable {g h : Char × List Char} {c : Char}

theorem replaceChar_of_ne (hc : c ≠ g.1) : replaceChar g c = [c] := if_neg hc

/-- A glyph that is neither the character nor in its spelling changes nothing. -/
theorem flatMap_replaceChar (hspelling : h.1 ∉ g.2) (hc : c ≠ h.1) :
    (replaceChar g c).flatMap (replaceChar h) = replaceChar g c := by
  apply flatMap_eq_self
  intro x hx
  apply replaceChar_of_ne
  rintro rfl
  unfold replaceChar at hx
  split at hx
  · exact hspelling hx
  · exact hc (List.mem_singleton.mp hx).symm

/-- Of two glyphs, a character is one at most. -/
theorem replaceChar_comm (hg : g ∈ glyphSpellings) (hh : h ∈ glyphSpellings) (c : Char) :
    (replaceChar g c).flatMap (replaceChar h) = (replaceChar h c).flatMap (replaceChar g) := by
  obtain ⟨hsame, hgh⟩ := glyphSpellings_apart g hg h hh
  obtain ⟨-, hhg⟩ := glyphSpellings_apart h hh g hg
  by_cases hch : c = h.1
  · by_cases hcg : c = g.1
    · rw [hsame (hcg.symm.trans hch)]
    · rw [flatMap_replaceChar hhg hcg, replaceChar_of_ne hcg, List.flatMap_singleton]
  · rw [flatMap_replaceChar hgh hch, replaceChar_of_ne hch, List.flatMap_singleton]

theorem replaceGlyph_comm (hg : g ∈ glyphSpellings) (hh : h ∈ glyphSpellings) (text : List Char) :
    replaceGlyph (replaceGlyph text g) h = replaceGlyph (replaceGlyph text h) g := by
  simp only [replaceGlyph, List.flatMap_assoc]
  exact List.flatMap_congr fun c _ => replaceChar_comm hg hh c

end Glyphs

theorem foldl_replaceGlyph_glyphSpellings (text : List Char) :
    glyphSpellings.foldl replaceGlyph text = expandGlyphs text := by
  simp only [glyphSpellings, List.foldl_cons, List.foldl_nil, replaceGlyph, List.flatMap_assoc]
  refine List.flatMap_congr fun c _ => ?_
  unfold expandGlyph
  split
  case h_5 => simp_all [replaceChar]
  all_goals rfl

/-- **The glyphs may be replaced one after another, in any order.** -/
theorem foldl_replaceGlyph {order : List (Char × List Char)} (horder : order.Perm glyphSpellings)
    (text : List Char) : order.foldl replaceGlyph text = expandGlyphs text := by
  rw [← foldl_replaceGlyph_glyphSpellings]
  apply horder.foldl_eq'
  intro g hg h hh text
  exact replaceGlyph_comm (horder.mem_iff.mp hg) (horder.mem_iff.mp hh) text

theorem expandGlyphs_append (before after : List Char) :
    expandGlyphs (before ++ after) = expandGlyphs before ++ expandGlyphs after :=
  List.flatMap_append

/-- What a glyph is spelt with is no glyph. -/
theorem expandGlyph_of_mem_expandGlyph {c x : Char} (h : c ∈ expandGlyph x) : expandGlyph c = [c] := by
  by_cases hglyph : x ∈ "×÷√²".toList
  · have hall : "×÷√²".toList.all (fun x => (expandGlyph x).all fun c => expandGlyph c == [c]) = true := by
      decide
    have hx := List.all_eq_true.mp (List.all_eq_true.mp hall x hglyph) c h
    exact eq_of_beq hx
  · have hplain := expandGlyph_of_not_glyph hglyph
    rw [hplain, List.mem_singleton] at h
    rwa [h]

theorem expandGlyph_of_mem_expandGlyphs {c : Char} (h : c ∈ expandGlyphs text) :
    expandGlyph c = [c] := by
  obtain ⟨x, -, hx⟩ := List.mem_flatMap.mp h
  exact expandGlyph_of_mem_expandGlyph hx

theorem expandGlyphs_expandGlyphs (text : List Char) :
    expandGlyphs (expandGlyphs text) = expandGlyphs text :=
  expandGlyphs_eq_self fun _ => expandGlyph_of_mem_expandGlyphs

/-! ## Factors side by side -/

/-- The two characters stand for factors, if they are neighbours: a digit or a closing parenthesis
before an opening one, or a closing parenthesis before a digit. -/
def AreFactors (left right : Char) : Prop :=
  left.isDigit = true ∧ right = '(' ∨ left = ')' ∧ right = '(' ∨ left = ')' ∧ right.isDigit = true

instance (left right : Char) : Decidable (AreFactors left right) :=
  inferInstanceAs (Decidable (_ ∨ _ ∨ _))

theorem isProduct_eq_decide (left right : Char) :
    isProduct left right = decide (AreFactors left right) := by
  rw [Bool.eq_iff_iff, decide_eq_true_iff]
  simp [isProduct, AreFactors, and_or_left]

theorem productsWritten_iff :
    ProductsWritten text ↔ text.IsChain fun left right => ¬AreFactors left right := by
  simp only [ProductsWritten, isProduct_eq_decide, decide_eq_false_iff_not]

/-- What is neither a digit nor a parenthesis is no factor's end. -/
theorem isProduct_star (c : Char) : isProduct c '*' = false ∧ isProduct '*' c = false :=
  cuts_of (by decide) (by decide) (by decide) c

/-- **No factors are left side by side.** -/
theorem productsWritten_insertProducts (text : List Char) : ProductsWritten (insertProducts text) := by
  unfold ProductsWritten
  fun_induction insertProducts text with
  | case1 left right rest hp ih =>
    have hsign : ∀ y ∈ (insertProducts (right :: rest)).head?, isProduct '*' y = false :=
      fun y _ => (isProduct_star y).2
    exact .cons_cons (isProduct_star left).1 (List.isChain_cons.mpr ⟨hsign, ih⟩)
  | case2 left right rest hp ih =>
    refine List.isChain_cons.mpr ⟨fun y hy => ?_, ih⟩
    rw [head?_insertProducts] at hy
    obtain rfl : right = y := by simpa using hy
    simpa using hp
  | case3 text hshort =>
    rcases text with - | ⟨left, - | ⟨right, rest⟩⟩
    · exact .nil
    · exact .singleton left
    · exact absurd rfl (hshort left right rest)

theorem insertProducts_of_productsWritten (h : ProductsWritten text) : insertProducts text = text := by
  unfold ProductsWritten at h
  fun_induction insertProducts text with
  | case1 left right rest hp ih => exact absurd hp (by simp [(List.isChain_cons_cons.mp h).1])
  | case2 left right rest hp ih => rw [ih (List.isChain_cons_cons.mp h).2]
  | case3 text hshort => rfl

/-- A neighbour in front that belongs to the first piece is put into it. -/
theorem exists_splitBy_cons {r : Char → Char → Bool} {left right : Char} (h : r left right = true)
    (rest : List Char) : ∃ piece pieces, (right :: rest).splitBy r = piece :: pieces ∧
      (left :: right :: rest).splitBy r = (left :: piece) :: pieces := by
  obtain ⟨piece, pieces, hsplit⟩ := List.exists_cons_of_ne_nil
    (List.splitBy_ne_nil.mpr (List.cons_ne_nil right rest) : (right :: rest).splitBy r ≠ [])
  refine ⟨piece, pieces, hsplit, List.splitBy_eq_iff.mpr ?_⟩
  obtain ⟨hflatten, hnil, hinside, hbetween⟩ := List.splitBy_eq_iff.mp hsplit
  obtain ⟨hne, hnil⟩ := not_or.mp (mt List.mem_cons.mpr hnil)
  obtain ⟨first, inner, rfl⟩ := List.exists_cons_of_ne_nil (Ne.symm hne)
  obtain ⟨rfl, -⟩ := List.cons.inj hflatten
  obtain ⟨hfirst, hinside⟩ := List.forall_mem_cons.mp hinside
  refine ⟨by rw [hflatten]; rfl, by simpa using hnil, ?_, ?_⟩
  · exact List.forall_mem_cons.mpr ⟨List.isChain_cons_cons.mpr ⟨h, hfirst⟩, hinside⟩
  · obtain ⟨hhead, htail⟩ := List.isChain_cons.mp hbetween
    refine List.isChain_cons.mpr ⟨fun next hnext => ?_, htail⟩
    obtain ⟨hlast_ne, hnext_ne, hcut⟩ := hhead next hnext
    exact ⟨List.cons_ne_nil _ _, hnext_ne, by rwa [List.getLast_cons hlast_ne]⟩

/-- **The text is cut between the factors that stand side by side, and joined by product signs.** -/
theorem insertProducts_eq_intercalate (text : List Char) : insertProducts text =
    ['*'].intercalate (text.splitBy fun left right => !decide (AreFactors left right)) := by
  simp only [← isProduct_eq_decide]
  fun_induction insertProducts text with
  | case1 left right rest hp ih =>
    have hsplit : (left :: right :: rest).splitBy (fun left right => !isProduct left right) =
        [left] :: (right :: rest).splitBy fun left right => !isProduct left right :=
      List.splitBy_append_cons (l := [left]) rest (by simpa using hp)
    rw [hsplit, ih,
      List.intercalate_cons_of_ne_nil (List.splitBy_ne_nil.mpr (List.cons_ne_nil right rest))]
    rfl
  | case2 left right rest hp ih =>
    have hwhole : (!isProduct left right) = true := by simpa using hp
    obtain ⟨piece, pieces, hsplit, hcons⟩ :=
      exists_splitBy_cons (r := fun left right => !isProduct left right) hwhole rest
    rw [hcons, ih, hsplit]
    cases pieces with
    | nil => simp
    | cons next pieces => simp
  | case3 text hshort =>
    rcases text with - | ⟨left, - | ⟨right, rest⟩⟩
    · rfl
    · rfl
    · exact absurd rfl (hshort left right rest)

/-! ## Canonical texts -/

theorem mem_insertProducts_cases {c : Char} (h : c ∈ insertProducts text) : c ∈ text ∨ c = '*' := by
  fun_induction insertProducts text with
  | case1 left right rest hp ih =>
    simp only [List.mem_cons] at h ih ⊢
    tauto
  | case2 left right rest hp ih =>
    simp only [List.mem_cons] at h ih ⊢
    tauto
  | case3 text hshort => exact .inl h

/-- No glyph is left in a canonical text. -/
theorem expandGlyphs_canonical (text : List Char) : expandGlyphs (canonical text) = canonical text := by
  refine expandGlyphs_eq_self fun c hc => ?_
  rcases mem_insertProducts_cases hc with hc | rfl
  · exact expandGlyph_of_mem_expandGlyphs hc
  · rfl

theorem canonical_expandGlyphs (text : List Char) : canonical (expandGlyphs text) = canonical text := by
  rw [canonical, expandGlyphs_expandGlyphs, canonical]

/-- **A canonical text is its own canonical spelling.** -/
theorem canonical_canonical (text : List Char) : canonical (canonical text) = canonical text := by
  have hwritten : ProductsWritten (canonical text) := productsWritten_insertProducts _
  rw [canonical, expandGlyphs_canonical, insertProducts_of_productsWritten hwritten]

theorem canonical_eq_nil_iff : canonical text = [] ↔ text = [] := by
  constructor
  · intro h
    have hlength := (length_expandGlyphs text).1.trans (length_insertProducts (expandGlyphs text)).1
    rw [← canonical, h] at hlength
    exact List.length_eq_zero_iff.mp (Nat.le_zero.mp hlength)
  · rintro rfl
    rfl

end Spelling

namespace Evaluation

open Spelling

/-- **An evaluation depends on nothing but the canonical spelling.** -/
theorem evaluate_congr (settings : Settings) {expression other : List Char}
    (h : canonical expression = canonical other) :
    evaluate settings expression = evaluate settings other := by
  have hempty : expression.isEmpty = other.isEmpty := by
    rw [Bool.eq_iff_iff, List.isEmpty_iff, List.isEmpty_iff, ← canonical_eq_nil_iff, h,
      canonical_eq_nil_iff]
  rw [evaluate, evaluate, hempty, value, value, orderedTokens, orderedTokens, h]

/-- **The canonical spelling is a normal form.** Glyphs are spelt out part by part, and may be replaced
one after another in any order; a product sign is put between any two factors that stand side by side,
and nowhere else, which leaves none side by side; a canonical text stays as it is. So with any settings
of up to a thousand digits, an expression has the outcome of the text with its glyphs spelt out, and of
its canonical spelling. -/
theorem spelling_normalForm :
    (∀ before after, expandGlyphs (before ++ after) = expandGlyphs before ++ expandGlyphs after) ∧
      (∀ order : List (Char × List Char), order.Perm glyphSpellings →
        ∀ text, order.foldl replaceGlyph text = expandGlyphs text) ∧
      (∀ text, insertProducts text =
          ['*'].intercalate (text.splitBy fun left right => !decide (AreFactors left right)) ∧
        (insertProducts text).IsChain fun left right => ¬AreFactors left right) ∧
      (∀ text, canonical (canonical text) = canonical text) ∧
      ∀ settings : Settings, settings.DigitsWithin 1000 → ∀ expression, ∃ outcome,
        evaluate settings expression = .ok outcome ∧
          evaluate settings (expandGlyphs expression) = .ok outcome ∧
          evaluate settings (canonical expression) = .ok outcome := by
  refine ⟨expandGlyphs_append, fun order horder => foldl_replaceGlyph horder, fun text => ?_,
    canonical_canonical, fun settings hdigits expression => ?_⟩
  · exact ⟨insertProducts_eq_intercalate text,
      productsWritten_iff.mp (productsWritten_insertProducts text)⟩
  · obtain ⟨outcome, houtcome⟩ := exists_outcome hdigits expression
    refine ⟨outcome, houtcome, ?_, ?_⟩
    · rw [evaluate_congr settings (canonical_expandGlyphs expression), houtcome]
    · rw [evaluate_congr settings (canonical_canonical expression), houtcome]

/-- The glyphs are replaced from the last to the first, and a root, a square and a group are factors. -/
theorem spelling_normalForm_of_factors :
    glyphSpellings.reverse.Perm glyphSpellings ∧
      glyphSpellings.reverse.foldl replaceGlyph "√(9)2²×(1+1)3".toList = "sqrt(9)2^2*(1+1)3".toList ∧
      canonical "√(9)2²×(1+1)3".toList = "sqrt(9)*2^2*(1+1)*3".toList ∧
      Settings.default.DigitsWithin 1000 ∧
      ∃ outcome, evaluate Settings.default "√(9)2²×(1+1)3".toList = .ok outcome ∧
        evaluate Settings.default (expandGlyphs "√(9)2²×(1+1)3".toList) = .ok outcome ∧
        evaluate Settings.default (canonical "√(9)2²×(1+1)3".toList) = .ok outcome ∧
        outcome = .ok "72".toList := by
  obtain ⟨-, horder, -, -, houtcome⟩ := spelling_normalForm
  have hperm := glyphSpellings.reverse_perm
  obtain ⟨outcome, htyped, hspelt, hcanonical⟩ :=
    houtcome Settings.default Settings.digitsWithin_default "√(9)2²×(1+1)3".toList
  refine ⟨hperm, (horder _ hperm _).trans (by decide), by decide, Settings.digitsWithin_default,
    outcome, htyped, hspelt, hcanonical, ?_⟩
  have hvalue : evaluate Settings.default "√(9)2²×(1+1)3".toList = .ok (.ok "72".toList) := by
    decide +kernel
  rw [htyped] at hvalue
  exact Except.ok.inj hvalue

end Evaluation

end Reckoner
