import Mathlib.Data.List.TakeWhile
import Reckoner.Evaluation
import Reckoner.Proofs.Spelling
import Reckoner.Proofs.Token.Reading
/-!
# `Reckoner/Proofs/Token/Square.lean` — what a square sign is read as

A square sign is spelt out as a power sign and the digit two before anything is read. The power sign
cuts the text in two for the spelling (`insertProducts_append_cons`) and for the reader
(`readFrom_append_cons`), so what stands before a square is read as if it stood alone. Nothing cuts
the text behind the digit:

> **A square is a power whose exponent begins with two.** The exponent takes in the digits and
> points that follow the square (`exists_read_square`), so it is two if and only if none follows
> (`square_isPrefix_iff`).
-/

set_option autoImplicit false

namespace Reckoner

/-! ## Spelling on both sides of a sign -/

namespace Spelling

/-- No product sign is ever put before or behind the character. -/
def Cuts (c : Char) : Prop := ∀ x, isProduct x c = false ∧ isProduct c x = false

theorem cuts_of {c : Char} (hdigit : c.isDigit = false) (hopening : c ≠ '(') (hclosing : c ≠ ')') :
    Cuts c := by
  intro x
  simp [isProduct, hdigit, hopening, hclosing]

theorem cuts_power : Cuts '^' := cuts_of (by decide) (by decide) (by decide)

theorem insertProducts_append_cons {c : Char} (hc : Cuts c) (left right : List Char) :
    insertProducts (left ++ c :: right) = insertProducts left ++ c :: insertProducts right := by
  have hcons : insertProducts (c :: right) = c :: insertProducts right := by
    cases right with
    | nil => rfl
    | cons x rest => rw [insertProducts, if_neg (by simp [(hc x).2])]
  fun_induction insertProducts left with
  | case1 x y rest hp ih =>
    show insertProducts (x :: y :: (rest ++ c :: right)) = _
    rw [insertProducts, if_pos hp]
    exact congrArg (x :: '*' :: ·) ih
  | case2 x y rest hp ih =>
    show insertProducts (x :: y :: (rest ++ c :: right)) = _
    rw [insertProducts, if_neg hp]
    exact congrArg (x :: ·) ih
  | case3 text hshort =>
    cases text with
    | nil => exact hcons
    | cons x rest =>
      cases rest with
      | nil =>
        show insertProducts (x :: c :: right) = _
        rw [insertProducts, if_neg (by simp [(hc x).1]), hcons]
        rfl
      | cons y rest => exact absurd rfl (hshort x y rest)

theorem canonical_square (text rest : List Char) :
    canonical (text ++ '²' :: rest) =
      canonical text ++ '^' :: insertProducts ('2' :: expandGlyphs rest) := by
  have hglyphs : expandGlyphs (text ++ '²' :: rest) =
      expandGlyphs text ++ '^' :: ('2' :: expandGlyphs rest) := by
    simp [expandGlyphs, expandGlyph]
  rw [canonical, hglyphs, insertProducts_append_cons cuts_power, canonical]

end Spelling

/-! ## A number and what follows it -/

namespace Token

theorem noNumberFirst_dropWhile (text : List Char) : NoNumberFirst (text.dropWhile isNumberChar) := by
  intro c hc
  have hnot := List.head?_dropWhile_not isNumberChar text
  rw [Option.mem_def.mp hc] at hnot
  simpa using hnot

theorem noNumberFirst_iff_takeWhile {text : List Char} :
    NoNumberFirst text ↔ text.takeWhile isNumberChar = [] := by
  cases text with
  | nil => simp [NoNumberFirst]
  | cons c rest => by_cases hc : isNumberChar c = true <;> simp [NoNumberFirst, hc]

end Token

namespace Spelling

open Token

theorem expandGlyph_of_isNumberChar {c : Char} (hc : isNumberChar c = true) :
    expandGlyph c = [c] := by
  unfold expandGlyph
  split
  all_goals first
    | rfl
    | exact absurd hc (by decide)

theorem expandGlyphs_of_isNumberChar {text : List Char} (h : ∀ c ∈ text, isNumberChar c = true) :
    expandGlyphs text = text :=
  expandGlyphs_eq_self fun c hc => expandGlyph_of_isNumberChar (h c hc)

/-- No glyph is spelt with a digit or a point in front. -/
theorem noNumberFirst_expandGlyphs {text : List Char} (h : NoNumberFirst text) :
    NoNumberFirst (expandGlyphs text) := by
  cases text with
  | nil => exact h
  | cons c rest =>
    have hc : isNumberChar c = false := h c rfl
    intro x hx
    have hhead : x ∈ (expandGlyph c).head? := by
      have hne : expandGlyph c ≠ [] := by
        unfold expandGlyph
        split <;> simp
      obtain ⟨y, ys, hys⟩ := List.exists_cons_of_ne_nil hne
      simpa [expandGlyphs, hys] using hx
    unfold expandGlyph at hhead
    split at hhead
    all_goals
      obtain rfl : _ = x := by simpa using hhead
      first
        | rfl
        | exact hc

theorem head?_insertProducts (text : List Char) : (insertProducts text).head? = text.head? := by
  fun_induction insertProducts text <;> rfl

theorem eq_opening_of_isProduct {left right : Char} (hleft : isNumberChar left = true)
    (h : isProduct left right = true) : right = '(' := by
  have hclosing : left ≠ ')' := by
    rintro rfl
    exact absurd hleft (by decide)
  simp only [isProduct, Bool.or_eq_true, Bool.and_eq_true, decide_eq_true_eq] at h
  rcases h with ⟨-, h⟩ | ⟨h, -⟩
  · exact h
  · exact absurd h hclosing

/-- A number stays in one piece, and no product sign at its end goes on with it. -/
theorem exists_insertProducts_number {number rest : List Char}
    (hnumber : ∀ c ∈ number, isNumberChar c = true) (hrest : NoNumberFirst rest) :
    ∃ rest', insertProducts (number ++ rest) = number ++ rest' ∧ NoNumberFirst rest' := by
  induction number with
  | nil =>
    refine ⟨insertProducts rest, rfl, ?_⟩
    intro c hc
    rw [head?_insertProducts] at hc
    exact hrest c hc
  | cons c number ih =>
    obtain ⟨rest', hinsert, hfirst⟩ := ih fun x hx => hnumber x (List.mem_cons_of_mem c hx)
    rw [List.cons_append]
    cases htail : number ++ rest with
    | nil =>
      obtain ⟨rfl, rfl⟩ := List.append_eq_nil_iff.mp htail
      exact ⟨[], rfl, hrest⟩
    | cons x tail =>
      rw [htail] at hinsert
      by_cases hp : isProduct c x = true
      · -- A product sign stands before a parenthesis, so the number ends there.
        have hx : x = '(' := eq_opening_of_isProduct (hnumber c (by simp)) hp
        have hend : number = [] := by
          cases number with
          | nil => rfl
          | cons d number =>
            obtain ⟨rfl, -⟩ := List.cons.inj htail
            exact absurd (hnumber d (by simp)) (by simp [hx, isNumberChar])
        subst hend
        refine ⟨'*' :: rest', ?_, ?_⟩
        · rw [insertProducts, if_pos hp, hinsert]
          rfl
        · intro y hy
          obtain rfl : '*' = y := by simpa using hy
          rfl
      · rw [insertProducts, if_neg hp, hinsert]
        exact ⟨rest', rfl, hfirst⟩

end Spelling

/-! ## Reading on both sides of a sign -/

namespace Token

/-- The character is the token wherever it stands. -/
structure IsSign (c : Char) (token : Token) : Prop where
  not_number : isNumberChar c = false
  not_root : c ∉ rootLetters
  eq_token : ∀ due, ofChar? due c = some token

theorem isSign_power : IsSign '^' (.binary .power) where
  not_number := rfl
  not_root := by decide
  eq_token due := by cases due <;> rfl

theorem extendNumber_append_cons {token : Token} (h : ∀ text, token ≠ .number text) (c : Char)
    (left right : List Token) :
    extendNumber c (left ++ token :: right) = extendNumber c left ++ token :: right := by
  cases left with
  | nil =>
    cases token with
    | number text => exact absurd rfl (h text)
    | _ => rfl
  | cons first left => cases first <;> rfl

/-- **A sign cuts the reading in two.** What stands before it is read alone, and what stands behind
it as after the token of the sign. -/
theorem readFrom_append_cons {c : Char} {token : Token} (hc : IsSign c token) (due : Bool)
    (index : Nat) (left right : List Char) :
    readFrom due index (left ++ c :: right) = (readFrom due index left).bind fun tokens =>
      (readFrom token.expectsOperand (index + left.length + 1) right).map (tokens ++ token :: ·) := by
  have hnot : ∀ text, token ≠ .number text := not_number_of_ofChar? (hc.eq_token true)
  -- A sign does not complete the letters of a root.
  have hroot : ∀ {x rest}, (∀ rest', x = 's' → rest = 'q' :: 'r' :: 't' :: rest' → False) →
      ¬rootLetters <+: x :: (rest ++ c :: right) := fun h hp =>
    not_startsRoot_of h (prefix_of_prefix_append_cons hc.not_root hp)
  fun_induction readFrom due index left with
  | case1 due index =>
    have hletters : ¬rootLetters <+: c :: right := by
      apply not_startsRoot
      rintro rfl
      exact hc.not_root (by decide)
    rw [List.nil_append, readFrom_cons hletters, if_neg (by simp [hc.not_number]), hc.eq_token]
    rfl
  | case2 due index rest ih =>
    show readFrom due index (rootLetters ++ (rest ++ c :: right)) = _
    have hindex : index + 4 + rest.length + 1 = index + (rest.length + 4) + 1 := by omega
    rw [readFrom_root, ih, hindex]
    cases readFrom true (index + 4) rest with
    | error e => rfl
    | ok tokens =>
      show ((readFrom _ (index + (rest.length + 4) + 1) right).map _).map _ = (readFrom _ _ right).map _
      cases readFrom token.expectsOperand (index + (rest.length + 4) + 1) right <;> rfl
  | case3 due index x rest h hnumber ih =>
    have hindex : index + 1 + rest.length + 1 = index + (rest.length + 1) + 1 := by omega
    rw [List.cons_append, readFrom_cons (hroot h), if_pos hnumber, ih, hindex]
    cases readFrom false (index + 1) rest with
    | error e => rfl
    | ok tokens =>
      show ((readFrom _ _ right).map _).map _ = (readFrom _ (index + (rest.length + 1) + 1) right).map _
      cases readFrom token.expectsOperand (index + (rest.length + 1) + 1) right with
      | error e => rfl
      | ok right => exact congrArg _ (extendNumber_append_cons hnot x tokens right)
  | case4 due index x rest h hnumber first hfirst ih =>
    rw [List.cons_append, readFrom_cons (hroot h), if_neg hnumber, hfirst]
    show (readFrom _ _ _).map _ = _
    have hindex : index + 1 + rest.length + 1 = index + (rest.length + 1) + 1 := by omega
    rw [ih, hindex]
    cases readFrom first.expectsOperand (index + 1) rest with
    | error e => rfl
    | ok tokens =>
      show ((readFrom _ _ right).map _).map _ = (readFrom _ (index + (rest.length + 1) + 1) right).map _
      cases readFrom token.expectsOperand (index + (rest.length + 1) + 1) right <;> rfl
  | case5 due index x rest h hnumber hnone =>
    rw [List.cons_append, readFrom_cons (hroot h), if_neg hnumber, hnone]
    rfl

/-! ## Squares -/

/-- **The exponent of a square takes in the digits and points behind it**, and no more than these;
what stands before the square is read as if it stood alone. -/
theorem exists_read_square {text rest : List Char} {tokens : List Token}
    (h : read (Spelling.canonical (text ++ '²' :: rest)) = .ok tokens) :
    ∃ before after, read (Spelling.canonical text) = .ok before ∧
      tokens = before ++
        .binary .power :: .number ('2' :: rest.takeWhile isNumberChar) :: after := by
  have hrun : ∀ c ∈ '2' :: rest.takeWhile isNumberChar, isNumberChar c = true := by
    intro c hc
    rcases List.mem_cons.mp hc with rfl | hc
    · rfl
    · exact List.mem_takeWhile_imp hc
  have hglyphs : '2' :: Spelling.expandGlyphs rest = ('2' :: rest.takeWhile isNumberChar) ++
      Spelling.expandGlyphs (rest.dropWhile isNumberChar) := by
    have hsplit := List.takeWhile_append_dropWhile (p := isNumberChar) (l := rest)
    have hsame := Spelling.expandGlyphs_of_isNumberChar fun c hc => hrun c (List.mem_cons_of_mem _ hc)
    rw [← hsplit, Spelling.expandGlyphs, List.flatMap_append, hsplit]
    exact congrArg (fun run => '2' :: (run ++ _)) hsame
  obtain ⟨rest', hinsert, hfirst⟩ := Spelling.exists_insertProducts_number hrun
    (Spelling.noNumberFirst_expandGlyphs (noNumberFirst_dropWhile rest))
  rw [Spelling.canonical_square, hglyphs, hinsert, read, readFrom_append_cons isSign_power] at h
  obtain ⟨before, hbefore, h⟩ := bind_eq_ok_iff.mp h
  obtain ⟨behind, hbehind, rfl⟩ := map_eq_ok_iff.mp h
  rw [readFrom_number_append (by simp) hrun hfirst] at hbehind
  obtain ⟨after, -, rfl⟩ := map_eq_ok_iff.mp hbehind
  exact ⟨before, after, hbefore, rfl⟩

/-- **A square is the power with exponent two if and only if no digit or point follows it.** Of
every text with a square in it that is read at all, the tokens begin with those of the part before
the square, a power, and a number; and the number is two exactly then. -/
theorem square_isPrefix_iff {text rest : List Char} {tokens : List Token}
    (h : read (Spelling.canonical (text ++ '²' :: rest)) = .ok tokens) :
    ∃ before, read (Spelling.canonical text) = .ok before ∧
      before ++ [.binary .power, .number ('2' :: rest.takeWhile isNumberChar)] <+: tokens ∧
      (before ++ [.binary .power, .number ['2']] <+: tokens ↔ NoNumberFirst rest) := by
  obtain ⟨before, after, hbefore, rfl⟩ := exists_read_square h
  refine ⟨before, hbefore, ⟨after, by simp⟩, ?_⟩
  rw [noNumberFirst_iff_takeWhile, List.prefix_append_right_inj]
  constructor
  · intro hprefix
    simpa using hprefix
  · intro hrun
    rw [hrun]
    exact ⟨after, rfl⟩

/-- The square of three is taken before one is added. -/
theorem square_isPrefix_before_sum :
    ∃ tokens, read (Spelling.canonical "3²+1".toList) = .ok tokens ∧
      ∃ before, read (Spelling.canonical "3".toList) = .ok before ∧
        before ++ [.binary .power, .number ('2' :: "+1".toList.takeWhile isNumberChar)] <+: tokens ∧
        (before ++ [.binary .power, .number ['2']] <+: tokens ↔ NoNumberFirst "+1".toList) :=
  have hread : read (Spelling.canonical ("3".toList ++ '²' :: "+1".toList)) =
      .ok [.number ['3'], .binary .power, .number ['2'], .binary .add, .number ['1']] := by
    decide +kernel
  ⟨_, hread, square_isPrefix_iff hread⟩

/-- Two squared with a five behind it is two to the power of twenty-five. -/
theorem square_before_digit_is_higher_power :
    Spelling.canonical "2²5".toList = "2^25".toList ∧
      read (Spelling.canonical "2".toList) = .ok [.number ['2']] ∧
      read (Spelling.canonical "2²5".toList) =
        .ok [.number ['2'], .binary .power, .number ['2', '5']] ∧
      ¬[.number ['2'], .binary .power, .number ['2']] <+:
        [Token.number ['2'], .binary .power, .number ['2', '5']] ∧
      Evaluation.evaluate Settings.default "2²5".toList = .ok (.ok "33554432".toList) := by
  decide +kernel

end Token

end Reckoner
