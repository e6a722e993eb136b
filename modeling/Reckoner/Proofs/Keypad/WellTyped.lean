import Reckoner.Proofs.Display.Operand
import Reckoner.Proofs.Keypad.Consistency
import Reckoner.Proofs.Token.Alphabet
/-!
# `Reckoner/Proofs/Keypad/WellTyped.lean` — what the keys can type

The keys do not let everything be typed. An operator replaces the operator before it, a point is
typed once in a number, and a parenthesis is closed only if one is open. But delete takes one
character where a key has typed two, and a result is taken over as an operand.

> **What has been typed is well-typed** (`wellTyped_of_run`). In every state that is reached and shows
> no result, with any settings, the expression consists of what is on the keys, no two operators
> stand side by side, no number has two points, and no parenthesis is closed that has not been opened.
> So it is read without an error.

Three of the four are about what stands side by side, and none is lost at the end of the text where
delete takes it away (`WellTyped.of_start`). So each key is a matter of one character put behind the
text (`WellTyped.concat`), or of two, one after the other. The keypad looks for a point in more than
the reader would take for one number: it goes back to the last operator, over parentheses and roots.
-/

set_option autoImplicit false

namespace Reckoner.Keypad

open State (endsNumber isOperatorGlyph)
open Token (isNumberChar)

/-- The characters on the keys. -/
def isKeyChar (c : Char) : Bool := c.isDigit || ".+-×÷()√²".toList.contains c

/-- **The text is well-typed.** -/
structure WellTyped (text : List Char) : Prop where
  on_keys : ∀ c ∈ text, isKeyChar c = true
  operators_apart : ∀ a b, [a, b] <:+: text → endsNumber a = true → endsNumber b = false
  one_point : ∀ number, number <:+: text → (∀ c ∈ number, isNumberChar c = true) →
    number.count '.' ≤ 1
  opened_first : ∀ start, start <+: text → start.count ')' ≤ start.count '('

/-! ## Characters -/

theorem endsNumber_eq_true_iff {c : Char} :
    endsNumber c = true ↔ c = '+' ∨ c = '-' ∨ c = '×' ∨ c = '÷' := by
  simp [endsNumber]

theorem not_endsNumber_of_isNumberChar {c : Char} (h : isNumberChar c = true) :
    endsNumber c = false := by
  rw [Bool.eq_false_iff]
  intro hoperator
  rcases endsNumber_eq_true_iff.mp hoperator with rfl | rfl | rfl | rfl
  all_goals exact absurd h (by decide)

theorem isKeyChar_of_endsNumber {c : Char} (h : endsNumber c = true) : isKeyChar c = true := by
  rcases endsNumber_eq_true_iff.mp h with rfl | rfl | rfl | rfl
  all_goals decide

theorem isOperatorGlyph_of_endsNumber {c : Char} (h : endsNumber c = true) :
    isOperatorGlyph c = true := by
  rcases endsNumber_eq_true_iff.mp h with rfl | rfl | rfl | rfl
  all_goals decide

/-- Of the operators, those on the keys end a number. -/
theorem endsNumber_of_isOperatorGlyph {c : Char} (hkey : isKeyChar c = true)
    (h : isOperatorGlyph c = true) : endsNumber c = true := by
  have hall : "+-*/^×÷".toList.all (fun c => !isKeyChar c || endsNumber c) = true := by decide
  simpa [hkey] using List.all_eq_true.mp hall c (by simpa [isOperatorGlyph] using h)

/-- Every character on the keys is spelt in the alphabet of the reader. -/
theorem spelt_of_isKeyChar {c : Char} (h : isKeyChar c = true) :
    Token.Spelt (Spelling.expandGlyph c) := by
  apply Spelling.spelt_expandGlyph
  rw [isKeyChar, Bool.or_eq_true] at h
  rcases h with hdigit | hsign
  · simp [Spelling.isUnit, Token.isAlphabet, isNumberChar, hdigit]
  · have hall : ".+-×÷()√²".toList.all Spelling.isUnit = true := by decide
    exact List.all_eq_true.mp hall c (by simpa using hsign)

/-! ## One character more or less -/

variable {text : List Char}

theorem wellTyped_nil : WellTyped [] where
  on_keys := by simp
  operators_apart := by simp
  one_point := by
    intro number hnumber _
    simp [List.eq_nil_of_infix_nil hnumber]
  opened_first := by
    intro start hstart
    simp [List.prefix_nil.mp hstart]

theorem WellTyped.of_start {start : List Char} (h : WellTyped text) (hstart : start <+: text) :
    WellTyped start where
  on_keys c hc := h.on_keys c (hstart.subset hc)
  operators_apart a b hab := h.operators_apart a b (hab.trans hstart.isInfix)
  one_point number hnumber := h.one_point number (hnumber.trans hstart.isInfix)
  opened_first first hfirst := h.opened_first first (hfirst.trans hstart)

/-- There is no point in the number that the text ends in. -/
def NoPoint (text : List Char) : Prop :=
  ∀ number, number <:+ text → (∀ c ∈ number, isNumberChar c = true) → '.' ∉ number

theorem noPoint_of_not_mem (h : '.' ∉ text) : NoPoint text := by
  intro number hnumber _ hmem
  exact h (hnumber.subset hmem)

theorem NoPoint.concat_digit (h : NoPoint text) {c : Char} (hc : c.isDigit = true) :
    NoPoint (text ++ [c]) := by
  intro number hnumber hall hmem
  rcases List.suffix_concat_iff.mp hnumber with rfl | ⟨before, rfl, hbefore⟩
  · exact absurd hmem (by simp)
  · rcases List.mem_append.mp hmem with hmem | hmem
    · exact h before hbefore (fun x hx => hall x (List.mem_append_left _ hx)) hmem
    · rw [← List.mem_singleton.mp hmem] at hc
      exact absurd hc (by decide)

theorem WellTyped.operators_apart_concat (h : WellTyped text) {c : Char}
    (hoperator : endsNumber c = true → ∀ a ∈ text.getLast?, endsNumber a = false) {a b : Char}
    (hab : [a, b] <:+: text ++ [c]) (ha : endsNumber a = true) : endsNumber b = false := by
  -- Either the two stand at the end, and the new character is the second, or they lie in the text.
  rcases List.infix_concat_iff.mp hab with hend | hab
  · rcases List.suffix_concat_iff.mp hend with hnil | ⟨before, hsplit, hbefore⟩
    · cases hnil
    · rw [← List.singleton_append] at hsplit
      obtain ⟨rfl, hb⟩ := List.append_inj' hsplit rfl
      obtain rfl : b = c := by simpa using hb
      obtain ⟨start, rfl⟩ := hbefore
      by_contra hb
      rw [Bool.not_eq_false] at hb
      rw [hoperator hb a (by simp)] at ha
      cases ha
  · exact h.operators_apart a b hab ha

theorem WellTyped.one_point_concat (h : WellTyped text) {c : Char} (hpoint : c = '.' → NoPoint text)
    {number : List Char} (hnumber : number <:+: text ++ [c])
    (hall : ∀ x ∈ number, isNumberChar x = true) : number.count '.' ≤ 1 := by
  rcases List.infix_concat_iff.mp hnumber with hend | hnumber
  · rcases List.suffix_concat_iff.mp hend with rfl | ⟨before, rfl, hbefore⟩
    · simp
    · have hbefore_all : ∀ x ∈ before, isNumberChar x = true := fun x hx =>
        hall x (List.mem_append_left _ hx)
      rw [List.count_append]
      by_cases hc : c = '.'
      · rw [List.count_eq_zero.mpr (hpoint hc before hbefore hbefore_all), hc]
        simp
      · have hnone : List.count '.' [c] = 0 := List.count_eq_zero.mpr (by simpa using Ne.symm hc)
        rw [hnone, Nat.add_zero]
        exact h.one_point before hbefore.isInfix hbefore_all
  · exact h.one_point number hnumber hall

theorem WellTyped.opened_first_concat (h : WellTyped text) {c : Char}
    (hclosing : c = ')' → text.count ')' < text.count '(') {start : List Char}
    (hstart : start <+: text ++ [c]) : start.count ')' ≤ start.count '(' := by
  rcases List.prefix_concat_iff.mp hstart with rfl | hstart
  · have hle := h.opened_first text (List.prefix_refl text)
    rw [List.count_append, List.count_append]
    by_cases hc : c = ')'
    · rw [hc, List.count_singleton_self]
      exact (Nat.succ_le_of_lt (hclosing hc)).trans (Nat.le_add_right _ _)
    · have hnone : List.count ')' [c] = 0 := List.count_eq_zero.mpr (by simpa using Ne.symm hc)
      rw [hnone, Nat.add_zero]
      exact hle.trans (Nat.le_add_right _ _)
  · exact h.opened_first start hstart

/-- **A character may be put behind a well-typed text** unless it is a second operator, a second
point or a parenthesis too many. -/
theorem WellTyped.concat (h : WellTyped text) {c : Char} (hkey : isKeyChar c = true)
    (hoperator : endsNumber c = true → ∀ a ∈ text.getLast?, endsNumber a = false)
    (hpoint : c = '.' → NoPoint text)
    (hclosing : c = ')' → text.count ')' < text.count '(') : WellTyped (text ++ [c]) where
  on_keys := by
    rw [List.forall_mem_append]
    exact ⟨h.on_keys, by simpa using hkey⟩
  operators_apart _ _ := h.operators_apart_concat hoperator
  one_point _ := h.one_point_concat hpoint
  opened_first _ := h.opened_first_concat hclosing

/-- Other characters may be put behind any well-typed text. -/
theorem WellTyped.concat_other (h : WellTyped text) {c : Char} (hkey : isKeyChar c = true)
    (hoperator : endsNumber c = false) (hpoint : c ≠ '.') (hclosing : c ≠ ')') :
    WellTyped (text ++ [c]) := by
  apply h.concat hkey
  · intro hc
    rw [hoperator] at hc
    cases hc
  · exact fun hc => absurd hc hpoint
  · exact fun hc => absurd hc hclosing

theorem WellTyped.concat_opening (h : WellTyped text) : WellTyped (text ++ ['(']) :=
  h.concat_other (by decide) (by decide) (by decide) (by decide)

theorem WellTyped.concat_digit (h : WellTyped text) {c : Char} (hc : c.isDigit = true) :
    WellTyped (text ++ [c]) := by
  apply h.concat_other
  · simp [isKeyChar, hc]
  · exact not_endsNumber_of_isNumberChar (by simp [isNumberChar, hc])
  · rintro rfl
    exact absurd hc (by decide)
  · rintro rfl
    exact absurd hc (by decide)

theorem WellTyped.concat_point (h : WellTyped text) (hpoint : NoPoint text) :
    WellTyped (text ++ ['.']) := by
  apply h.concat (by decide)
  · exact fun hoperator => absurd hoperator (by decide)
  · exact fun _ => hpoint
  · exact fun hclosing => absurd hclosing (by decide)

theorem WellTyped.concat_operator (h : WellTyped text) {c : Char} (hc : endsNumber c = true)
    (hlast : ∀ a ∈ text.getLast?, endsNumber a = false) : WellTyped (text ++ [c]) := by
  apply h.concat (isKeyChar_of_endsNumber hc)
  · exact fun _ => hlast
  · rintro rfl
    exact absurd hc (by decide)
  · rintro rfl
    exact absurd hc (by decide)

theorem WellTyped.concat_closing (h : WellTyped text) (hopen : text.count ')' < text.count '(') :
    WellTyped (text ++ [')']) := by
  apply h.concat (by decide)
  · exact fun hoperator => absurd hoperator (by decide)
  · exact fun hpoint => absurd hpoint (by decide)
  · exact fun _ => hopen

/-! ## What the keys type -/

section Typing

variable {t : State}

/-- The number that is being typed is a part of what has been typed since the last operator. -/
theorem noPoint_of_currentNumber (h : '.' ∉ t.currentNumber) : NoPoint t.expression := by
  rintro number ⟨before, hsplit⟩ hall hmem
  apply h
  have hkept : ∀ c ∈ number.reverse, (!endsNumber c) = true := by
    intro c hc
    simpa using not_endsNumber_of_isNumberChar (hall c (by simpa using hc))
  rw [State.currentNumber, ← hsplit, List.reverse_append, List.takeWhile_append_of_pos hkept]
  simp [hmem]

theorem not_endsNumber_of_endsWithOperator (h : t.endsWithOperator = false) :
    ∀ a ∈ t.expression.getLast?, endsNumber a = false := by
  intro a ha
  rw [State.endsWithOperator, Option.mem_def.mp ha, Option.any_some] at h
  rw [Bool.eq_false_iff]
  intro hoperator
  rw [isOperatorGlyph_of_endsNumber hoperator] at h
  exact absurd h (by simp)

/-- The operator at the end is one of the keypad. -/
theorem WellTyped.exists_operator_at_end (h : WellTyped t.expression)
    (hend : t.endsWithOperator = true) :
    ∃ start c, t.expression = start ++ [c] ∧ endsNumber c = true := by
  obtain ⟨c, hlast, hc⟩ : ∃ c ∈ t.expression.getLast?, isOperatorGlyph c = true := by
    simpa [State.endsWithOperator, Option.any_eq_true] using hend
  obtain ⟨start, hstart⟩ := List.getLast?_eq_some_iff.mp hlast
  exact ⟨start, c, hstart, endsNumber_of_isOperatorGlyph (h.on_keys c (by simp [hstart])) hc⟩

/-- Before an operator stands none. -/
theorem WellTyped.dropLast_of_endsWithOperator (h : WellTyped t.expression)
    (hend : t.endsWithOperator = true) :
    ∀ a ∈ t.expression.dropLast.getLast?, endsNumber a = false := by
  intro a ha
  obtain ⟨start, b, hstart, hbkey⟩ := h.exists_operator_at_end hend
  rw [hstart, List.dropLast_concat] at ha
  obtain ⟨before, rfl⟩ := List.getLast?_eq_some_iff.mp ha
  rw [Bool.eq_false_iff]
  intro hakey
  have hab : [a, b] <:+: t.expression := ⟨before, [], by simp [hstart]⟩
  rw [h.operators_apart a b hab hakey] at hbkey
  exact absurd hbkey (by simp)

/-- **What a key makes of a well-typed expression is well-typed.** -/
theorem wellTyped_of_typed {expression : List Char} (h : WellTyped t.expression)
    (htyped : Typed t expression) : WellTyped expression := by
  cases htyped with
  | digit hc => exact h.concat_digit hc
  | point hnone => exact h.concat_point (noPoint_of_currentNumber hnone)
  | zeroPoint hnone =>
    have hzero : NoPoint (t.expression ++ ['0']) :=
      (noPoint_of_currentNumber hnone).concat_digit (by decide)
    simpa using (h.concat_digit (c := '0') (by decide)).concat_point hzero
  | operator hglyph hend _ =>
    exact h.concat_operator hglyph (not_endsNumber_of_endsWithOperator hend)
  | otherOperator hglyph hend =>
    have hstart := h.of_start (List.dropLast_prefix t.expression)
    exact hstart.concat_operator hglyph (h.dropLast_of_endsWithOperator hend)
  | square => exact h.concat_other (by decide) (by decide) (by decide) (by decide)
  | root =>
    have hroot : WellTyped (t.expression ++ ['√']) :=
      h.concat_other (by decide) (by decide) (by decide) (by decide)
    simpa using hroot.concat_opening
  | opened => exact h.concat_opening
  | closed hopen => exact h.concat_closing hopen
  | factor _ hend =>
    have hproduct : WellTyped (t.expression ++ ['×']) :=
      h.concat_operator (by decide) (not_endsNumber_of_endsWithOperator hend)
    simpa using hproduct.concat_opening
  | deleted => exact h.of_start (List.dropLast_prefix t.expression)

end Typing

/-! ## Operands -/

theorem WellTyped.append_digits (h : WellTyped text) {digits : List Char}
    (hdigits : ∀ c ∈ digits, c.isDigit = true) : WellTyped (text ++ digits) := by
  induction digits generalizing text with
  | nil => simpa using h
  | cons c digits ih =>
    have hc := h.concat_digit (hdigits c (by simp))
    simpa using ih hc fun x hx => hdigits x (List.mem_cons_of_mem c hx)

theorem WellTyped.append_literal (h : WellTyped text) (hpoint : '.' ∉ text)
    {whole fraction : List Char} (hdigits : Decimal.AreDigits whole fraction) :
    WellTyped (text ++ Decimal.literal whole fraction) := by
  have hwhole := h.append_digits hdigits.whole_digits
  cases fraction with
  | nil => simpa [Decimal.literal] using hwhole
  | cons c fraction =>
    have hnone : '.' ∉ text ++ whole := by
      rw [List.mem_append, not_or]
      exact ⟨hpoint, Decimal.point_not_mem hdigits.whole_digits⟩
    have hpointed := (hwhole.concat_point (noPoint_of_not_mem hnone)).append_digits
      hdigits.fraction_digits
    simpa [Decimal.literal] using hpointed

/-- A decimal may be written out behind a text that ends in no operator. -/
theorem WellTyped.append_positional (h : WellTyped text) (hpoint : '.' ∉ text)
    (hlast : ∀ a ∈ text.getLast?, endsNumber a = false) (d : Decimal) :
    WellTyped (text ++ d.positional) := by
  obtain ⟨whole, fraction, hdigits, htext, -⟩ := d.exists_positional
  rw [htext, ← List.append_assoc]
  cases d.negative with
  | false =>
    rw [Decimal.signText, if_neg (by simp), List.append_nil]
    exact h.append_literal hpoint hdigits
  | true =>
    rw [Decimal.signText, if_pos rfl]
    refine (h.concat_operator (by decide) hlast).append_literal ?_ hdigits
    simpa using hpoint

theorem closing_not_mem_positional (d : Decimal) : ')' ∉ d.positional := by
  intro hmem
  rcases Decimal.mem_positional hmem with h | h | h
  all_goals exact absurd h (by decide)

theorem wellTyped_positional (d : Decimal) : WellTyped d.positional :=
  wellTyped_nil.append_positional (by simp) (by simp) d

theorem wellTyped_group (d : Decimal) : WellTyped (Operand.group d.positional) := by
  rw [Operand.group]
  split
  · have hnumber := wellTyped_nil.concat_opening.append_positional (by simp)
      (by simp [endsNumber]) d
    refine hnumber.concat_closing ?_
    rw [List.count_eq_zero.mpr (by simpa using closing_not_mem_positional d)]
    simp
  · exact wellTyped_positional d

namespace State

variable {settings : Settings} {s t : State}

/-- The operand of what is displayed is a decimal written out, and grouped if that is asked for. -/
theorem exists_positional_of_operand {grouped : Bool} {display operand : List Char}
    (hdisplay : Displayable settings display)
    (h : Operand.ofDisplay grouped display = .ok operand) :
    ∃ d : Decimal, operand = if grouped then Operand.group d.positional else d.positional := by
  obtain ⟨plain, hplain, rfl⟩ := map_eq_ok_iff.mp h
  obtain ⟨d, rfl⟩ : ∃ d : Decimal, plain = d.positional := by
    rcases hdisplay with rfl | ⟨v, -, htext⟩
    · cases hplain
      exact ⟨⟨false, 0, 0⟩, by decide⟩
    · exact Operand.exists_positional_of_expand htext hplain
  exact ⟨d, rfl⟩

/-- **The operand of a shown number is well-typed.** -/
theorem wellTyped_of_operand {grouped : Bool} {display operand : List Char}
    (hdisplay : Displayable settings display)
    (h : Operand.ofDisplay grouped display = .ok operand) : WellTyped operand := by
  obtain ⟨d, rfl⟩ := exists_positional_of_operand hdisplay h
  cases grouped with
  | false => exact wellTyped_positional d
  | true => exact wellTyped_group d

theorem wellTyped_of_start (h : Consistent settings s)
    (hs : s.showsResult = false → WellTyped s.expression) (hstart : Start s t) :
    WellTyped t.expression := by
  cases hstart with
  | here _ hshows => exact hs hshows
  | cleared => exact wellTyped_nil
  | aside hflag _ hstart =>
    rcases hstart with hnil | hzero | ⟨grouped, hoperand⟩
    · simpa [hnil] using wellTyped_nil
    · have hdigit : WellTyped ([] ++ ['0']) := wellTyped_nil.concat_digit (by decide)
      simpa [hzero] using hdigit
    · exact wellTyped_of_operand (h.displayable hflag) hoperand

theorem wellTyped_of_move {key : Key} {s' : State} (h : Consistent settings s)
    (hs : s.showsResult = false → WellTyped s.expression) (hmove : Move settings s key s') :
    s'.showsResult = false → WellTyped s'.expression := by
  cases hmove with
  | nothing => exact hs
  | emptied _ hempty =>
    intro _
    rw [hempty]
    exact wellTyped_nil
  | typed hstart htyped =>
    intro _
    rw [expression_edit]
    exact wellTyped_of_typed (wellTyped_of_start h hs hstart) htyped
  | failed e => exact hs
  | hundredth _ _ _ _ => exact fun hshows => absurd hshows (by simp)
  | root _ _ _ _ => exact fun hshows => absurd hshows (by simp)
  | committed _ _ => exact fun hshows => absurd hshows (by simp [commit])

theorem wellTyped_pressAll (settings : Settings) (keys : List Key) :
    (initial.pressAll settings keys).showsResult = false →
      WellTyped (initial.pressAll settings keys).expression := by
  refine (consistent_initial settings).holds_pressAll
    (P := fun s => s.showsResult = false → WellTyped s.expression) ?_ ?_ keys
  · exact fun _ => wellTyped_nil
  · exact fun hconsistent hs hmove => wellTyped_of_move hconsistent hs hmove

/-- **What has been typed is well-typed**, in every state that is reached and shows no result. So it
is read without an error. -/
theorem wellTyped_of_run (settings : Settings) (keys : List Key) {s : State}
    (hs : s = initial.pressAll settings keys) (hshows : s.showsResult = false) :
    WellTyped s.expression ∧ ∃ tokens, Token.read (Spelling.canonical s.expression) = .ok tokens := by
  subst hs
  have hwell := wellTyped_pressAll settings keys hshows
  refine ⟨hwell, Spelling.exists_read_canonical ?_⟩
  intro c hc
  exact spelt_of_isKeyChar (hwell.on_keys c hc)

/-- A negative result is squared, an operator is replaced, and half of an opened factor deleted. -/
theorem wellTyped_after_result :
    ∃ s, s = initial.pressAll Settings.default [.operator ['-'], .digit ['4'], .equals, .square,
        .operator ['+'], .operator ['*'], .point, .digit ['5'], .point, .parentheses, .delete] ∧
      s.showsResult = false ∧ s.expression = "(-4)²×0.5×".toList ∧ WellTyped s.expression ∧
      ∃ tokens, Token.read (Spelling.canonical s.expression) = .ok tokens :=
  ⟨_, rfl, by decide +kernel, by decide +kernel,
    wellTyped_of_run Settings.default _ rfl (by decide +kernel)⟩

end State

end Reckoner.Keypad
