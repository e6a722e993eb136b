import Reckoner.Proofs.Token.Reading
/-!
# `Reckoner/Proofs/Token/Rendering.lean` — tokens written down again

Reading loses nothing: the tokens of a text, written down one after another, are the text. So reading
is undone by writing. Is writing undone by reading? Not for every sequence of tokens. Two numbers side
by side would be read as one, and one minus sign stands for two tokens, of which the place decides.

> **Reading and writing are inverse** between the texts that are read and the sequences in which
> numbers stand apart, a negation stands where an operand is due, and a subtraction where none is
> (`read_eq_ok_iff`).

What is due is known from the token before, so the conditions on a sequence are conditions on each
token and its neighbour (`arranged_cons_iff`), and both directions are inductions along that.
-/

set_option autoImplicit false

namespace Reckoner.Token

/-- The token as it is written. A negation and a subtraction are written alike. -/
def render : Token → List Char
  | .number text => text
  | .binary op => [op.symbol]
  | .unary op => op.symbol
  | .openParen => ['(']
  | .closeParen => [')']

/-- The tokens, written one after another. -/
def renderAll (tokens : List Token) : List Char := tokens.flatMap render

/-- An operand is due behind these tokens. If there are none, it is as it was in front of them. -/
def dueAfter (due : Bool) (before : List Token) : Bool :=
  (before.getLast?.map expectsOperand).getD due

/-- The sequences of tokens that a text can be read as, with an operand due at its start or not. -/
structure Arranged (due : Bool) (tokens : List Token) : Prop where
  numbers_apart : ∀ left right, ¬[.number left, .number right] <:+: tokens
  number_chars : ∀ text, .number text ∈ tokens → text ≠ [] ∧ ∀ c ∈ text, isNumberChar c = true
  due_of_negate : ∀ before after, tokens = before ++ .unary .negate :: after →
    dueAfter due before = true
  not_due_of_subtract : ∀ before after, tokens = before ++ .binary .subtract :: after →
    dueAfter due before = false

/-! ## One token at a time -/

/-- The token may stand where an operand is due, or where none is. -/
def Fits (due : Bool) : Token → Prop
  | .number text => text ≠ [] ∧ ∀ c ∈ text, isNumberChar c = true
  | .unary .negate => due = true
  | .binary .subtract => due = false
  | _ => True

theorem dueAfter_cons (due : Bool) (token : Token) (before : List Token) :
    dueAfter due (token :: before) = dueAfter token.expectsOperand before := by
  cases before with
  | nil => rfl
  | cons next before =>
    rw [dueAfter, dueAfter, List.getLast?_cons_cons, List.getLast?_cons]
    rfl

theorem arranged_nil (due : Bool) : Arranged due [] where
  numbers_apart left right h := absurd h (by simp)
  number_chars text h := absurd h (by simp)
  due_of_negate before after h := absurd h (by simp)
  not_due_of_subtract before after h := absurd h (by simp)

section Cons

variable {due : Bool} {token : Token} {rest : List Token}

/-- What is due in front of a token, wherever it stands: at the start, or behind the first one. -/
theorem forall_dueAfter_cons_iff {found : Token} {expected : Bool} :
    (∀ before after, token :: rest = before ++ found :: after → dueAfter due before = expected) ↔
      (token = found → due = expected) ∧
        ∀ before after, rest = before ++ found :: after →
          dueAfter token.expectsOperand before = expected := by
  constructor
  · intro h
    constructor
    · rintro rfl
      exact h [] rest rfl
    · intro before after heq
      rw [← dueAfter_cons due]
      exact h (token :: before) after (congrArg (token :: ·) heq)
  · rintro ⟨hfirst, hrest⟩ before after heq
    cases before with
    | nil => exact hfirst (List.cons.inj heq).1
    | cons first before =>
      obtain ⟨rfl, hinside⟩ := List.cons.inj heq
      rw [dueAfter_cons]
      exact hrest before after hinside

theorem fits_iff : token.Fits due ↔
    (∀ text, token = .number text → text ≠ [] ∧ ∀ c ∈ text, isNumberChar c = true) ∧
      (token = .unary .negate → due = true) ∧ (token = .binary .subtract → due = false) := by
  cases token with
  | number text => simp [Fits]
  | binary op => cases op <;> simp [Fits]
  | unary op => cases op <;> simp [Fits]
  | openParen | closeParen => simp [Fits]

/-- **The order of tokens is settled token by token**, each with the one that follows it. -/
theorem arranged_cons_iff : Arranged due (token :: rest) ↔ token.Fits due ∧
    (∀ left right after, token = .number left → rest ≠ .number right :: after) ∧
      Arranged token.expectsOperand rest := by
  rw [fits_iff]
  constructor
  · intro h
    obtain ⟨hnegate, hnegates⟩ := forall_dueAfter_cons_iff.mp h.due_of_negate
    obtain ⟨hsubtract, hsubtracts⟩ := forall_dueAfter_cons_iff.mp h.not_due_of_subtract
    refine ⟨⟨?_, hnegate, hsubtract⟩, ?_, ?_, ?_, hnegates, hsubtracts⟩
    · rintro text rfl
      exact h.number_chars text (by simp)
    · rintro left right after rfl rfl
      exact h.numbers_apart left right ⟨[], after, rfl⟩
    · intro left right hpair
      exact h.numbers_apart left right (hpair.trans (List.suffix_cons token rest).isInfix)
    · intro text hmem
      exact h.number_chars text (List.mem_cons_of_mem token hmem)
  · rintro ⟨⟨hnumber, hnegate, hsubtract⟩, hapart, hrest⟩
    refine ⟨?_, ?_, forall_dueAfter_cons_iff.mpr ⟨hnegate, hrest.due_of_negate⟩,
      forall_dueAfter_cons_iff.mpr ⟨hsubtract, hrest.not_due_of_subtract⟩⟩
    · intro left right hpair
      rcases List.infix_cons_iff.mp hpair with ⟨after, hfirst⟩ | hinside
      · obtain ⟨hleft, hright⟩ := List.cons.inj hfirst
        exact hapart left right after hleft.symm hright.symm
      · exact hrest.numbers_apart left right hinside
    · intro text hmem
      rcases List.mem_cons.mp hmem with hfirst | hmem
      · exact hnumber text hfirst.symm
      · exact hrest.number_chars text hmem

theorem fits_and_render_of_ofChar? {c : Char} (h : ofChar? due c = some token) :
    token.Fits due ∧ token.render = [c] := by
  rcases ofChar?_cases h with ⟨rfl, hdue, rfl⟩ | ⟨rfl, rfl⟩ | ⟨rfl, rfl⟩ | ⟨op, rfl, rfl, hdue⟩
  · exact ⟨hdue, rfl⟩
  · exact ⟨trivial, rfl⟩
  · exact ⟨trivial, rfl⟩
  · refine ⟨?_, rfl⟩
    cases op with
    | subtract => exact hdue rfl
    | add | multiply | divide | power => trivial

/-- **A token of one character** is read from what it is written as, where it may stand. -/
theorem ofChar?_eq_some_iff {c : Char} : ofChar? due c = some token ↔
    token.Fits due ∧ token.render = [c] ∧ ∀ text, token ≠ .number text := by
  constructor
  · intro h
    obtain ⟨hfits, hrender⟩ := fits_and_render_of_ofChar? h
    exact ⟨hfits, hrender, not_number_of_ofChar? h⟩
  · rintro ⟨hfits, hrender, hnot⟩
    cases token with
    | number text => exact absurd rfl (hnot text)
    | binary op =>
      obtain rfl : op.symbol = c := (List.cons.inj hrender).1
      cases op with
      | subtract =>
        obtain rfl : due = false := hfits
        rfl
      | add | multiply | divide | power => cases due <;> rfl
    | unary op =>
      cases op with
      | squareRoot => cases hrender
      | negate =>
        obtain rfl : due = true := hfits
        obtain rfl : '-' = c := (List.cons.inj hrender).1
        rfl
    | openParen =>
      obtain rfl : '(' = c := (List.cons.inj hrender).1
      cases due <;> rfl
    | closeParen =>
      obtain rfl : ')' = c := (List.cons.inj hrender).1
      cases due <;> rfl

end Cons

/-! ## From texts to tokens -/

theorem extendNumber_cases (c : Char) (tokens : List Token) :
    (∃ text rest, tokens = .number text :: rest ∧
        extendNumber c tokens = .number (c :: text) :: rest) ∨
      (∀ text rest, tokens ≠ .number text :: rest) ∧
        extendNumber c tokens = .number [c] :: tokens := by
  cases tokens with
  | nil => exact .inr ⟨by simp, rfl⟩
  | cons first rest =>
    cases first with
    | number text => exact .inl ⟨text, rest, rfl, rfl⟩
    | binary op | unary op | openParen | closeParen => exact .inr ⟨by simp, rfl⟩

theorem renderAll_extendNumber (c : Char) (tokens : List Token) :
    renderAll (extendNumber c tokens) = c :: renderAll tokens := by
  rcases extendNumber_cases c tokens with ⟨text, rest, rfl, heq⟩ | ⟨-, heq⟩
  all_goals
    rw [heq]
    rfl

theorem Arranged.extendNumber {c : Char} (hc : isNumberChar c = true) (due : Bool)
    {tokens : List Token} (h : Arranged false tokens) : Arranged due (extendNumber c tokens) := by
  rcases extendNumber_cases c tokens with ⟨text, rest, rfl, heq⟩ | ⟨hapart, heq⟩
  · obtain ⟨⟨-, hchars⟩, hapart, hrest⟩ := arranged_cons_iff.mp h
    rw [heq]
    refine arranged_cons_iff.mpr ⟨⟨by simp, List.forall_mem_cons.mpr ⟨hc, hchars⟩⟩, ?_, hrest⟩
    intro left right after _
    exact hapart text right after rfl
  · rw [heq]
    refine arranged_cons_iff.mpr ⟨⟨by simp, by simpa using hc⟩, ?_, h⟩
    intro left right after _
    exact hapart right after

variable {due : Bool} {index : Nat} {text : List Char} {tokens : List Token}

/-- **Reading loses nothing.** -/
theorem renderAll_of_readFrom (h : readFrom due index text = .ok tokens) :
    renderAll tokens = text := by
  fun_induction readFrom due index text generalizing tokens with
  | case1 =>
    cases h
    rfl
  | case2 due index rest ih =>
    obtain ⟨inner, hinner, rfl⟩ := map_eq_ok_iff.mp h
    exact congrArg (rootLetters ++ ·) (ih hinner)
  | case3 due index c rest _ _ ih =>
    obtain ⟨inner, hinner, rfl⟩ := map_eq_ok_iff.mp h
    rw [renderAll_extendNumber, ih hinner]
  | case4 due index c rest _ _ token htoken ih =>
    obtain ⟨inner, hinner, rfl⟩ := map_eq_ok_iff.mp h
    rw [renderAll, List.flatMap_cons, (fits_and_render_of_ofChar? htoken).2]
    exact congrArg (c :: ·) (ih hinner)
  | case5 => cases h

/-- **Reading arranges the tokens.** -/
theorem arranged_of_readFrom (h : readFrom due index text = .ok tokens) : Arranged due tokens := by
  fun_induction readFrom due index text generalizing tokens with
  | case1 due index =>
    cases h
    exact arranged_nil due
  | case2 due index rest ih =>
    obtain ⟨inner, hinner, rfl⟩ := map_eq_ok_iff.mp h
    exact arranged_cons_iff.mpr ⟨trivial, by simp, ih hinner⟩
  | case3 due index c rest _ hnumber ih =>
    obtain ⟨inner, hinner, rfl⟩ := map_eq_ok_iff.mp h
    exact (ih hinner).extendNumber hnumber due
  | case4 due index c rest _ _ token htoken ih =>
    obtain ⟨inner, hinner, rfl⟩ := map_eq_ok_iff.mp h
    refine arranged_cons_iff.mpr ⟨(fits_and_render_of_ofChar? htoken).1, ?_, ih hinner⟩
    intro left right after hleft
    exact absurd hleft (not_number_of_ofChar? htoken left)
  | case5 => cases h

/-! ## From tokens to texts -/

theorem not_isNumberChar_of_render {token : Token} (hnot : ∀ number, token ≠ .number number)
    {c : Char} {rest : List Char} (h : token.render = c :: rest) : isNumberChar c = false := by
  cases token with
  | number number => exact absurd rfl (hnot number)
  | binary op =>
    obtain ⟨rfl, -⟩ := List.cons.inj h
    cases op <;> rfl
  | unary op =>
    cases op with
    | squareRoot | negate =>
      obtain ⟨rfl, -⟩ := List.cons.inj h
      rfl
  | openParen | closeParen =>
    obtain ⟨rfl, -⟩ := List.cons.inj h
    rfl

theorem noNumberFirst_renderAll (hfirst : ∀ number rest, tokens ≠ .number number :: rest) :
    NoNumberFirst (renderAll tokens) := by
  intro c hc
  cases tokens with
  | nil => exact absurd hc (by simp [renderAll])
  | cons token rest =>
    have hnot : ∀ number, token ≠ .number number := by
      rintro number rfl
      exact hfirst number rest rfl
    have hne : token.render ≠ [] := by
      cases token with
      | number number => exact absurd rfl (hnot number)
      | unary op => cases op <;> simp [render, UnaryOp.symbol]
      | binary op | openParen | closeParen => simp [render]
    obtain ⟨x, xs, hrender⟩ := List.exists_cons_of_ne_nil hne
    obtain rfl : x = c := by simpa [renderAll, hrender] using hc
    exact not_isNumberChar_of_render hnot hrender

theorem readFrom_cons_of_fits {token : Token} {c : Char} (hfits : token.Fits due)
    (hrender : token.render = [c]) (hnot : ∀ number, token ≠ .number number) (rest : List Char) :
    readFrom due index (c :: rest) =
      (readFrom token.expectsOperand (index + 1) rest).map (token :: ·) := by
  have htoken := ofChar?_eq_some_iff.mpr ⟨hfits, hrender, hnot⟩
  have hletter : c ≠ 's' := by
    rintro rfl
    exact absurd htoken (by simp [ofChar?, BinaryOp.ofChar?])
  rw [readFrom_cons (not_startsRoot hletter rest),
    if_neg (by simp [not_isNumberChar_of_render hnot hrender]), htoken]

/-- **A token is read off the front of a text**, where it may stand. A number must not go on. -/
theorem readFrom_render_append {token : Token} (hfits : token.Fits due) {text : List Char}
    (hnext : ∀ number, token = .number number → NoNumberFirst text) :
    readFrom due index (token.render ++ text) =
      (readFrom token.expectsOperand (index + token.render.length) text).map (token :: ·) := by
  cases token with
  | number number => exact readFrom_number_append hfits.1 hfits.2 (hnext number rfl) due index
  | binary op => exact readFrom_cons_of_fits hfits rfl (by simp) text
  | unary op =>
    cases op with
    | squareRoot => exact readFrom_root due index text
    | negate => exact readFrom_cons_of_fits hfits rfl (by simp) text
  | openParen | closeParen => exact readFrom_cons_of_fits hfits rfl (by simp) text

/-- **Tokens that are arranged are read again** from what they are written as. -/
theorem Arranged.readFrom_renderAll (h : Arranged due tokens) (index : Nat) :
    readFrom due index (renderAll tokens) = .ok tokens := by
  induction tokens generalizing due index with
  | nil => rw [renderAll, List.flatMap_nil, readFrom]
  | cons token rest ih =>
    obtain ⟨hfits, hapart, hrest⟩ := arranged_cons_iff.mp h
    rw [renderAll, List.flatMap_cons, readFrom_render_append hfits]
    · exact map_eq_ok_iff.mpr ⟨rest, ih hrest _, rfl⟩
    · intro number hnumber
      exact noNumberFirst_renderAll fun right after => hapart number right after hnumber

/-- **Reading and writing are inverse.** A text is read as a sequence of tokens if and only if the
sequence is written as the text, no two numbers in it are side by side, each of its numbers is a run
of digits and points, and of the minus signs those are negations, and no others, that stand at the
start or behind an operator or an opening parenthesis. -/
theorem read_eq_ok_iff : read text = .ok tokens ↔ Arranged true tokens ∧ renderAll tokens = text := by
  constructor
  · intro h
    exact ⟨arranged_of_readFrom h, renderAll_of_readFrom h⟩
  · rintro ⟨harranged, rfl⟩
    exact harranged.readFrom_renderAll 0

end Reckoner.Token
