import Reckoner.Proofs.Stages
import Reckoner.Token.Lexer
/-!
# `Reckoner/Proofs/Token/Reading.lean` — how a text is read from its front

The reader looks at one character at a time, except that four letters make a square root. The first
section says so without the letters in the pattern (`readFrom_cons`), and the second what becomes of
a run of digits and points, and of a character that no token starts with:

> **The first character that starts no token is the error**, at its place, whatever comes after it
> (`readFrom_append_unknown`); and no text with such a character in it is read
> (`not_read_of_unknown`).
-/

set_option autoImplicit false

namespace Reckoner.Token

/-! ## One character at a time -/

/-- The letters of the square root. -/
def rootLetters : List Char := ['s', 'q', 'r', 't']

/-- The tokens of a text with a character in front that does not start a square root. -/
theorem readFrom_cons {c : Char} {rest : List Char} (h : ¬rootLetters <+: c :: rest) (due : Bool)
    (index : Nat) :
    readFrom due index (c :: rest) =
      if isNumberChar c then (readFrom false (index + 1) rest).map (extendNumber c)
      else
        match ofChar? due c with
        | some token => (readFrom token.expectsOperand (index + 1) rest).map (token :: ·)
        | none => .error (.unexpectedCharacter c index) := by
  refine readFrom.eq_3 due index c rest ?_
  intro rest' hc hrest
  exact h ⟨rest', by rw [hc, hrest]; rfl⟩

theorem readFrom_root (due : Bool) (index : Nat) (rest : List Char) :
    readFrom due index (rootLetters ++ rest) =
      (readFrom true (index + 4) rest).map (.unary .squareRoot :: ·) := by
  show readFrom due index ('s' :: 'q' :: 'r' :: 't' :: rest) = _
  rw [readFrom]

theorem not_startsRoot {c : Char} (hc : c ≠ 's') (rest : List Char) :
    ¬rootLetters <+: c :: rest := by
  rintro ⟨rest', h⟩
  exact hc (List.cons.inj h).1.symm

theorem not_startsRoot_of {c : Char} {rest : List Char}
    (h : ∀ rest', c = 's' → rest = 'q' :: 'r' :: 't' :: rest' → False) :
    ¬rootLetters <+: c :: rest := by
  rintro ⟨rest', heq⟩
  obtain ⟨hc, hrest⟩ := List.cons.inj heq
  exact h rest' hc.symm hrest.symm

/-- Letters that are not among what follows a text are found in the text itself. -/
theorem prefix_of_prefix_append_cons {letters text rest : List Char} {c : Char} (hc : c ∉ letters)
    (h : letters <+: text ++ c :: rest) : letters <+: text := by
  induction letters generalizing text with
  | nil => exact List.nil_prefix
  | cons a letters ih =>
    rw [List.mem_cons, not_or] at hc
    cases text with
    | nil =>
      rw [List.nil_append, List.cons_prefix_cons] at h
      exact absurd h.1.symm hc.1
    | cons b text =>
      rw [List.cons_append, List.cons_prefix_cons] at h
      rw [List.cons_prefix_cons]
      exact ⟨h.1, ih hc.2 h.2⟩

/-! ## Numbers, and characters that are none of the language -/

theorem readFrom_cons_number {c : Char} (hc : isNumberChar c = true) (due : Bool) (index : Nat)
    (rest : List Char) :
    readFrom due index (c :: rest) = (readFrom false (index + 1) rest).map (extendNumber c) := by
  have hne : c ≠ 's' := by
    intro heq
    rw [heq] at hc
    exact absurd hc (by simp [isNumberChar])
  rw [readFrom_cons (not_startsRoot hne rest), if_pos hc]

theorem symbol_of_ofChar? {c : Char} {op : BinaryOp} (h : BinaryOp.ofChar? c = some op) :
    op.symbol = c := by
  unfold BinaryOp.ofChar? at h
  split at h
  all_goals
    cases h
  all_goals rfl

/-- **The tokens of one character**, and the characters that they are. -/
theorem ofChar?_cases {due : Bool} {c : Char} {token : Token} (h : ofChar? due c = some token) :
    (c = '-' ∧ due = true ∧ token = .unary .negate) ∨ (c = '(' ∧ token = .openParen) ∨
      (c = ')' ∧ token = .closeParen) ∨
      ∃ op : BinaryOp, c = op.symbol ∧ token = .binary op ∧ (op = .subtract → due = false) := by
  unfold ofChar? at h
  split at h
  · next hminus =>
    cases h
    exact .inl (by simpa using hminus)
  · next hminus =>
    split at h
    · next hopening =>
      cases h
      exact .inr (.inl ⟨hopening, rfl⟩)
    · split at h
      · next hclosing =>
        cases h
        exact .inr (.inr (.inl ⟨hclosing, rfl⟩))
      · obtain ⟨op, hop, rfl⟩ := Option.map_eq_some_iff.mp h
        obtain rfl := symbol_of_ofChar? hop
        refine .inr (.inr (.inr ⟨op, rfl, rfl, ?_⟩))
        rintro rfl
        simpa [BinaryOp.symbol] using hminus

theorem not_number_of_ofChar? {due : Bool} {c : Char} {token : Token}
    (h : ofChar? due c = some token) (text : List Char) : token ≠ .number text := by
  rcases ofChar?_cases h with ⟨-, -, rfl⟩ | ⟨-, rfl⟩ | ⟨-, rfl⟩ | ⟨op, -, rfl, -⟩
  all_goals simp

/-- The text does not go on with a digit or a point. -/
def NoNumberFirst (text : List Char) : Prop := ∀ c ∈ text.head?, isNumberChar c = false

theorem extendNumber_readFrom {due : Bool} {index : Nat} {rest : List Char} {tokens : List Token}
    (hrest : NoNumberFirst rest) (h : readFrom due index rest = .ok tokens) (c : Char) :
    extendNumber c tokens = .number [c] :: tokens := by
  fun_cases readFrom due index rest with
  | case1 =>
    cases h
    rfl
  | case2 rest =>
    obtain ⟨inner, -, rfl⟩ := map_eq_ok_iff.mp h
    rfl
  | case3 x rest _ hnumber =>
    exact absurd hnumber (by simp [hrest x rfl])
  | case4 x rest hroot hnumber token htoken =>
    rw [readFrom_cons (not_startsRoot_of hroot), if_neg hnumber, htoken] at h
    obtain ⟨inner, -, rfl⟩ := map_eq_ok_iff.mp h
    cases token with
    | number text => exact absurd rfl (not_number_of_ofChar? htoken text)
    | _ => rfl
  | case5 x rest hroot hnumber hnone =>
    rw [readFrom_cons (not_startsRoot_of hroot), if_neg hnumber, hnone] at h
    cases h

/-- **A run of digits and points is one number**, if no more of them follow. -/
theorem readFrom_number_append {number rest : List Char} (hne : number ≠ [])
    (hnumber : ∀ c ∈ number, isNumberChar c = true) (hrest : NoNumberFirst rest) (due : Bool)
    (index : Nat) :
    readFrom due index (number ++ rest) =
      (readFrom false (index + number.length) rest).map (.number number :: ·) := by
  induction number generalizing due index with
  | nil => exact absurd rfl hne
  | cons c number ih =>
    rw [List.cons_append, readFrom_cons_number (hnumber c (by simp))]
    by_cases hend : number = []
    · subst hend
      rw [List.nil_append, List.length_singleton]
      cases hread : readFrom false (index + 1) rest with
      | error e => rfl
      | ok tokens => exact congrArg _ (extendNumber_readFrom hrest hread c)
    · rw [ih hend fun x hx => hnumber x (List.mem_cons_of_mem c hx), List.length_cons,
        Nat.add_right_comm, Nat.add_assoc]
      cases readFrom false (index + (number.length + 1)) rest <;> rfl

theorem readFrom_number {text : List Char} (hne : text ≠ [])
    (h : ∀ c ∈ text, isNumberChar c = true) (due : Bool) (index : Nat) :
    readFrom due index text = .ok [.number text] := by
  have hend : NoNumberFirst [] := by
    intro c hc
    exact absurd hc (by simp)
  have hread := readFrom_number_append hne h hend due index
  rwa [List.append_nil, readFrom] at hread

/-- A character that is no part of a number, and that no other token starts with. -/
structure IsUnknown (c : Char) : Prop where
  not_number : isNumberChar c = false
  not_root : c ∉ rootLetters
  not_token : ∀ due, ofChar? due c = none

theorem IsUnknown.ne_letter {c : Char} (hc : IsUnknown c) : c ≠ 's' := by
  intro heq
  exact hc.not_root (by simp [heq, rootLetters])

theorem readFrom_cons_unknown {c : Char} (hc : IsUnknown c) (due : Bool) (index : Nat)
    (rest : List Char) :
    readFrom due index (c :: rest) = .error (.unexpectedCharacter c index) := by
  rw [readFrom_cons (not_startsRoot hc.ne_letter rest), if_neg (by simp [hc.not_number]),
    hc.not_token due]

/-- **The first character that starts no token is the error.** -/
theorem readFrom_append_unknown {text : List Char} (h : ∀ c ∈ text, isNumberChar c = true)
    {c : Char} (hc : IsUnknown c) (due : Bool) (index : Nat) (rest : List Char) :
    readFrom due index (text ++ c :: rest) =
      .error (.unexpectedCharacter c (index + text.length)) := by
  induction text generalizing due index with
  | nil => exact readFrom_cons_unknown hc due index rest
  | cons x text ih =>
    rw [List.cons_append, readFrom_cons_number (h x (by simp)),
      ih fun y hy => h y (List.mem_cons_of_mem x hy), List.length_cons, Nat.add_right_comm,
      Nat.add_assoc]
    rfl

/-- **No text with a character in it that starts no token is read.** -/
theorem not_read_of_unknown {c : Char} (hc : IsUnknown c) {due : Bool} {index : Nat}
    {text : List Char} (hmem : c ∈ text) (tokens : List Token) :
    readFrom due index text ≠ .ok tokens := by
  fun_induction readFrom due index text generalizing tokens with
  | case1 due index => exact absurd hmem (by simp)
  | case2 due index rest ih =>
    -- Four letters are skipped at once, and the character is none of them.
    have hrest : c ∈ rest := by
      have hletters := hc.not_root
      simp only [rootLetters, List.mem_cons, List.not_mem_nil, or_false, not_or] at hletters
      simpa [hletters] using hmem
    intro h
    obtain ⟨inner, hinner, -⟩ := map_eq_ok_iff.mp h
    exact ih hrest inner hinner
  | case3 due index x rest _ hnumber ih =>
    have hrest : c ∈ rest := by
      refine (List.mem_cons.mp hmem).resolve_left ?_
      rintro rfl
      exact absurd hnumber (by simp [hc.not_number])
    intro h
    obtain ⟨inner, hinner, -⟩ := map_eq_ok_iff.mp h
    exact ih hrest inner hinner
  | case4 due index x rest _ _ token htoken ih =>
    have hrest : c ∈ rest := by
      refine (List.mem_cons.mp hmem).resolve_left ?_
      rintro rfl
      exact absurd htoken (by simp [hc.not_token])
    intro h
    obtain ⟨inner, hinner, -⟩ := map_eq_ok_iff.mp h
    exact ih hrest inner hinner
  | case5 => intro h; cases h

end Reckoner.Token
