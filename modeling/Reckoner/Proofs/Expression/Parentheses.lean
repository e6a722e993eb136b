import Reckoner.Evaluation
import Reckoner.Proofs.Postfix.Conversion
import Reckoner.Proofs.Postfix.Machine
import Reckoner.Proofs.Spelling
import Reckoner.Proofs.Token.Reading
/-!
# `Reckoner/Proofs/Expression/Parentheses.lean` — missing parentheses

An expression may lack parentheses at either end: a closing one without a partner is passed over,
and a group that is open at the end ends there. This file says what that comes to:

> **Lenience is balancing.** An expression has the outcome of the expression to which the missing
> parentheses have been added at both ends, as many of each as have no partner.

The counts play no part in the argument. Parentheses put around an expression, however many,
change nothing in its postfix order (`ofInfix_surround`): an opening one at the front adds a
group at the bottom of the stack, and there a group does nothing but stop operators that would
find an empty stack instead. The counts matter for the *name* of the result: with just as many
parentheses as are missing, none is left without a partner (`Brackets.unmatched_balance`).

What does change is the place that a lexical error reports, which moves by as many characters as
were put in front.
-/

set_option autoImplicit false

namespace Reckoner

/-! ## Balancing -/

/-- The two parentheses of an alphabet. -/
structure Brackets (α : Type) where
  opening : α
  closing : α
  opening_ne_closing : opening ≠ closing

/-- The parentheses of characters. -/
def Text.brackets : Brackets Char := ⟨'(', ')', by decide⟩

/-- The parentheses of tokens. -/
def Token.brackets : Brackets Token := ⟨.openParen, .closeParen, by decide⟩

/-- How many closing and how many opening parentheses have no partner. -/
structure Unmatched where
  closing : Nat
  opening : Nat
deriving DecidableEq, Repr

namespace Brackets

variable {α : Type} [DecidableEq α] (b : Brackets α)

/-- The counts after one more character: a closing parenthesis is the partner of an opening one
before it, if one is left. -/
def count (u : Unmatched) (x : α) : Unmatched :=
  if x = b.opening then { u with opening := u.opening + 1 }
  else if x = b.closing then
    if u.opening = 0 then { u with closing := u.closing + 1 }
    else { u with opening := u.opening - 1 }
  else u

/-- The parentheses without a partner, counted from left to right. -/
def unmatched (xs : List α) : Unmatched := xs.foldl b.count ⟨0, 0⟩

/-- So many opening parentheses in front, and so many closing ones behind. -/
def surround (u : Unmatched) (xs : List α) : List α :=
  List.replicate u.closing b.opening ++ (xs ++ List.replicate u.opening b.closing)

/-- The text with its missing parentheses added at both ends. -/
def balance (xs : List α) : List α := b.surround (b.unmatched xs) xs

theorem count_opening (c o : Nat) : b.count ⟨c, o⟩ b.opening = ⟨c, o + 1⟩ := by
  rw [count, if_pos rfl]

theorem count_closing_zero (c : Nat) : b.count ⟨c, 0⟩ b.closing = ⟨c + 1, 0⟩ := by
  rw [count, if_neg b.opening_ne_closing.symm, if_pos rfl, if_pos rfl]

theorem count_closing_succ (c o : Nat) : b.count ⟨c, o + 1⟩ b.closing = ⟨c, o⟩ := by
  rw [count, if_neg b.opening_ne_closing.symm, if_pos rfl, if_neg (Nat.succ_ne_zero o)]
  rfl

theorem count_other {x : α} (ho : x ≠ b.opening) (hc : x ≠ b.closing) (u : Unmatched) :
    b.count u x = u := by
  rw [count, if_neg ho, if_neg hc]

theorem foldl_count_opening (c o k : Nat) :
    (List.replicate k b.opening).foldl b.count ⟨c, o⟩ = ⟨c, o + k⟩ := by
  induction k generalizing o with
  | zero => rfl
  | succ k ih => rw [List.replicate_succ, List.foldl_cons, count_opening, ih, Nat.add_right_comm]; rfl

theorem foldl_count_closing (c k : Nat) :
    (List.replicate k b.closing).foldl b.count ⟨c, k⟩ = ⟨c, 0⟩ := by
  induction k with
  | zero => rfl
  | succ k ih => rw [List.replicate_succ, List.foldl_cons, count_closing_succ, ih]

theorem closing_le_foldl (xs : List α) (c o : Nat) :
    c ≤ (xs.foldl b.count ⟨c, o⟩).closing := by
  induction xs generalizing c o with
  | nil => exact Nat.le_refl _
  | cons x xs ih =>
    rw [List.foldl_cons]
    by_cases ho : x = b.opening
    · subst ho; rw [count_opening]; exact ih _ _
    · by_cases hc : x = b.closing
      · subst hc
        cases o with
        | zero => rw [count_closing_zero]; exact Nat.le_of_succ_le (ih _ _)
        | succ o => rw [count_closing_succ]; exact ih _ _
      · rw [count_other b ho hc]; exact ih _ _

/-- Parentheses opened before a text are partners of the closing ones that had none in it: if `k`
more are opened, and no more than that are needed, those that are not needed stay open. -/
theorem foldl_count_opened (xs : List α) (c o k : Nat)
    (hk : (xs.foldl b.count ⟨c, o⟩).closing ≤ c + k) :
    xs.foldl b.count ⟨0, o + k⟩ =
      ⟨0, (xs.foldl b.count ⟨c, o⟩).opening + (c + k - (xs.foldl b.count ⟨c, o⟩).closing)⟩ := by
  induction xs generalizing c o k with
  | nil => simp
  | cons x xs ih =>
    rw [List.foldl_cons] at hk
    rw [List.foldl_cons, List.foldl_cons]
    by_cases ho : x = b.opening
    · subst ho
      rw [count_opening] at hk
      rw [count_opening, count_opening, Nat.add_right_comm, ih c (o + 1) k hk]
    · by_cases hc : x = b.closing
      · subst hc
        cases o with
        | zero =>
          -- Without a partner on the one side; on the other it takes one of those opened before.
          rw [count_closing_zero] at hk
          have hle : c + 1 ≤ c + k := Nat.le_trans (b.closing_le_foldl xs _ _) hk
          obtain ⟨k, rfl⟩ : ∃ k', k = k' + 1 := ⟨k - 1, by omega⟩
          have hsum : c + (k + 1) = c + 1 + k := by omega
          rw [hsum] at hk
          rw [count_closing_zero, ← Nat.add_assoc, count_closing_succ, ih (c + 1) 0 k hk, hsum]
        | succ o =>
          rw [count_closing_succ] at hk
          rw [Nat.add_right_comm, count_closing_succ, count_closing_succ, ih c o k hk]
      · rw [count_other b ho hc] at hk
        rw [count_other b ho hc, count_other b ho hc, ih c o k hk]

/-- **No parenthesis is without a partner** once the missing ones have been added. -/
theorem unmatched_balance (xs : List α) : b.unmatched (b.balance xs) = ⟨0, 0⟩ := by
  have hopened := b.foldl_count_opened xs 0 0 (b.unmatched xs).closing (by simp [unmatched])
  rw [← unmatched, Nat.zero_add, Nat.sub_self, Nat.add_zero] at hopened
  rw [balance, surround, unmatched, List.foldl_append, List.foldl_append, foldl_count_opening,
    Nat.zero_add, hopened, foldl_count_closing]

end Brackets

/-! ## Spelling and reading

A parenthesis at the front starts nothing but a group, and one at the end ends nothing but a
group: neither touches the spelling or the tokens of what lies between. -/

namespace Spelling

theorem canonical_surround (u : Unmatched) (text : List Char) :
    canonical (Text.brackets.surround u text) = Text.brackets.surround u (canonical text) := by
  have hglyphs : expandGlyphs (Text.brackets.surround u text) =
      Text.brackets.surround u (expandGlyphs text) := by
    simp [expandGlyphs, Brackets.surround, Text.brackets,
      flatMap_expandGlyph_replicate (show expandGlyph '(' = ['('] from rfl),
      flatMap_expandGlyph_replicate (show expandGlyph ')' = [')'] from rfl)]
  rw [canonical, hglyphs, Brackets.surround, Brackets.surround, canonical]
  show insertProducts (List.replicate u.closing '(' ++ _) = _
  rw [insertProducts_opening]
  exact congrArg _ (insertProducts_closing _ _)

end Spelling

namespace Token

theorem readFrom_opening (due : Bool) (index : Nat) (rest : List Char) :
    readFrom due index ('(' :: rest) = (readFrom true (index + 1) rest).map (.openParen :: ·) := by
  rw [readFrom_cons (not_startsRoot (by decide) rest)]
  rfl

theorem readFrom_closing (due : Bool) (index : Nat) (rest : List Char) :
    readFrom due index (')' :: rest) = (readFrom false (index + 1) rest).map (.closeParen :: ·) := by
  rw [readFrom_cons (not_startsRoot (by decide) rest)]
  rfl

/-- Letters other than those appended at the end are found in the text itself. -/
theorem prefix_of_prefix_append_replicate {letters text : List Char} {c : Char} {m : Nat}
    (hc : c ∉ letters) (h : letters <+: text ++ List.replicate m c) : letters <+: text := by
  cases m with
  | zero => rwa [List.replicate_zero, List.append_nil] at h
  | succ m =>
    rw [List.replicate_succ] at h
    exact prefix_of_prefix_append_cons hc h

theorem extendNumber_append (c : Char) (tokens : List Token) (m : Nat) :
    extendNumber c (tokens ++ List.replicate m .closeParen) =
      extendNumber c tokens ++ List.replicate m .closeParen := by
  cases tokens with
  | nil => cases m <;> rfl
  | cons token tokens => cases token <;> rfl

theorem readFrom_replicate_closing (due : Bool) (index m : Nat) :
    readFrom due index (List.replicate m ')') = .ok (List.replicate m .closeParen) := by
  induction m generalizing due index with
  | zero => rw [List.replicate_zero, readFrom]; rfl
  | succ m ih => rw [List.replicate_succ, readFrom_closing, ih]; rfl

/-- A closing parenthesis at the end is read as one, whatever stands before it. -/
theorem readFrom_append_closing (due : Bool) (index : Nat) (text : List Char) (m : Nat) :
    readFrom due index (text ++ List.replicate m ')') =
      (readFrom due index text).map (· ++ List.replicate m .closeParen) := by
  -- A closing parenthesis does not complete the letters of a root.
  have hroot : ∀ {c rest}, (∀ rest', c = 's' → rest = 'q' :: 'r' :: 't' :: rest' → False) →
      ¬rootLetters <+: c :: (rest ++ List.replicate m ')') := fun h hp =>
    not_startsRoot_of h (prefix_of_prefix_append_replicate (by decide) hp)
  fun_induction readFrom due index text with
  | case1 due index => rw [List.nil_append, readFrom_replicate_closing]; rfl
  | case2 due index rest ih =>
    show readFrom due index (rootLetters ++ (rest ++ List.replicate m ')')) = _
    rw [readFrom_root, ih]
    cases readFrom true (index + 4) rest <;> rfl
  | case3 due index c rest h hnumber ih =>
    rw [List.cons_append, readFrom_cons (hroot h), if_pos hnumber, ih]
    cases readFrom false (index + 1) rest with
    | error e => rfl
    | ok tokens => exact congrArg _ (extendNumber_append c tokens m)
  | case4 due index c rest h hnumber token htoken ih =>
    rw [List.cons_append, readFrom_cons (hroot h), if_neg hnumber, htoken]
    show (readFrom _ _ _).map _ = _
    rw [ih]
    cases readFrom token.expectsOperand (index + 1) rest <;> rfl
  | case5 due index c rest h hnumber hnone =>
    rw [List.cons_append, readFrom_cons (hroot h), if_neg hnumber, hnone]
    rfl

/-- Where a text starts decides on the place of its error and on nothing else. -/
theorem readFrom_add (due : Bool) (index k : Nat) (text : List Char) :
    readFrom due (index + k) text = (readFrom due index text).mapError (EvalError.moveBy k) := by
  fun_induction readFrom due index text with
  | case1 due index => rw [readFrom]; rfl
  | case2 due index rest ih =>
    show readFrom due (index + k) (rootLetters ++ rest) = _
    rw [readFrom_root, Nat.add_right_comm, ih]
    cases readFrom true (index + 4) rest <;> rfl
  | case3 due index c rest h hnumber ih =>
    rw [readFrom_cons (not_startsRoot_of h), if_pos hnumber, Nat.add_right_comm, ih]
    cases readFrom false (index + 1) rest <;> rfl
  | case4 due index c rest h hnumber token htoken ih =>
    rw [readFrom_cons (not_startsRoot_of h), if_neg hnumber, htoken]
    show (readFrom _ _ _).map _ = _
    rw [Nat.add_right_comm, ih]
    cases readFrom token.expectsOperand (index + 1) rest <;> rfl
  | case5 due index c rest h hnumber hnone =>
    rw [readFrom_cons (not_startsRoot_of h), if_neg hnumber, hnone]
    rfl

theorem readFrom_replicate_opening (index k : Nat) (text : List Char) :
    readFrom true index (List.replicate k '(' ++ text) =
      (readFrom true (index + k) text).map (List.replicate k .openParen ++ ·) := by
  induction k generalizing index with
  | zero =>
    show readFrom true index text = _
    rw [Nat.add_zero]
    cases readFrom true index text <;> rfl
  | succ k ih =>
    rw [List.replicate_succ, List.cons_append, readFrom_opening, ih, Nat.add_right_comm]
    cases readFrom true (index + k + 1) text <;> rfl

/-- **Reading passes parentheses at both ends by**, except that it counts those in front. -/
theorem read_surround (u : Unmatched) (text : List Char) :
    read (Text.brackets.surround u text) =
      ((read text).mapError (EvalError.moveBy u.closing)).map (brackets.surround u) := by
  rw [read, read, Brackets.surround]
  show readFrom true 0 (List.replicate u.closing '(' ++ (text ++ List.replicate u.opening ')')) = _
  rw [readFrom_replicate_opening, readFrom_append_closing, readFrom_add]
  cases readFrom true 0 text <;> rfl

end Token

/-! ## Conversion

Two runs are compared whose stacks differ by groups at the bottom. They make the same steps until
a closing parenthesis finds no group on the one stack, and takes one from the bottom of the
other; the stacks then differ by one group less. -/

namespace Postfix

/-- So many groups, one inside the other. -/
def groups (k : Nat) : List Pending := List.replicate k .group

theorem release_groups (k : Nat) : release (groups k) = [] := by
  induction k with
  | zero => rfl
  | succ k ih => exact ih

theorem takeWhile_append_groups {p : Pending → Bool} (hp : p .group = false)
    (stack : List Pending) (k : Nat) : (stack ++ groups k).takeWhile p = stack.takeWhile p := by
  induction stack with
  | nil => cases k <;> simp [groups, List.replicate_succ, hp]
  | cons entry stack ih =>
    rw [List.cons_append, List.takeWhile_cons, List.takeWhile_cons, ih]

theorem dropWhile_append_groups {p : Pending → Bool} (hp : p .group = false)
    (stack : List Pending) (k : Nat) :
    (stack ++ groups k).dropWhile p = stack.dropWhile p ++ groups k := by
  induction stack with
  | nil => cases k <;> simp [groups, List.replicate_succ, hp]
  | cons entry stack ih =>
    rw [List.cons_append, List.dropWhile_cons, List.dropWhile_cons, ih]
    split <;> rfl

theorem leaveGroup_append_groups (stack : List Pending) (k : Nat) :
    ∃ j, leaveGroup (stack ++ groups k) =
      ((leaveGroup stack).1, (leaveGroup stack).2 ++ groups j) := by
  match stack with
  | [] =>
    cases k with
    | zero => exact ⟨0, rfl⟩
    | succ k =>
      -- Only here does a closing parenthesis take a group from the bottom.
      exact ⟨k, by cases k <;> rfl⟩
  | [.group] => exact ⟨k, by cases k <;> rfl⟩
  | .group :: .unary .squareRoot :: _ | .group :: .unary .negate :: _
  | .group :: .binary _ :: _ | .group :: .group :: _
  | .binary _ :: _ | .unary _ :: _ => exact ⟨k, rfl⟩

/-- **Groups at the bottom of the stack change nothing.** -/
theorem convertWith_append_groups (tokens : List Token) (stack : List Pending) (k : Nat) :
    convertWith (stack ++ groups k) tokens = convertWith stack tokens := by
  induction tokens generalizing stack k with
  | nil => rw [convertWith, convertWith, release_append, release_groups, List.append_nil]
  | cons token tokens ih =>
    cases token with
    | number text => exact congrArg (.number text :: ·) (ih stack k)
    | unary op => exact ih (.unary op :: stack) k
    | binary op =>
      rw [convertWith, convertWith, takeWhile_append_groups (p := (·.completedBy op)) rfl,
        dropWhile_append_groups (p := (·.completedBy op)) rfl, ← List.cons_append, ih]
    | openParen => exact ih (.group :: stack) k
    | closeParen =>
      obtain ⟨j, hj⟩ := leaveGroup_append_groups (stack.dropWhile (·.isOperator)) k
      rw [convertWith_closeParen, convertWith_closeParen,
        takeWhile_append_groups (p := (·.isOperator)) rfl,
        dropWhile_append_groups (p := (·.isOperator)) rfl, hj, ih]

theorem convertWith_replicate_closeParen (stack : List Pending) (m : Nat) :
    convertWith stack (List.replicate m .closeParen) = release stack := by
  induction m generalizing stack with
  | zero => rfl
  | succ m ih =>
    rw [List.replicate_succ, convertWith_closeParen, ih, release_closeGroup]

theorem convertWith_append_closeParen (tokens : List Token) (stack : List Pending) (m : Nat) :
    convertWith stack (tokens ++ List.replicate m .closeParen) = convertWith stack tokens := by
  induction tokens generalizing stack with
  | nil => exact convertWith_replicate_closeParen stack m
  | cons token tokens ih =>
    cases token with
    | number text => exact congrArg (.number text :: ·) (ih stack)
    | unary op => exact ih (.unary op :: stack)
    | binary op => rw [List.cons_append, convertWith, ih, convertWith]
    | openParen => exact ih (.group :: stack)
    | closeParen => rw [List.cons_append, convertWith_closeParen, convertWith_closeParen, ih]

theorem convertWith_replicate_openParen (tokens : List Token) (stack : List Pending) (k : Nat) :
    convertWith stack (List.replicate k .openParen ++ tokens) =
      convertWith (groups k ++ stack) tokens := by
  induction k generalizing stack with
  | zero => rfl
  | succ k ih =>
    rw [List.replicate_succ, List.cons_append, convertWith, ih, groups, groups,
      List.replicate_succ', List.append_assoc, List.singleton_append]

/-- **Parentheses around a token list change nothing in its postfix order**, whether they have
partners in it or not. -/
theorem ofInfix_surround (u : Unmatched) (tokens : List Token) :
    ofInfix (Token.brackets.surround u tokens) = ofInfix tokens := by
  rw [ofInfix, ofInfix, Brackets.surround]
  show convertWith [] (List.replicate u.closing .openParen ++
    (tokens ++ List.replicate u.opening .closeParen)) = _
  rw [convertWith_replicate_openParen, List.append_nil, ← List.nil_append (groups _),
    convertWith_append_groups, convertWith_append_closeParen]

end Postfix

/-! ## Outcomes

Only reading reports a place (`Postfix.hasNoPlace_of_evaluate`), so an error found later is what it
was. -/

namespace Evaluation

/-- Parentheses around an expression move the place of its error, and change nothing else. -/
theorem value_surround (u : Unmatched) (expression : List Char) :
    value (Text.brackets.surround u expression) =
      (value expression).mapError (EvalError.moveBy u.closing) := by
  rw [value, value, orderedTokens, orderedTokens, Spelling.canonical_surround, Token.read_surround]
  cases Token.read (Spelling.canonical expression) with
  | error e => rfl
  | ok tokens =>
    show Postfix.evaluate (Postfix.ofInfix (Token.brackets.surround u tokens)) = _
    rw [Postfix.ofInfix_surround]
    show _ = (Postfix.evaluate (Postfix.ofInfix tokens)).mapError _
    cases h : Postfix.evaluate (Postfix.ofInfix tokens) with
    | ok v => rfl
    | error e => exact congrArg _ (Postfix.hasNoPlace_of_evaluate h _).symm

/-- **Lenience is balancing.** An expression has the outcome of the expression in which its missing
parentheses have been added, except that an error found in reading is reported further right by as
many characters as have been put in front; and on tokens, whatever they are, the postfix order of
a list is that of the balanced list. -/
theorem evaluate_balance :
    (∀ (settings : Settings) (expression : List Char),
      evaluate settings (Text.brackets.balance expression) =
        (evaluate settings expression).map fun outcome =>
          outcome.mapError (EvalError.moveBy (Text.brackets.unmatched expression).closing)) ∧
    ∀ tokens : List Token,
      Postfix.ofInfix (Token.brackets.balance tokens) = Postfix.ofInfix tokens := by
  refine ⟨fun settings expression => ?_, fun tokens => Postfix.ofInfix_surround _ tokens⟩
  cases expression with
  | nil => rfl
  | cons c rest =>
    have hne : (Text.brackets.balance (c :: rest)).isEmpty = false := by
      simp [Brackets.balance, Brackets.surround]
    rw [evaluate, evaluate, hne, Brackets.balance, value_surround]
    cases value (c :: rest) with
    | error e => rfl
    | ok v =>
      show (Display.text settings v).map _ = ((Display.text settings v).map _).map _
      cases Display.text settings v <;> rfl

end Evaluation

end Reckoner
