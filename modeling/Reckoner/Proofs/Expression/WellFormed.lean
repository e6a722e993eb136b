import Mathlib.Data.List.Chain
import Reckoner.Proofs.Expression.Grammar
import Reckoner.Proofs.Expression.Parentheses
/-!
# `Reckoner/Proofs/Expression/WellFormed.lean` — which token lists have a value

The conversion looks at no two neighbouring tokens, and the postfix machine only counts operands.
So it has to be asked which malformed token lists slip through.

> **Counting finds every operand that is missing, and misses those that stand side by side.** A
> token list that has a value is, with its missing parentheses added, an expression of the grammar
> if and only if no two operands in it stand side by side.

`4 sqrt` and `4 sqrt 9 +` are lists of the second kind: an operand is missing where another one is
too many, and the count comes out right.

## How it is proved

The grammar is turned into a recogniser that reads from the left, and remembers whether an operand
is due and how many groups are open (`fits_iff_derives`). A list whose operands are apart and whose
parentheses have partners can only fail it for want of an operand, and then it has too few
numbers for its binary operators (`le_and_fits`). Conversion keeps both numbers.
-/

set_option autoImplicit false

namespace Reckoner

/-! ## A recogniser -/

namespace Expression

/-- The token list is the rest of an expression in which an operand is due, or is not, and in which
so many groups are open. -/
def fits : (due : Bool) → (depth : Nat) → List Token → Bool
  | due, depth, [] => !due && depth == 0
  | due, depth, .number _ :: rest => due && fits false depth rest
  | due, depth, .unary _ :: rest => due && fits true depth rest
  | due, depth, .openParen :: rest => due && fits true (depth + 1) rest
  | due, depth, .binary _ :: rest => !due && fits true depth rest
  | _, 0, .closeParen :: _ => false
  | due, depth + 1, .closeParen :: rest => !due && fits false depth rest

theorem fits_of_derives {c : Category} {w : List Token} (h : Derives c w) (depth : Nat)
    (rest : List Token) : fits true depth (w ++ rest) = fits false depth rest := by
  induction h generalizing depth rest with
  | number text => simp [fits]
  | unary op _ ih => simp [fits, ih]
  | group _ ih => simp [fits, ih]
  | single _ ih => exact ih depth rest
  | binary op _ _ ihv ihw => simp [fits, ihv, ihw]

/-- What follows an expression inside so many groups: the end, or the end of the innermost group
and what follows that. -/
inductive Outside : Nat → List Token → Prop where
  | nil : Outside 0 []
  | closeParen {depth : Nat} {rest : List Token} :
      fits false depth rest = true → Outside (depth + 1) (.closeParen :: rest)

theorem derives_of_fits (n : Nat) : ∀ (depth : Nat) (w : List Token), w.length ≤ n →
    (fits true depth w = true →
      ∃ e rest, w = e ++ rest ∧ Derives .expression e ∧ Outside depth rest) ∧
    (fits false depth w = true → ∃ tail rest, w = tail ++ rest ∧ Tail tail ∧ Outside depth rest) := by
  -- On the length, since what follows a group is not a tail of what the group is read from.
  induction n with
  | zero =>
    intro depth w hw
    obtain rfl : w = [] := List.length_eq_zero_iff.mp (Nat.le_zero.mp hw)
    refine ⟨fun h => absurd h (by simp [fits]), fun h => ?_⟩
    obtain rfl : depth = 0 := by simpa [fits] using h
    exact ⟨[], [], rfl, .nil, .nil⟩
  | succ n ih =>
    intro depth w hw
    cases w with
    | nil => exact ih depth [] (Nat.zero_le n)
    | cons token w =>
      have hn : w.length ≤ n := Nat.le_of_succ_le_succ hw
      cases token with
      | number text =>
        refine ⟨fun h => ?_, fun h => absurd h (by simp [fits])⟩
        obtain ⟨tail, rest, rfl, ht, ho⟩ := (ih depth w hn).2 (by simpa [fits] using h)
        exact ⟨.number text :: tail, rest, rfl, .number_tail text ht, ho⟩
      | unary op =>
        refine ⟨fun h => ?_, fun h => absurd h (by simp [fits])⟩
        obtain ⟨e, rest, rfl, he, ho⟩ := (ih depth w hn).1 (by simpa [fits] using h)
        exact ⟨.unary op :: e, rest, rfl, .unary_expression op he, ho⟩
      | binary op =>
        refine ⟨fun h => absurd h (by simp [fits]), fun h => ?_⟩
        obtain ⟨e, rest, rfl, he, ho⟩ := (ih depth w hn).1 (by simpa [fits] using h)
        exact ⟨.binary op :: e, rest, rfl, .binary op he, ho⟩
      | openParen =>
        refine ⟨fun h => ?_, fun h => absurd h (by simp [fits])⟩
        -- What is read inside the group ends at its closing parenthesis, and a tail follows that.
        obtain ⟨e, inner, rfl, he, ho⟩ := (ih (depth + 1) w hn).1 (by simpa [fits] using h)
        cases ho with
        | @closeParen _ rest hrest =>
          have hlen : rest.length ≤ n := by
            rw [List.length_append, List.length_cons] at hn
            omega
          obtain ⟨tail, rest, rfl, ht, ho⟩ := (ih depth rest hlen).2 hrest
          exact ⟨.openParen :: (e ++ .closeParen :: tail), rest, by simp, .group_tail he ht, ho⟩
      | closeParen =>
        cases depth with
        | zero => exact ⟨fun h => absurd h (by simp [fits]), fun h => absurd h (by simp [fits])⟩
        | succ depth =>
          refine ⟨fun h => absurd h (by simp [fits]), fun h => ?_⟩
          exact ⟨[], .closeParen :: w, rfl, .nil, .closeParen (by simpa [fits] using h)⟩

/-- **The recogniser decides the grammar.** -/
theorem fits_iff_derives {w : List Token} : fits true 0 w = true ↔ Derives .expression w := by
  constructor
  · intro h
    obtain ⟨e, rest, rfl, he, ho⟩ := (derives_of_fits w.length 0 w (Nat.le_refl _)).1 h
    cases ho
    rwa [List.append_nil]
  · intro h
    have hfits := fits_of_derives h 0 []
    rwa [List.append_nil] at hfits

instance (w : List Token) : Decidable (Derives .expression w) :=
  decidable_of_iff _ fits_iff_derives

/-! ## Operands side by side -/

/-- An operand starts with this token. -/
def startsOperand : Token → Bool
  | .number _ | .unary _ | .openParen => true
  | .binary _ | .closeParen => false

/-- No two operands stand side by side: where one starts, one is due. -/
def OperandsApart (tokens : List Token) : Prop :=
  tokens.IsChain fun left right => startsOperand right = true → left.expectsOperand = true

/-- Behind an operand, no operand starts. -/
def StartsWhereDue (due : Bool) (tokens : List Token) : Prop :=
  ∀ token ∈ tokens.head?, startsOperand token = true → due = true

theorem OperandsApart.tail {token : Token} {rest : List Token}
    (h : OperandsApart (token :: rest)) :
    OperandsApart rest ∧ StartsWhereDue token.expectsOperand rest := by
  unfold OperandsApart at h
  rw [List.isChain_cons] at h
  exact ⟨h.2, fun next hmem hstart => h.1 next hmem hstart⟩

theorem operandsApart_of_fits {due : Bool} {depth : Nat} {tokens : List Token}
    (h : fits due depth tokens = true) : OperandsApart tokens ∧ StartsWhereDue due tokens := by
  induction tokens generalizing due depth with
  | nil => exact ⟨.nil, fun token hmem => absurd hmem (by simp)⟩
  | cons token rest ih =>
    have hrest : ∃ depth', fits token.expectsOperand depth' rest = true := by
      cases token with
      | number | unary | binary | openParen =>
        simp only [fits, Bool.and_eq_true] at h
        exact ⟨_, h.2⟩
      | closeParen =>
        cases depth with
        | zero => exact absurd h (by simp [fits])
        | succ depth =>
          simp only [fits, Bool.and_eq_true] at h
          exact ⟨depth, h.2⟩
    obtain ⟨depth', hrest⟩ := hrest
    refine ⟨?_, ?_⟩
    · unfold OperandsApart
      rw [List.isChain_cons]
      exact ⟨fun next hmem hstart => (ih hrest).2 next hmem hstart, (ih hrest).1⟩
    · intro next hmem hstart
      obtain rfl : token = next := by simpa using hmem
      cases token with
      | number | unary | openParen => simp only [fits, Bool.and_eq_true] at h; exact h.1
      | binary | closeParen => exact absurd hstart (by simp [startsOperand])

/-- **An operand that is missing is missing from the count.** In the rest of a list in which the
operands are apart and the parentheses have partners, there are at most as many numbers as the
binary operators need; and if there are as many, the rest is one of an expression. -/
theorem le_and_fits {due : Bool} {depth : Nat} {tokens : List Token}
    (hapart : OperandsApart tokens) (hdue : StartsWhereDue due tokens)
    (hpartners : tokens.foldl Token.brackets.count ⟨0, depth⟩ = ⟨0, 0⟩) :
    tokens.countP Token.isNumber + cond due 0 1 ≤ tokens.countP Token.isBinary + 1 ∧
      (tokens.countP Token.isNumber + cond due 0 1 = tokens.countP Token.isBinary + 1 →
        fits due depth tokens = true) := by
  induction tokens generalizing due depth with
  | nil =>
    obtain rfl : depth = 0 := by simpa using hpartners
    cases due <;> simp [fits]
  | cons token rest ih =>
    obtain ⟨hrest, hnext⟩ := hapart.tail
    have hstarts := hdue token rfl
    rw [List.foldl_cons] at hpartners
    cases token with
    | number text =>
      obtain rfl : due = true := hstarts rfl
      obtain ⟨hle, hfits⟩ := ih hrest hnext hpartners
      simp only [Token.expectsOperand, cond_false] at hle hfits
      simp only [List.countP_cons, Token.isNumber, Token.isBinary, cond_true, fits]
      exact ⟨by simp; omega, fun h => by simp at h ⊢; exact hfits (by omega)⟩
    | unary op =>
      obtain rfl : due = true := hstarts rfl
      obtain ⟨hle, hfits⟩ := ih hrest hnext hpartners
      simp only [Token.expectsOperand, cond_true] at hle hfits
      simpa [Token.isNumber, Token.isBinary, fits] using ⟨hle, hfits⟩
    | binary op =>
      obtain ⟨hle, hfits⟩ := ih hrest hnext hpartners
      simp only [Token.expectsOperand, cond_true] at hle hfits
      cases due with
      | true =>
        -- An operator where an operand is due: the rest cannot make up for the missing number.
        simp only [List.countP_cons, Token.isNumber, Token.isBinary, cond_true]
        exact ⟨by simp; omega, fun h => by simp at h; omega⟩
      | false =>
        simp only [List.countP_cons, Token.isNumber, Token.isBinary, cond_false, fits]
        exact ⟨by simp; omega, fun h => by simp at h ⊢; exact hfits (by omega)⟩
    | openParen =>
      obtain rfl : due = true := hstarts rfl
      obtain ⟨hle, hfits⟩ := ih hrest hnext hpartners
      simp only [Token.expectsOperand, cond_true] at hle hfits
      simpa [Token.isNumber, Token.isBinary, fits] using ⟨hle, hfits⟩
    | closeParen =>
      cases depth with
      | zero =>
        -- A closing parenthesis without a partner would stay without one.
        have hle := Token.brackets.closing_le_foldl rest 1 0
        rw [show Token.brackets.count ⟨0, 0⟩ .closeParen = ⟨1, 0⟩ from rfl] at hpartners
        rw [hpartners] at hle
        exact absurd hle (by simp)
      | succ depth =>
        rw [show Token.brackets.count ⟨0, depth + 1⟩ .closeParen = ⟨0, depth⟩ from rfl] at hpartners
        obtain ⟨hle, hfits⟩ := ih hrest hnext hpartners
        simp only [Token.expectsOperand, cond_false] at hle hfits
        cases due with
        | true =>
          simp only [List.countP_cons, Token.isNumber, Token.isBinary, cond_true]
          exact ⟨by simp; omega, fun h => by simp at h; omega⟩
        | false =>
          simp only [List.countP_cons, Token.isNumber, Token.isBinary, cond_false, fits]
          exact ⟨by simp; omega, fun h => by simp at h ⊢; exact hfits (by omega)⟩

/-! ## The missing parentheses

A parenthesis opened in front of an operand makes it due, and one closed behind it starts none, so
the parentheses that are added stand between no two operands. -/

theorem operandsApart_replicate_closeParen (m : Nat) :
    OperandsApart (List.replicate m .closeParen) := by
  induction m with
  | zero => exact .nil
  | succ m ih =>
    rw [List.replicate_succ, OperandsApart, List.isChain_cons]
    refine ⟨fun next hmem hstart => ?_, ih⟩
    obtain rfl := List.eq_of_mem_replicate (List.mem_of_mem_head? hmem)
    exact absurd hstart (by simp [startsOperand])

theorem operandsApart_append_closeParen {tokens : List Token} (h : OperandsApart tokens) (m : Nat) :
    OperandsApart (tokens ++ List.replicate m .closeParen) := by
  rw [OperandsApart, List.isChain_append]
  refine ⟨h, operandsApart_replicate_closeParen m, fun left _ right hmem hstart => ?_⟩
  obtain rfl := List.eq_of_mem_replicate (List.mem_of_mem_head? hmem)
  exact absurd hstart (by simp [startsOperand])

theorem operandsApart_openParen_append {tokens : List Token} (h : OperandsApart tokens) (k : Nat) :
    OperandsApart (List.replicate k .openParen ++ tokens) := by
  induction k with
  | zero => exact h
  | succ k ih =>
    rw [List.replicate_succ, List.cons_append, OperandsApart, List.isChain_cons]
    exact ⟨fun _ _ _ => rfl, ih⟩

theorem operandsApart_surround_iff (u : Unmatched) {tokens : List Token} :
    OperandsApart (Token.brackets.surround u tokens) ↔ OperandsApart tokens := by
  constructor
  · intro h
    exact h.infix ⟨_, _, List.append_assoc _ _ _⟩
  · intro h
    exact operandsApart_openParen_append (operandsApart_append_closeParen h _) _

theorem countP_surround {p : Token → Bool} (hopen : p .openParen = false)
    (hclose : p .closeParen = false) (u : Unmatched) (tokens : List Token) :
    (Token.brackets.surround u tokens).countP p = tokens.countP p := by
  simp [Brackets.surround, Token.brackets, List.countP_replicate, hopen, hclose]

/-- In a list with as many numbers as its binary operators need, the missing parentheses make an
expression if and only if the operands are apart. -/
theorem derives_balance_iff {tokens : List Token}
    (hcount : tokens.countP Token.isNumber = tokens.countP Token.isBinary + 1) :
    Derives .expression (Token.brackets.balance tokens) ↔ OperandsApart tokens := by
  rw [← fits_iff_derives]
  constructor
  · intro h
    exact (operandsApart_surround_iff _).mp (operandsApart_of_fits h).1
  · intro h
    refine (le_and_fits ((operandsApart_surround_iff _).mpr h) (fun _ _ _ => rfl)
      (Token.brackets.unmatched_balance tokens)).2 ?_
    rw [cond_true, Nat.add_zero, countP_surround rfl rfl, countP_surround rfl rfl, hcount]

end Expression

/-! ## Expressions with a value -/

namespace Postfix

theorem countP_ofInfix {p : Token → Bool} (hopen : p .openParen = false)
    (hclose : p .closeParen = false) (tokens : List Token) :
    (ofInfix tokens).countP p = tokens.countP p := by
  rw [(ofInfix_perm tokens).countP_eq, List.countP_filter]
  refine List.countP_congr fun token _ => ?_
  cases token <;> simp [Token.isKept, hopen, hclose]

end Postfix

namespace Evaluation

/-- **Which expressions with a value are well formed.** An expression that is not empty and has a
value consists of tokens, and these are, with their missing parentheses added, an expression of the
grammar if and only if no two operands in them stand side by side. -/
theorem derives_iff_operandsApart {settings : Settings} {expression text : List Char}
    (hne : expression ≠ []) (h : evaluate settings expression = .ok (.ok text)) :
    ∃ tokens, Token.read (Spelling.canonical expression) = .ok tokens ∧
      (Expression.Derives .expression (Token.brackets.balance tokens) ↔
        Expression.OperandsApart tokens) := by
  obtain ⟨v, hvalue, -⟩ := (evaluate_eq_ok_iff hne).mp h
  obtain ⟨tokens, hread, hv⟩ := value_eq_ok_iff.mp hvalue
  have hcount := Postfix.countP_of_evaluate hv
  rw [Postfix.countP_ofInfix rfl rfl, Postfix.countP_ofInfix rfl rfl] at hcount
  exact ⟨tokens, hread, Expression.derives_balance_iff hcount⟩

/-- The two operands of `(2)-√9` stand apart. -/
theorem derives_difference_of_root :
    ("(2)-√9".toList ≠ [] ∧
      evaluate Settings.default "(2)-√9".toList = .ok (.ok "-1".toList)) ∧
    ∃ tokens, Token.read (Spelling.canonical "(2)-√9".toList) = .ok tokens ∧
      (Expression.Derives .expression (Token.brackets.balance tokens) ↔
        Expression.OperandsApart tokens) :=
  ⟨⟨by decide, by decide +kernel⟩,
    derives_iff_operandsApart (by decide)
      (show evaluate Settings.default "(2)-√9".toList = .ok (.ok "-1".toList) by decide +kernel)⟩

/-- A square root at the end finds the operand before it: `4√` has a value, and is no expression
of the grammar. -/
theorem trailing_root_has_value :
    evaluate Settings.default "4√".toList = .ok (.ok "2".toList) ∧
      Token.read (Spelling.canonical "4√".toList) =
        .ok [.number "4".toList, .unary .squareRoot] ∧
      ¬Expression.Derives .expression
        (Token.brackets.balance [.number "4".toList, .unary .squareRoot]) :=
  ⟨by decide +kernel, by decide +kernel, by decide⟩

end Evaluation

end Reckoner
