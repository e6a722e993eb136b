import Reckoner.Postfix.Conversion
import Reckoner.Proofs.Expression.Grammar
import Reckoner.Proofs.Expression.Tree
/-!
# `Reckoner/Proofs/Expression/Climbing.lean` — the tree of an expression

Which tree an expression has is laid down by *precedence climbing*, a recursive reading without a
stack: at level `m`, an operand is read, and then, as long as the next token is a binary operator
of a level above `m`, that operator takes what has been read on its left and what is read at its
own level on its right. All binary operators therefore group to the left. A negation reads its
operand at the level of a product, and a square root at a level above every binary operator.

> **Conversion to postfix order is the post-order of that tree**, on every token list of the
> grammar, and evaluating it is computing the tree.

## The invariant

The operator stack is not ordered by precedence: a negation may wait above a power. What holds is
a statement about one call of the recursive reading. Reading at level `m` while a stack *waits at*
`m` puts the post-order of the tree out and leaves the stack as it was (`Reading`). The stack of
a nested call has exactly one entry more than that of its caller, the operator or the group that
made the call, so the entries of the stack are the callers of the recursion, one for one.
-/

set_option autoImplicit false

namespace Reckoner.Expression

/-! ## Precedence climbing -/

/-- The level of a binary operator. -/
def level : BinaryOp → Nat
  | .add | .subtract => 1
  | .multiply | .divide => 2
  | .power => 3

/-- The level at which a unary operator reads its operand. -/
def operandLevel : UnaryOp → Nat
  | .negate => 2
  | .squareRoot => 4

/-- What has been read from the front of a token list: its tree, and a rest that is shorter. -/
structure Parsed (tokens : List Token) where
  tree : Tree
  rest : List Token
  shorter : rest.length < tokens.length

mutual

/-- An expression read at the given level: an operand, extended as far as the level allows. -/
def climb (m : Nat) (tokens : List Token) : Option (Parsed tokens) :=
  match readOperand tokens with
  | some first => extend m first
  | none => none
termination_by (tokens.length, 1)
decreasing_by
  · exact Prod.Lex.right _ Nat.zero_lt_one
  · exact Prod.Lex.left _ _ first.shorter

/-- A number, a group, or a unary operator with what it applies to. -/
def readOperand (tokens : List Token) : Option (Parsed tokens) :=
  match tokens with
  | .number text :: rest => some ⟨.number text, rest, Nat.lt_succ_self _⟩
  | .unary op :: rest =>
    match climb (operandLevel op) rest with
    | some operand => some ⟨.unary op operand.tree, operand.rest, Nat.lt_succ_of_lt operand.shorter⟩
    | none => none
  | .openParen :: rest =>
    match climb 0 rest with
    | some ⟨tree, .closeParen :: outer, h⟩ =>
      some ⟨tree, outer, Nat.lt_succ_of_lt (Nat.lt_of_succ_lt h)⟩
    | _ => none
  | _ => none
termination_by (tokens.length, 0)

/-- What has been read, extended by the binary operators of a level above the given one. -/
def extend (m : Nat) {tokens : List Token} (left : Parsed tokens) : Option (Parsed tokens) :=
  match h : left.rest with
  | .binary op :: rest =>
    if m < level op then
      match climb (level op) rest with
      | some right =>
        have shorter : right.rest.length < left.rest.length := by
          rw [h]; exact Nat.lt_succ_of_lt right.shorter
        extend m ⟨.binary op left.tree right.tree, right.rest, Nat.lt_trans shorter left.shorter⟩
      | none => none
    else some left
  | _ => some left
termination_by (left.rest.length, 1)
decreasing_by
  · rw [h]; exact Prod.Lex.left _ _ (Nat.lt_succ_self _)
  · exact Prod.Lex.left _ _ shorter

end

/-- The tree of a token list that is an expression as a whole. -/
def tree? (tokens : List Token) : Option Tree :=
  match climb 0 tokens with
  | some ⟨tree, [], _⟩ => some tree
  | _ => none

/-! ## The operator stack

What the reading of an expression may end at: the end of the text, the end of the group, or a
binary operator that is left to a caller. Each of them releases what the expression has put on the
stack. -/

/-- The text ends, or a group does. -/
inductive Ends : List Token → Prop where
  | nil : Ends []
  | closeParen (rest : List Token) : Ends (.closeParen :: rest)

/-- A binary operator at the front has at most the given level. -/
def AtMost (m : Nat) (rest : List Token) : Prop :=
  ∀ op after, rest = .binary op :: after → level op ≤ m

/-- The entry on top of the stack lets every operator of a level above `m` go on top of it. -/
def WaitsAt (m : Nat) (stack : List Postfix.Pending) : Prop :=
  ∀ op, m < level op → ∀ entry ∈ stack.head?, entry.completedBy op = false

theorem level_eq_precedence (op : BinaryOp) : level op = op.precedence := by
  cases op <;> rfl

theorem operandLevel_eq_precedence (op : UnaryOp) : operandLevel op = op.precedence := by
  cases op <;> rfl

theorem waitsAt_nil (m : Nat) : WaitsAt m [] := by
  intro op _ entry h
  exact absurd h (by simp)

theorem waitsAt_group (m : Nat) (stack : List Postfix.Pending) : WaitsAt m (.group :: stack) := by
  intro op _ entry h
  obtain rfl : Postfix.Pending.group = entry := by simpa using h
  rfl

theorem waitsAt_binary (op : BinaryOp) (stack : List Postfix.Pending) :
    WaitsAt (level op) (.binary op :: stack) := by
  intro op' hlt entry h
  obtain rfl : Postfix.Pending.binary op = entry := by simpa using h
  simpa [Postfix.Pending.completedBy, ← level_eq_precedence] using hlt

theorem waitsAt_unary (op : UnaryOp) (stack : List Postfix.Pending) :
    WaitsAt (operandLevel op) (.unary op :: stack) := by
  intro op' hlt entry h
  obtain rfl : Postfix.Pending.unary op = entry := by simpa using h
  simpa [Postfix.Pending.completedBy, ← level_eq_precedence, ← operandLevel_eq_precedence]
    using hlt

theorem convertWith_binary_of_waitsAt {m : Nat} {stack : List Postfix.Pending} {op : BinaryOp}
    (h : WaitsAt m stack) (hm : m < level op) (rest : List Token) :
    Postfix.convertWith stack (.binary op :: rest) =
      Postfix.convertWith (.binary op :: stack) rest := by
  cases stack with
  | nil => rfl
  | cons entry stack =>
    have hc : entry.completedBy op = false := h op hm entry (by simp)
    simp [Postfix.convertWith, Postfix.release, hc]

/-- What an expression may be followed by: its end, or the binary operator of a tail. -/
def Follows (rest : List Token) : Prop := Ends rest ∨ ∃ op after, rest = .binary op :: after

theorem Tail.follows {tail rest : List Token} (ht : Tail tail) (hr : Ends rest) :
    Follows (tail ++ rest) := by
  cases ht with
  | nil => exact .inl hr
  | binary op _ => exact .inr ⟨op, _, rfl⟩

theorem Tail.atMost_append {m : Nat} {tail rest : List Token} (h : AtMost m tail)
    (hr : Ends rest) : AtMost m (tail ++ rest) := by
  intro op after heq
  cases tail with
  | nil =>
    rw [List.nil_append] at heq
    subst heq
    cases hr
  | cons token tail =>
    rw [List.cons_append, List.cons.injEq] at heq
    exact h op tail (by rw [heq.1])

theorem Tail.eq_nil_of_atMost_zero {tail : List Token} (ht : Tail tail) (hm : AtMost 0 tail) :
    tail = [] := by
  cases ht with
  | nil => rfl
  | binary op _ =>
    -- No binary operator has a level of zero, so what is read at level zero is read to its end.
    have hlevel : level op ≤ 0 := hm op _ rfl
    cases op <;> exact absurd hlevel (Nat.not_succ_le_zero _)

/-- **An operator is released by what follows its last operand**, if that is the end of the text
or of the group, or a binary operator that binds no tighter. -/
theorem convertWith_cons_of_follows {entry : Postfix.Pending} {token : Token} {rest : List Token}
    (ht : entry.token? = some token) (hf : Follows rest)
    (hc : ∀ op after, rest = .binary op :: after → entry.completedBy op = true)
    (stack : List Postfix.Pending) :
    Postfix.convertWith (entry :: stack) rest = token :: Postfix.convertWith stack rest := by
  have ho : entry.isOperator = true := by
    cases entry with
    | group => exact absurd ht (by simp [Postfix.Pending.token?])
    | binary | unary => rfl
  rcases hf with (_ | ⟨after⟩) | ⟨op, after, rfl⟩
  · simp [Postfix.convertWith, Postfix.release, ht]
  · simp [Postfix.convertWith, Postfix.release, ht, ho]
  · have hc := hc op after rfl
    simp [Postfix.convertWith, Postfix.release, ht, hc]

theorem convertWith_binary_cons {op : BinaryOp} {rest : List Token} (hf : Follows rest)
    (h : AtMost (level op) rest) (stack : List Postfix.Pending) :
    Postfix.convertWith (.binary op :: stack) rest =
      .binary op :: Postfix.convertWith stack rest := by
  refine convertWith_cons_of_follows rfl hf (fun op' after heq => ?_) stack
  simpa [Postfix.Pending.completedBy, ← level_eq_precedence] using h op' after heq

theorem convertWith_unary_cons {op : UnaryOp} {rest : List Token} (hf : Follows rest)
    (h : AtMost (operandLevel op) rest) (stack : List Postfix.Pending) :
    Postfix.convertWith (.unary op :: stack) rest =
      .unary op :: Postfix.convertWith stack rest := by
  refine convertWith_cons_of_follows rfl hf (fun op' after heq => ?_) stack
  simpa [Postfix.Pending.completedBy, ← level_eq_precedence, ← operandLevel_eq_precedence]
    using h op' after heq

/-- The square root before a group goes out with the group. Nothing that follows could have kept
it on the stack, so this comes to leaving it there. -/
theorem convertWith_group_closeParen {rest : List Token} (hf : Follows rest)
    (stack : List Postfix.Pending) :
    Postfix.convertWith (.group :: stack) (.closeParen :: rest) =
      Postfix.convertWith stack rest := by
  match stack with
  | .unary .squareRoot :: stack =>
    have hlevel : ∀ op, level op ≤ operandLevel .squareRoot := by intro op; cases op <;> decide
    rw [convertWith_unary_cons hf fun op _ _ => hlevel op]
    rfl
  | [] | .group :: _ | .binary _ :: _ | .unary .negate :: _ => rfl

/-! ## One call of the recursive reading -/

/-- **A right reading at level `m`** of tokens that end with `rest`: it leaves a tail for its
callers, and puts the post-order of its tree out under every stack that waits at `m`. -/
structure ReadsAt (m : Nat) (rest : List Token) {tokens : List Token} (p : Parsed tokens) : Prop where
  tail : ∃ tail, Tail tail ∧ AtMost m tail ∧ p.rest = tail ++ rest
  convert : ∀ stack, WaitsAt m stack →
    Postfix.convertWith stack tokens = p.tree.postorder ++ Postfix.convertWith stack p.rest

/-- A right reading of an operand, which does not depend on what the stack waits for. -/
structure ReadsOperand (rest : List Token) {tokens : List Token} (p : Parsed tokens) : Prop where
  tail : ∃ tail, Tail tail ∧ p.rest = tail ++ rest
  convert : ∀ stack,
    Postfix.convertWith stack tokens = p.tree.postorder ++ Postfix.convertWith stack p.rest

/-- Every expression shorter than `n`, up to where it ends, is read right at every level. -/
def ReadsBelow (n : Nat) : Prop :=
  ∀ m e rest, Derives .expression e → Ends rest → (e ++ rest).length < n →
    ∃ p, climb m (e ++ rest) = some p ∧ ReadsAt m rest p

theorem readOperand_reads {e rest : List Token} (ih : ReadsBelow (e ++ rest).length)
    (he : Derives .expression e) (hr : Ends rest) :
    ∃ p, readOperand (e ++ rest) = some p ∧ ReadsOperand rest p := by
  rcases he.expression_head with ⟨text, tail, rfl, ht⟩ | ⟨op, v, rfl, hv⟩ | ⟨v, tail, rfl, hv, ht⟩
  · refine ⟨⟨.number text, tail ++ rest, Nat.lt_succ_self _⟩, ?_, ⟨tail, ht, rfl⟩, fun stack => rfl⟩
    show readOperand (.number text :: (tail ++ rest)) = _
    rw [readOperand]
  · obtain ⟨p, hp, ⟨tail, ht, hm, hrest⟩, hc⟩ :=
      ih (operandLevel op) v rest hv hr (Nat.lt_succ_self _)
    refine ⟨⟨.unary op p.tree, p.rest, Nat.lt_succ_of_lt p.shorter⟩, ?_, ⟨tail, ht, hrest⟩,
      fun stack => ?_⟩
    · show readOperand (.unary op :: (v ++ rest)) = _
      rw [readOperand, hp]
    · -- The operator waits on the stack for its operand, which stops where the operator's level does.
      show Postfix.convertWith (.unary op :: stack) (v ++ rest) = _
      have hf : Follows p.rest := hrest ▸ ht.follows hr
      have ha : AtMost (operandLevel op) p.rest := hrest ▸ Tail.atMost_append hm hr
      rw [hc _ (waitsAt_unary op stack), convertWith_unary_cons hf ha, Tree.postorder,
        List.append_assoc, List.singleton_append]
  · have hshape : .openParen :: (v ++ .closeParen :: tail) ++ rest =
        .openParen :: (v ++ .closeParen :: (tail ++ rest)) := by simp
    rw [hshape] at ih ⊢
    obtain ⟨⟨tree, left, hlt⟩, hp, ⟨tail', ht', hm, hrest⟩, hc⟩ :=
      ih 0 v (.closeParen :: (tail ++ rest)) hv (.closeParen _) (Nat.lt_succ_self _)
    obtain rfl := ht'.eq_nil_of_atMost_zero hm
    obtain rfl : left = .closeParen :: (tail ++ rest) := hrest
    refine ⟨⟨tree, tail ++ rest, Nat.lt_succ_of_lt (Nat.lt_of_succ_lt hlt)⟩, ?_, ⟨tail, ht, rfl⟩,
      fun stack => ?_⟩
    · rw [readOperand, hp]
    · show Postfix.convertWith (.group :: stack) (v ++ .closeParen :: (tail ++ rest)) = _
      rw [hc _ (waitsAt_group 0 stack), convertWith_group_closeParen (ht.follows hr)]

theorem extend_reads {n m : Nat} {rest : List Token} (ih : ReadsBelow n) (hr : Ends rest)
    {tokens : List Token} (left : Parsed tokens) {tail : List Token} (ht : Tail tail)
    (hrest : left.rest = tail ++ rest) (hn : left.rest.length ≤ n) :
    ∃ p, extend m left = some p ∧
      (∃ tail, Tail tail ∧ AtMost m tail ∧ p.rest = tail ++ rest) ∧
      ∀ stack, WaitsAt m stack →
        left.tree.postorder ++ Postfix.convertWith stack left.rest =
          p.tree.postorder ++ Postfix.convertWith stack p.rest := by
  -- Each round of the loop leaves a shorter rest, though not a part of the tail's derivation.
  induction hk : left.rest.length using Nat.strongRecOn generalizing left tail with
  | ind k loop =>
    obtain ⟨tree, left, shorter⟩ := left
    obtain rfl : left = tail ++ rest := hrest
    cases ht with
    | nil =>
      refine ⟨⟨tree, [] ++ rest, shorter⟩, ?_, ⟨[], .nil, fun op after h => absurd h (by simp), rfl⟩,
        fun stack _ => rfl⟩
      cases hr <;> rw [extend] <;> rfl
    | @binary op v hv =>
      by_cases hm : m < level op
      · obtain ⟨right, hp, ⟨tail', ht', hm', hrest'⟩, hc⟩ :=
          ih (level op) v rest hv hr (Nat.lt_of_succ_le hn)
        have hlt : right.rest.length < (Token.binary op :: v ++ rest).length :=
          Nat.lt_succ_of_lt right.shorter
        obtain ⟨p, hext, hleft, hconv⟩ := loop right.rest.length (hk ▸ hlt)
          ⟨.binary op tree right.tree, right.rest, Nat.lt_trans hlt shorter⟩ ht' hrest'
          (Nat.le_trans (Nat.le_of_lt hlt) hn) rfl
        refine ⟨p, ?_, hleft, fun stack hw => ?_⟩
        · rw [extend]
          simp only [List.cons_append, hm, if_true, hp]
          exact hext
        · -- The right operand is read on top of its operator, and the loop goes on without it.
          have hf : Follows right.rest := hrest' ▸ ht'.follows hr
          have ha : AtMost (level op) right.rest := hrest' ▸ Tail.atMost_append hm' hr
          rw [← hconv stack hw]
          show tree.postorder ++ Postfix.convertWith stack (.binary op :: (v ++ rest)) = _
          rw [convertWith_binary_of_waitsAt hw hm, hc _ (waitsAt_binary op stack),
            convertWith_binary_cons hf ha]
          simp [Tree.postorder]
      · -- The operator is left to a caller, and the tail with it.
        refine ⟨⟨tree, .binary op :: v ++ rest, shorter⟩, ?_,
          ⟨.binary op :: v, .binary op hv, ?_, rfl⟩, fun stack _ => rfl⟩
        · rw [extend]
          simp only [List.cons_append, hm, if_false]
        · rintro op' after heq
          obtain ⟨rfl, -⟩ : op = op' ∧ v = after := by simpa using heq
          exact Nat.le_of_not_lt hm

/-- **Every expression is read**, at every level and up to its end or to an operator that belongs
to a caller, and its conversion is the post-order of what has been read. -/
theorem readsBelow (n : Nat) : ReadsBelow n := by
  induction n with
  | zero => intro m e rest _ _ hn; exact absurd hn (Nat.not_lt_zero _)
  | succ n ih =>
    intro m e rest he hr hn
    have hle : (e ++ rest).length ≤ n := Nat.le_of_lt_succ hn
    obtain ⟨first, hfirst, ⟨tail, ht, hrest⟩, hconv⟩ :=
      readOperand_reads (fun k e' rest' he' hr' hlt => ih k e' rest' he' hr' (Nat.lt_of_lt_of_le hlt hle))
        he hr
    obtain ⟨p, hp, hleft, hext⟩ := extend_reads (m := m) ih hr first ht hrest
      (Nat.le_trans (Nat.le_of_lt first.shorter) hle)
    refine ⟨p, ?_, hleft, fun stack hw => ?_⟩
    · rw [climb, hfirst]
      exact hp
    · rw [hconv stack, hext stack hw]

/-! ## Whole expressions -/

/-- **The postfix order of an expression is the post-order of its tree**, and its value, or its
first error, is that of the tree. -/
theorem ofInfix_eq_postorder_tree {w : List Token} (h : Derives .expression w) :
    ∃ t, tree? w = some t ∧ Postfix.ofInfix w = t.postorder ∧
      Postfix.evaluate (Postfix.ofInfix w) = t.evaluate := by
  have hread := readsBelow ((w ++ []).length + 1) 0 w [] h .nil (Nat.lt_succ_self _)
  rw [List.append_nil] at hread
  obtain ⟨⟨t, left, hlt⟩, hp, ⟨tail, ht, hm, hrest⟩, hc⟩ := hread
  obtain rfl := ht.eq_nil_of_atMost_zero hm
  obtain rfl : left = [] := hrest
  have hconv : Postfix.ofInfix w = t.postorder := by
    simpa [Postfix.ofInfix, Postfix.convertWith, Postfix.release] using hc [] (waitsAt_nil 0)
  refine ⟨t, ?_, hconv, ?_⟩
  · rw [tree?, hp]
  · rw [hconv, evaluate_postorder]

/-- `2 ^ neg 3 * sqrt ( 4 )`: a negation waits above a power, and a square root before a group. -/
theorem ofInfix_negated_exponent :
    let w : List Token := [.number ['2'], .binary .power, .unary .negate, .number ['3'],
      .binary .multiply, .unary .squareRoot, .openParen, .number ['4'], .closeParen]
    Derives .expression w ∧ ∃ t, tree? w = some t ∧ Postfix.ofInfix w = t.postorder ∧
      Postfix.evaluate (Postfix.ofInfix w) = t.evaluate := by
  intro w
  have h : Derives .expression w :=
    .binary .power (.number _) (.binary .multiply (.unary .negate (.number _))
      (.single (.unary .squareRoot (.group (.single (.number _))))))
  exact ⟨h, ofInfix_eq_postorder_tree h⟩

end Reckoner.Expression
