import Mathlib.Data.List.Forall2
import Mathlib.Data.Set.Subsingleton
import Reckoner.Proofs.Expression.Tree
/-!
# `Reckoner/Proofs/Expression/Postorder.lean` — which sequences are post-orders

The postfix machine keeps values and forgets where they came from. All that it ever asks of its stack
is whether there are enough of them, so nothing in it seems to look for a tree. Run on trees in the
place of values, the same machine remembers:

> **A sequence has a value if and only if it is the post-order of a tree that has this value**
> (`evaluate_eq_ok_iff_postorder`). There is one such tree at most, and of a sequence that is no
> post-order of a tree with a finite value, the machine makes an error.

The machine on trees never computes anything, so it fails only for want of operands. What it has on its
stack are the trees of which it has read the post-orders, one behind the other
(`postorders_foldlM_grow`), and the machine on values has their values (`computes_of_foldlM_step`).
-/

set_option autoImplicit false

namespace Reckoner.Expression

/-! ## The machine on trees -/

/-- What one token does to the trees read so far, the latest of them first. -/
def grow : List Tree → Token → Option (List Tree)
  | forest, .number text => some (.number text :: forest)
  | operand :: forest, .unary op => some (.unary op operand :: forest)
  | right :: left :: forest, .binary op => some (.binary op left right :: forest)
  | _, _ => none

/-- The post-orders of trees, of which the latest comes first, in the order of reading. -/
def postorders : List Tree → List Token
  | [] => []
  | t :: forest => postorders forest ++ t.postorder

/-- **What a step does** when it comes through: a number is a new tree, and an operator becomes the
root of its operands. -/
theorem grow_eq_some {forest forest' : List Tree} {token : Token}
    (h : grow forest token = some forest') :
    (∃ text, token = .number text ∧ forest' = .number text :: forest) ∨
      (∃ op operand rest, token = .unary op ∧ forest = operand :: rest ∧
        forest' = .unary op operand :: rest) ∨
      ∃ op left right rest, token = .binary op ∧ forest = right :: left :: rest ∧
        forest' = .binary op left right :: rest := by
  unfold grow at h
  split at h
  · cases h
    exact .inl ⟨_, rfl, rfl⟩
  · cases h
    exact .inr (.inl ⟨_, _, _, rfl, rfl, rfl⟩)
  · cases h
    exact .inr (.inr ⟨_, _, _, _, rfl, rfl, rfl⟩)
  · cases h

/-- A step puts its token behind the post-orders. -/
theorem postorders_grow {forest forest' : List Tree} {token : Token}
    (h : grow forest token = some forest') :
    postorders forest' = postorders forest ++ [token] := by
  rcases grow_eq_some h with ⟨text, rfl, rfl⟩ | ⟨op, operand, rest, rfl, rfl, rfl⟩ |
    ⟨op, left, right, rest, rfl, rfl, rfl⟩
  · rfl
  · simp only [postorders, Tree.postorder, List.append_assoc]
  · simp only [postorders, Tree.postorder, List.append_assoc]

/-- **The trees on the stack are those whose post-orders have been read**, one behind the other. -/
theorem postorders_foldlM_grow {tokens : List Token} {forest forest' : List Tree}
    (h : tokens.foldlM grow forest = some forest') :
    postorders forest' = postorders forest ++ tokens := by
  induction tokens generalizing forest with
  | nil =>
    cases h
    rw [List.append_nil]
  | cons token tokens ih =>
    obtain ⟨middle, hstep, hrest⟩ := Option.bind_eq_some_iff.mp h
    rw [ih hrest, postorders_grow hstep, List.append_assoc, List.singleton_append]

/-- A post-order puts its tree on the stack, whatever follows. -/
theorem foldlM_grow_postorder (t : Tree) (rest : List Token) (forest : List Tree) :
    (t.postorder ++ rest).foldlM grow forest = rest.foldlM grow (t :: forest) := by
  induction t generalizing rest forest with
  | number text => rfl
  | unary op operand ih =>
    rw [Tree.postorder, List.append_assoc, ih]
    rfl
  | binary op left right ihl ihr =>
    rw [Tree.postorder, List.append_assoc, List.append_assoc, ihl, ihr]
    rfl

/-- **A tree is determined by its post-order.** -/
theorem postorder_injective : Function.Injective Tree.postorder := by
  intro s t hsame
  have hs := foldlM_grow_postorder s [] []
  have ht := foldlM_grow_postorder t [] []
  rw [hsame, ht] at hs
  exact (List.cons.inj (Option.some.inj hs)).1.symm

/-! ## The machine on values -/

/-- The values are those of the trees, in the same order. -/
def Computes (forest : List Tree) (stack : List Binary64) : Prop :=
  List.Forall₂ (fun t v => t.compute = .ok v) forest stack

/-- **The machine on trees keeps up with the machine on values**, for one step. -/
theorem computes_of_step {forest : List Tree} {stack stack' : List Binary64} {token : Token}
    (hforest : Computes forest stack) (h : Postfix.step stack token = .ok stack') :
    ∃ forest', grow forest token = some forest' ∧ Computes forest' stack' := by
  rcases Postfix.step_eq_ok h with ⟨text, v, rfl, hv, rfl⟩ | ⟨op, x, rest, v, rfl, rfl, hv, rfl⟩ |
    ⟨op, x, y, rest, v, rfl, rfl, hv, rfl⟩
  · exact ⟨_, rfl, .cons hv hforest⟩
  · obtain ⟨operand, below, hx, hbelow, rfl⟩ := List.forall₂_cons_right_iff.mp hforest
    have hcompute : (Tree.unary op operand).compute = .ok v := by
      rw [Tree.compute, hx]
      exact hv
    exact ⟨_, rfl, .cons hcompute hbelow⟩
  · obtain ⟨right, others, hy, hothers, rfl⟩ := List.forall₂_cons_right_iff.mp hforest
    obtain ⟨left, below, hx, hbelow, rfl⟩ := List.forall₂_cons_right_iff.mp hothers
    have hcompute : (Tree.binary op left right).compute = .ok v := by
      rw [Tree.compute, hx, hy]
      exact hv
    exact ⟨_, rfl, .cons hcompute hbelow⟩

/-- And so for a run. -/
theorem computes_of_foldlM_step {tokens : List Token} {forest : List Tree}
    {stack stack' : List Binary64} (hforest : Computes forest stack)
    (h : tokens.foldlM Postfix.step stack = .ok stack') :
    ∃ forest', tokens.foldlM grow forest = some forest' ∧ Computes forest' stack' := by
  induction tokens generalizing forest stack with
  | nil =>
    cases h
    exact ⟨forest, rfl, hforest⟩
  | cons token tokens ih =>
    obtain ⟨middle, hstep, hrest⟩ := bind_eq_ok_iff.mp h
    obtain ⟨grown, hgrow, hgrown⟩ := computes_of_step hforest hstep
    obtain ⟨forest', hrun, hforest'⟩ := ih hgrown hrest
    exact ⟨forest', Option.bind_eq_some_iff.mpr ⟨grown, hgrow, hrun⟩, hforest'⟩

/-- A run that leaves one value has read the post-order of one tree, which has this value. -/
theorem exists_postorder_of_foldlM_step {tokens : List Token} {v : Binary64}
    (h : tokens.foldlM Postfix.step [] = .ok [v]) :
    ∃ t : Tree, t.postorder = tokens ∧ t.compute = .ok v := by
  obtain ⟨forest, hrun, hforest⟩ := computes_of_foldlM_step .nil h
  obtain ⟨t, below, ht, hbelow, rfl⟩ := List.forall₂_cons_right_iff.mp hforest
  obtain rfl := List.forall₂_nil_right_iff.mp hbelow
  exact ⟨t, postorders_foldlM_grow hrun, ht⟩

/-! ## The value of a sequence -/

theorem requireFinite_eq_ok_iff {v w : Binary64} :
    Postfix.requireFinite v = .ok w ↔ v = w ∧ w.isFinite = true := by
  constructor
  · intro h
    cases v with
    | nan => cases h
    | infinity negative => cases h
    | finite negative m e canonical =>
      cases h
      exact ⟨rfl, rfl⟩
  · rintro ⟨rfl, hfinite⟩
    cases v with
    | nan => cases hfinite
    | infinity negative => cases hfinite
    | finite negative m e canonical => rfl

/-- **A sequence has a value if and only if it is the post-order of a tree that has this value**, which
is finite. A sequence is the post-order of one tree at most; and one that is the post-order of no tree
with a finite value ends in an error. -/
theorem evaluate_eq_ok_iff_postorder (tokens : List Token) :
    (∀ v, Postfix.evaluate tokens = .ok v ↔
      ∃ t : Tree, t.postorder = tokens ∧ t.compute = .ok v ∧ v.isFinite = true) ∧
    {t : Tree | t.postorder = tokens}.Subsingleton ∧
    ((∃ e, Postfix.evaluate tokens = .error e) ↔
      ¬∃ (t : Tree) (v : Binary64), t.postorder = tokens ∧ t.compute = .ok v ∧ v.isFinite = true) := by
  have hvalue : ∀ v, Postfix.evaluate tokens = .ok v ↔
      ∃ t : Tree, t.postorder = tokens ∧ t.compute = .ok v ∧ v.isFinite = true := by
    intro v
    constructor
    · intro h
      obtain ⟨stack, hrun, hresult⟩ := bind_eq_ok_iff.mp h
      match stack with
      | [w] =>
        obtain ⟨rfl, hfinite⟩ := requireFinite_eq_ok_iff.mp hresult
        obtain ⟨t, ht, hcompute⟩ := exists_postorder_of_foldlM_step hrun
        exact ⟨t, ht, hcompute, hfinite⟩
      | [] | _ :: _ :: _ => cases hresult
    · rintro ⟨t, rfl, hcompute, hfinite⟩
      rw [evaluate_postorder, Tree.evaluate, hcompute]
      exact requireFinite_eq_ok_iff.mpr ⟨rfl, hfinite⟩
  refine ⟨hvalue, fun s hs t ht => postorder_injective (hs.trans ht.symm), ?_⟩
  rw [exists_comm]
  simp only [← hvalue]
  cases Postfix.evaluate tokens with
  | error e => simp
  | ok v => simp

end Reckoner.Expression
