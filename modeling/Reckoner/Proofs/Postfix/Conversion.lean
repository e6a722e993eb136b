import Reckoner.Postfix.Conversion
/-!
# `Reckoner/Proofs/Postfix/Conversion.lean` — what the conversion keeps

A step of the conversion splits the operator stack: the entries on top are released, and the token
waits on the rest, unless it is a number (`convertWith_cons`). Where the stack is split does not matter:
no split loses anything, and so the conversion as a whole loses nothing:

> the postfix order of a token list, well-formed or not, is a **rearrangement** of its tokens
> without the parentheses.
-/

set_option autoImplicit false

namespace Reckoner

/-- The token is no parenthesis. -/
def Token.isKept : Token → Bool
  | .openParen | .closeParen => false
  | _ => true

namespace Postfix

/-! ## Splits of the stack -/

theorem release_append (s t : List Pending) : release (s ++ t) = release s ++ release t :=
  List.filterMap_append

theorem release_takeWhile_append (p : Pending → Bool) (stack : List Pending) :
    release (stack.takeWhile p) ++ release (stack.dropWhile p) = release stack := by
  rw [← release_append, List.takeWhile_append_dropWhile]

theorem release_leaveGroup (stack : List Pending) :
    (leaveGroup stack).1 ++ release (leaveGroup stack).2 = release stack := by
  match stack with
  | [] | [.group] | .group :: .unary .squareRoot :: _ | .group :: .unary .negate :: _
  | .group :: .binary _ :: _ | .group :: .group :: _ | .binary _ :: _ | .unary _ :: _ => rfl

/-- A closed group releases its operators and the root before it, and loses none. -/
theorem release_closeGroup (stack : List Pending) :
    release (stack.takeWhile (·.isOperator)) ++
        ((leaveGroup (stack.dropWhile (·.isOperator))).1 ++
          release (leaveGroup (stack.dropWhile (·.isOperator))).2) =
      release stack := by
  rw [release_leaveGroup, release_takeWhile_append]

/-! ## A step of the conversion -/

theorem exists_take_takeWhile (p : Pending → Bool) (stack : List Pending) :
    ∃ n, stack.takeWhile p = stack.take n ∧ stack.dropWhile p = stack.drop n := by
  refine ⟨(stack.takeWhile p).length, List.prefix_iff_eq_take.mp (List.takeWhile_prefix p), ?_⟩
  calc stack.dropWhile p
      = (stack.takeWhile p ++ stack.dropWhile p).drop (stack.takeWhile p).length :=
        List.drop_left.symm
    _ = stack.drop (stack.takeWhile p).length := by rw [List.takeWhile_append_dropWhile]

theorem exists_take_leaveGroup (stack : List Pending) :
    ∃ n, (leaveGroup stack).1 = release (stack.take n) ∧ (leaveGroup stack).2 = stack.drop n := by
  match stack with
  | .group :: .unary .squareRoot :: _ => exact ⟨2, rfl, rfl⟩
  | [.group] | .group :: .unary .negate :: _ | .group :: .binary _ :: _ | .group :: .group :: _ =>
    exact ⟨1, rfl, rfl⟩
  | [] | .binary _ :: _ | .unary _ :: _ => exact ⟨0, rfl, rfl⟩

theorem convertWith_closeParen (stack : List Pending) (rest : List Token) :
    convertWith stack (.closeParen :: rest) =
      release (stack.takeWhile (·.isOperator)) ++
        ((leaveGroup (stack.dropWhile (·.isOperator))).1 ++
          convertWith (leaveGroup (stack.dropWhile (·.isOperator))).2 rest) :=
  List.append_assoc ..

/-- **What a step does.** A number is put out, and the stack stays as it is. Any other token releases
some entries from the top of the stack, and waits on what is left of it, unless it is a parenthesis. -/
theorem convertWith_cons (stack : List Pending) (token : Token) (rest : List Token) :
    (∃ text, token = .number text ∧
        convertWith stack (token :: rest) = token :: convertWith stack rest) ∨
      (∀ text, token ≠ .number text) ∧ ∃ n entries, release entries = [token].filter Token.isKept ∧
        convertWith stack (token :: rest) =
          release (stack.take n) ++ convertWith (entries ++ stack.drop n) rest := by
  cases token with
  | number text => exact .inl ⟨text, rfl, rfl⟩
  | unary op => exact .inr ⟨nofun, 0, [.unary op], rfl, rfl⟩
  | binary op =>
    obtain ⟨n, htake, hdrop⟩ := exists_take_takeWhile (·.completedBy op) stack
    refine .inr ⟨nofun, n, [.binary op], rfl, ?_⟩
    rw [convertWith, htake, hdrop]
    rfl
  | openParen => exact .inr ⟨nofun, 0, [.group], rfl, rfl⟩
  | closeParen =>
    obtain ⟨n, htake, hdrop⟩ := exists_take_takeWhile (·.isOperator) stack
    obtain ⟨m, hroot, houter⟩ := exists_take_leaveGroup (stack.drop n)
    refine .inr ⟨nofun, n + m, [], rfl, ?_⟩
    rw [convertWith_closeParen, htake, hdrop, hroot, houter, ← List.append_assoc, ← release_append,
      List.take_add, List.drop_drop, List.nil_append]

/-! ## The conversion as a whole -/

/-- Tokens that wait no longer come before the rest, and those that have been read wait in their place:
all of them still count. -/
theorem perm_of_released {α : Type} {released converted kept entries below : List α}
    (h : converted.Perm (kept ++ (entries ++ below))) :
    (released ++ converted).Perm ((entries ++ kept) ++ (released ++ below)) := by
  have hread : converted.Perm ((entries ++ kept) ++ below) := by
    rw [List.append_assoc]
    exact h.trans (List.perm_append_comm_assoc kept entries below)
  exact (hread.append_left released).trans (List.perm_append_comm_assoc released _ below)

/-- **The conversion rearranges tokens**: those of the text that are no parentheses, and those that
wait on the stack. -/
theorem convertWith_perm (stack : List Pending) (tokens : List Token) :
    (convertWith stack tokens).Perm (tokens.filter Token.isKept ++ release stack) := by
  induction tokens generalizing stack with
  | nil => exact List.Perm.refl _
  | cons token tokens ih =>
    rcases convertWith_cons stack token tokens with
      ⟨text, rfl, hstep⟩ | ⟨-, n, entries, hentries, hstep⟩
    · rw [hstep]
      exact (ih stack).cons (.number text)
    · have htoken : (token :: tokens).filter Token.isKept =
          release entries ++ tokens.filter Token.isKept := by
        rw [hentries, ← List.filter_append, List.singleton_append]
      have hall : release stack = release (stack.take n) ++ release (stack.drop n) := by
        rw [← release_append, List.take_append_drop]
      have hrest := ih (entries ++ stack.drop n)
      rw [release_append] at hrest
      rw [hstep, htoken, hall]
      exact perm_of_released hrest

theorem ofInfix_perm (tokens : List Token) :
    (ofInfix tokens).Perm (tokens.filter Token.isKept) := by
  have h := convertWith_perm [] tokens
  rwa [release, List.filterMap_nil, List.append_nil] at h

end Postfix

end Reckoner
