import Mathlib.Data.List.Nodup
import Reckoner.Proofs.Postfix.Conversion
import Reckoner.Proofs.Postfix.Machine
/-!
# `Reckoner/Proofs/Postfix/Order.lean` — where the conversion puts a token

That the postfix order is a rearrangement says that no token is lost. It does not say where the tokens
go, and two tokens that are alike could have changed places. So the tokens are followed by the places
at which they stand in the infix text:

> **Whatever stands behind a number stays behind it** (`ofInfix_rearranges`), in well-formed texts and
> in all others. So the numbers keep their order, and an operator comes behind all the numbers that
> precede it.

A number never waits, and what waits has been read before. So when a number is put out, all that is out
already stood before it. This is the whole argument, and it needs to know of a step only that it takes
some entries off the stack and puts some on (`convertWith_cons`): which ones does not matter, and so
precedence, the search for a parenthesis and the root before a group play no part in it.
-/

set_option autoImplicit false

namespace Reckoner.Postfix

/-! ## Numbers -/

theorem not_isNumber_of_mem_release {stack : List Pending} {token : Token}
    (h : token ∈ release stack) : token.isNumber = false := by
  obtain ⟨entry, -, hentry⟩ := List.mem_filterMap.mp h
  cases entry with
  | binary op | unary op => cases hentry; rfl
  | group => cases hentry

theorem isKept_of_isNumber {token : Token} (h : token.isNumber = true) : token.isKept = true := by
  cases token with
  | number text => rfl
  | unary op | binary op | openParen | closeParen => cases h

/-- **The numbers keep their order.** -/
theorem filter_isNumber_convertWith (stack : List Pending) (tokens : List Token) :
    (convertWith stack tokens).filter Token.isNumber = tokens.filter Token.isNumber := by
  have hrelease : ∀ waiting : List Pending, (release waiting).filter Token.isNumber = [] := by
    intro waiting
    rw [List.filter_eq_nil_iff]
    intro token htoken
    rw [not_isNumber_of_mem_release htoken]
    exact Bool.false_ne_true
  induction tokens generalizing stack with
  | nil => exact hrelease stack
  | cons token tokens ih =>
    rcases convertWith_cons stack token tokens with
      ⟨text, rfl, hstep⟩ | ⟨hother, n, entries, -, hstep⟩
    · rw [hstep, List.filter_cons_of_pos rfl, List.filter_cons_of_pos rfl, ih]
    · have hnot : ¬token.isNumber = true := by
        cases token with
        | number text => exact absurd rfl (hother text)
        | unary op | binary op | openParen | closeParen => nofun
      rw [hstep, List.filter_append, hrelease, ih, List.nil_append, List.filter_cons_of_neg hnot]

/-! ## Tokens with their places -/

/-- Waiting operators with the places at which they stood. -/
def releasePlaced (stack : List (Pending × Nat)) : List (Token × Nat) :=
  stack.filterMap fun entry => entry.1.token?.map fun token => (token, entry.2)

theorem releasePlaced_append (s t : List (Pending × Nat)) :
    releasePlaced (s ++ t) = releasePlaced s ++ releasePlaced t :=
  List.filterMap_append

theorem map_fst_releasePlaced (stack : List (Pending × Nat)) :
    (releasePlaced stack).map Prod.fst = release (stack.map Prod.fst) := by
  rw [releasePlaced, release, List.map_filterMap, List.filterMap_map]
  refine List.filterMap_congr fun entry _ => ?_
  cases h : entry.1.token? <;> simp [h]

theorem releasePlaced_map (entries : List Pending) (place : Nat) :
    releasePlaced (entries.map fun entry => (entry, place)) =
      (release entries).map fun token => (token, place) := by
  rw [releasePlaced, release, List.filterMap_map, List.map_filterMap]
  rfl

theorem mem_of_mem_releasePlaced {stack : List (Pending × Nat)} {placed : Token × Nat}
    (h : placed ∈ releasePlaced stack) :
    placed.1.isNumber = false ∧ ∃ entry ∈ stack, entry.2 = placed.2 := by
  constructor
  · have hmem : placed.1 ∈ release (stack.map Prod.fst) := by
      rw [← map_fst_releasePlaced]
      exact List.mem_map_of_mem h
    exact not_isNumber_of_mem_release hmem
  · obtain ⟨entry, hentry, hsome⟩ := List.mem_filterMap.mp h
    obtain ⟨token, -, rfl⟩ := Option.map_eq_some_iff.mp hsome
    exact ⟨entry, hentry, rfl⟩

/-- Of two tokens that are put out one after the other, the second is no number, or it stood behind the
first. -/
def StoodBefore (first second : Token × Nat) : Prop :=
  second.1.isNumber = true → first.2 < second.2

/-- What the conversion puts out, with the places at which it stood. -/
structure Traces (stack : List (Pending × Nat)) (tokens placed : List (Token × Nat)) : Prop where
  converted : placed.map Prod.fst = convertWith (stack.map Prod.fst) (tokens.map Prod.fst)
  perm : placed.Perm (tokens.filter (·.1.isKept) ++ releasePlaced stack)
  order : placed.Pairwise StoodBefore

section Traces

variable {stack : List (Pending × Nat)} {token : Token × Nat} {tokens placed : List (Token × Nat)}

/-- What waits is no number, so a number that is put out is still to be read. -/
theorem Traces.mem_of_isNumber (h : Traces stack tokens placed) {p : Token × Nat} (hp : p ∈ placed)
    (hnumber : p.1.isNumber = true) : p ∈ tokens := by
  rcases List.mem_append.mp (h.perm.mem_iff.mp hp) with hread | hwaiting
  · exact List.mem_of_mem_filter hread
  · rw [(mem_of_mem_releasePlaced hwaiting).1] at hnumber
    cases hnumber

theorem pairwise_releasePlaced (stack : List (Pending × Nat)) :
    (releasePlaced stack).Pairwise StoodBefore := by
  refine List.pairwise_of_forall_mem_list fun first _ second hsecond hnumber => ?_
  rw [(mem_of_mem_releasePlaced hsecond).1] at hnumber
  cases hnumber

/-- A number is put out in front of what comes of the rest. -/
theorem Traces.number (h : Traces stack tokens placed) (hnumber : token.1.isNumber = true)
    (hstep : convertWith (stack.map Prod.fst) (token.1 :: tokens.map Prod.fst) =
      token.1 :: convertWith (stack.map Prod.fst) (tokens.map Prod.fst))
    (hread : ∀ p ∈ tokens, token.2 < p.2) : Traces stack (token :: tokens) (token :: placed) where
  converted := by rw [List.map_cons, List.map_cons, hstep, h.converted]
  perm := by
    have hkept := isKept_of_isNumber hnumber
    rw [List.filter_cons_of_pos (by exact hkept)]
    exact h.perm.cons token
  order := List.pairwise_cons.mpr
    ⟨fun p hp hp' => hread p (h.mem_of_isNumber hp hp'), h.order⟩

/-- Any other token puts out some of the entries that wait, and they stood before all that is still to
be read. -/
theorem Traces.released {n : Nat} {entries : List Pending}
    (h : Traces (entries.map (·, token.2) ++ stack.drop n) tokens placed)
    (hentries : release entries = [token.1].filter Token.isKept)
    (hstep : convertWith (stack.map Prod.fst) (token.1 :: tokens.map Prod.fst) =
      release ((stack.map Prod.fst).take n) ++
        convertWith (entries ++ (stack.map Prod.fst).drop n) (tokens.map Prod.fst))
    (hread : ∀ entry ∈ stack, ∀ p ∈ tokens, entry.2 < p.2) :
    Traces stack (token :: tokens) (releasePlaced (stack.take n) ++ placed) where
  converted := by
    have hwaiting : (entries.map (·, token.2) ++ stack.drop n).map Prod.fst =
        entries ++ (stack.map Prod.fst).drop n := by
      rw [List.map_append, List.map_map, List.map_drop]
      exact congrArg (· ++ _) (List.map_id entries)
    rw [List.map_append, map_fst_releasePlaced, h.converted, hwaiting, List.map_cons, hstep,
      List.map_take]
  perm := by
    -- The token itself is counted to what has been read, and no longer to what waits.
    have htoken : (token :: tokens).filter (·.1.isKept) =
        releasePlaced (entries.map (·, token.2)) ++ tokens.filter (·.1.isKept) := by
      rw [releasePlaced_map, hentries]
      cases hkept : token.1.isKept with
      | true => simp [hkept]
      | false => simp [hkept]
    have hall : releasePlaced stack = releasePlaced (stack.take n) ++ releasePlaced (stack.drop n) := by
      rw [← releasePlaced_append, List.take_append_drop]
    have hrest := h.perm
    rw [releasePlaced_append] at hrest
    rw [htoken, hall]
    exact perm_of_released hrest
  order := by
    refine List.pairwise_append.mpr ⟨pairwise_releasePlaced _, h.order, ?_⟩
    intro first hfirst second hsecond hnumber
    obtain ⟨-, entry, hentry, hplace⟩ := mem_of_mem_releasePlaced hfirst
    rw [← hplace]
    exact hread entry (List.mem_of_mem_take hentry) second (h.mem_of_isNumber hsecond hnumber)

/-- **Whatever is put out before a number stood before it.** The induction is on the text that is still
to be read, all of which stood behind all that waits. -/
theorem exists_traces (hsorted : tokens.Pairwise (·.2 < ·.2))
    (hread : ∀ entry ∈ stack, ∀ p ∈ tokens, entry.2 < p.2) :
    ∃ placed, Traces stack tokens placed := by
  induction tokens generalizing stack with
  | nil =>
    exact ⟨releasePlaced stack, map_fst_releasePlaced stack, List.Perm.refl _,
      pairwise_releasePlaced stack⟩
  | cons token tokens ih =>
    obtain ⟨hfirst, hsorted⟩ := List.pairwise_cons.mp hsorted
    have hrest : ∀ entry ∈ stack, ∀ p ∈ tokens, entry.2 < p.2 := fun entry hentry =>
      (List.forall_mem_cons.mp (hread entry hentry)).2
    rcases convertWith_cons (stack.map Prod.fst) token.1 (tokens.map Prod.fst) with
      ⟨text, htoken, hstep⟩ | ⟨-, n, entries, hentries, hstep⟩
    · have hnumber : token.1.isNumber = true := by
        rw [htoken]
        rfl
      obtain ⟨placed, hplaced⟩ := ih hsorted hrest
      exact ⟨_, hplaced.number hnumber hstep hfirst⟩
    · have hwaiting : ∀ entry ∈ entries.map (·, token.2) ++ stack.drop n,
          ∀ p ∈ tokens, entry.2 < p.2 := by
        intro entry hentry
        rcases List.mem_append.mp hentry with hnew | hold
        · obtain ⟨-, -, rfl⟩ := List.mem_map.mp hnew
          exact hfirst
        · exact hrest entry (List.mem_of_mem_drop hold)
      obtain ⟨placed, hplaced⟩ := ih hsorted hwaiting
      exact ⟨_, hplaced.released hentries hstep hrest⟩

end Traces

/-! ## The places of the converted tokens -/

/-- The places of tokens in a text, in the order in which they have been put: every place of a token
that is no parenthesis occurs once, and with the token that stands there. -/
structure IsArrangement (tokens arranged : List Token) (places : List Nat) : Prop where
  nodup : places.Nodup
  mem_iff : ∀ i, i ∈ places ↔ ∃ token, tokens[i]? = some token ∧ token.isKept = true
  token_at : places.map (tokens[·]?) = arranged.map some

theorem isArrangement_of_perm {tokens : List Token} {placed : List (Token × Nat)}
    (h : placed.Perm (tokens.zipIdx.filter (·.1.isKept))) :
    IsArrangement tokens (placed.map Prod.fst) (placed.map Prod.snd) := by
  have hmem : ∀ p ∈ placed, tokens[p.2]? = some p.1 := fun p hp =>
    List.mem_zipIdx_iff_getElem?.mp (List.mem_of_mem_filter (h.mem_iff.mp hp))
  constructor
  · rw [(h.map Prod.snd).nodup_iff]
    have hall : (tokens.zipIdx.map Prod.snd).Nodup := by
      rw [List.zipIdx_map_snd]
      exact List.nodup_range'
    exact hall.sublist (List.filter_sublist.map Prod.snd)
  · intro i
    rw [List.mem_map]
    constructor
    · rintro ⟨p, hp, rfl⟩
      exact ⟨p.1, hmem p hp, (List.mem_filter.mp (h.mem_iff.mp hp)).2⟩
    · rintro ⟨token, htoken, hkept⟩
      exact ⟨(token, i), h.mem_iff.mpr
        (List.mem_filter.mpr ⟨List.mem_zipIdx_iff_getElem?.mpr htoken, hkept⟩), rfl⟩
  · rw [List.map_map, List.map_map]
    exact List.map_congr_left hmem

theorem pair_sublist_or {α : Type} {l : List α} {a b : α} (ha : a ∈ l) (hb : b ∈ l) (hne : a ≠ b) :
    [a, b].Sublist l ∨ [b, a].Sublist l := by
  obtain ⟨front, back, rfl⟩ := List.append_of_mem ha
  rcases List.mem_append.mp hb with hfront | hback
  · refine .inr ?_
    exact (List.singleton_sublist.mpr hfront).append (List.singleton_sublist.mpr (by simp))
  · refine .inl ?_
    have hmem : b ∈ back := (List.mem_cons.mp hback).resolve_left hne.symm
    exact ((List.singleton_sublist.mpr hmem).cons_cons a).trans (List.sublist_append_right _ _)

/-- The tokens that the conversion puts out can be followed from their places, and what stands behind a
number stays behind it. -/
theorem exists_isArrangement_ofInfix (tokens : List Token) :
    ∃ places, IsArrangement tokens (ofInfix tokens) places ∧
      ∀ i j text token, tokens[i]? = some (.number text) → tokens[j]? = some token →
        token.isKept = true → i < j → [i, j].Sublist places := by
  have hsorted : tokens.zipIdx.Pairwise (·.2 < ·.2) := by
    rw [← List.pairwise_map, List.zipIdx_map_snd]
    exact List.pairwise_lt_range'
  have hread : ∀ entry ∈ ([] : List (Pending × Nat)), ∀ p ∈ tokens.zipIdx, entry.2 < p.2 := by
    simp
  obtain ⟨placed, hconverted, hplaced, horder⟩ := exists_traces hsorted hread
  have hall : placed.Perm (tokens.zipIdx.filter (·.1.isKept)) := by
    simpa [releasePlaced] using hplaced
  have hmem : ∀ {token i}, tokens[i]? = some token → token.isKept = true → (token, i) ∈ placed :=
    fun htoken hkept => hall.mem_iff.mpr
      (List.mem_filter.mpr ⟨List.mem_zipIdx_iff_getElem?.mpr htoken, hkept⟩)
  have hplaces := isArrangement_of_perm hall
  rw [hconverted, List.zipIdx_map_fst] at hplaces
  refine ⟨placed.map Prod.snd, hplaces, fun i j text token hi hj hkept hlt => ?_⟩
  have hne : (Token.number text, i) ≠ (token, j) := by
    intro heq
    exact absurd (Prod.ext_iff.mp heq).2 (Nat.ne_of_lt hlt)
  rcases pair_sublist_or (hmem hi rfl) (hmem hj hkept) hne with hsub | hsub
  · exact hsub.map Prod.snd
  · have hbefore : j < i := List.pairwise_iff_forall_sublist.mp horder hsub rfl
    exact absurd hlt (Nat.lt_asymm hbefore)

/-- **The conversion neither loses nor invents tokens, and keeps them behind their numbers.** What it
makes of any list of tokens holds no parenthesis, is a rearrangement of the other tokens, and has the
numbers in their order. Followed from its place, every token that stands behind a number, be it an
operator or a number itself, stays behind it. -/
theorem ofInfix_rearranges (tokens : List Token) :
    (∀ token ∈ ofInfix tokens, token ≠ .openParen ∧ token ≠ .closeParen) ∧
      (ofInfix tokens).Perm (tokens.filter Token.isKept) ∧
      (ofInfix tokens).filter Token.isNumber = tokens.filter Token.isNumber ∧
      ∃ places, IsArrangement tokens (ofInfix tokens) places ∧
        ∀ i j text token, tokens[i]? = some (.number text) → tokens[j]? = some token →
          token.isKept = true → i < j → [i, j].Sublist places := by
  have hperm := ofInfix_perm tokens
  refine ⟨?_, hperm, filter_isNumber_convertWith [] tokens, exists_isArrangement_ofInfix tokens⟩
  intro token htoken
  have hkept := (List.mem_filter.mp (hperm.mem_iff.mp htoken)).2
  constructor
  · rintro rfl
    cases hkept
  · rintro rfl
    cases hkept

end Reckoner.Postfix
