import Mathlib.Computability.Language
import Mathlib.Order.Bounds.Basic
import Reckoner.Proofs.Token.Alphabet
/-!
# `Reckoner/Proofs/Token/Units.lean` — texts cut into units

A text is spelt in units: characters that stand by themselves, and the four letters of a root. No unit
begins like another, so a text can be cut into units in one way at most, from its front, and where that
comes to an end before the text does, it cannot be gone on with in any other way:

> **The longest beginning of a text that consists of units** is what stands in front of the first
> character with which no unit starts (`isGreatest_length_of_breaksAt`).

Reading stops at the same character, whatever it says of the units in front of it
(`readFrom_of_breaksAt`).

Which characters are units is a parameter: before glyphs are spelt out there are more of them.
-/

set_option autoImplicit false

namespace Reckoner.Token

open scoped Computability

/-- Characters of a kind, each by itself, and the letters of a root. -/
def unitsOf (isUnit : Char → Bool) : Language Char :=
  {unit | (∃ c, isUnit c = true ∧ unit = [c]) ∨ unit = rootLetters}

/-- The units that are read. -/
def units : Language Char := unitsOf isAlphabet

/-- No unit starts with the character in front of this rest. -/
structure BreaksAt (isUnit : Char → Bool) (c : Char) (rest : List Char) : Prop where
  not_unit : isUnit c = false
  not_root : ¬rootLetters <+: c :: rest

/-- A text is taken apart by its letters of roots and by its other characters. -/
theorem induction_on_units {motive : List Char → Prop} (nil : motive [])
    (root : ∀ rest, motive rest → motive (rootLetters ++ rest))
    (cons : ∀ c rest, ¬rootLetters <+: c :: rest → motive rest → motive (c :: rest)) :
    ∀ text, motive text
  | [] => nil
  | c :: rest => by
    by_cases hroot : rootLetters <+: c :: rest
    · obtain ⟨rest', heq⟩ := hroot
      have hshorter : rest'.length < (c :: rest).length := by
        rw [← heq, List.length_append]
        exact Nat.lt_add_of_pos_left (by decide)
      rw [← heq]
      exact root rest' (induction_on_units nil root cons rest')
    · exact cons c rest hroot (induction_on_units nil root cons rest)
termination_by text => text.length
decreasing_by
  · exact hshorter
  · exact Nat.lt_succ_self rest.length

section Units

variable {isUnit : Char → Bool} {c : Char} {before rest text : List Char}

theorem BreaksAt.not_prefix (h : BreaksAt isUnit c rest) {unit : List Char}
    (hunit : unit ∈ unitsOf isUnit) : ¬unit <+: c :: rest := by
  intro hprefix
  rcases hunit with ⟨x, hx, rfl⟩ | rfl
  · obtain ⟨rfl, -⟩ := List.cons_prefix_cons.mp hprefix
    exact absurd hx (by simp [h.not_unit])
  · exact h.not_root hprefix

theorem mem_kstar_cons_of_mem {unit : List Char} (hunit : unit ∈ unitsOf isUnit)
    (hrest : rest ∈ (unitsOf isUnit)∗) : unit ++ rest ∈ (unitsOf isUnit)∗ := by
  obtain ⟨pieces, rfl, hpieces⟩ := Language.mem_kstar.mp hrest
  exact Language.mem_kstar.mpr ⟨unit :: pieces, rfl, List.forall_mem_cons.mpr ⟨hunit, hpieces⟩⟩

/-- A text of units starts with the letters of a root, or with another unit, if it is not empty. -/
theorem cases_of_mem_kstar (h : text ∈ (unitsOf isUnit)∗) : text = [] ∨
    (∃ rest ∈ (unitsOf isUnit)∗, text = rootLetters ++ rest) ∨
      ∃ c, ∃ rest ∈ (unitsOf isUnit)∗, isUnit c = true ∧ text = c :: rest := by
  obtain ⟨pieces, rfl, hpieces⟩ := Language.mem_kstar.mp h
  cases pieces with
  | nil => exact .inl rfl
  | cons unit pieces =>
    obtain ⟨⟨c, hc, rfl⟩ | rfl, hrest⟩ := List.forall_mem_cons.mp hpieces
    · exact .inr (.inr ⟨c, pieces.flatten, Language.join_mem_kstar hrest, hc, rfl⟩)
    · exact .inr (.inl ⟨pieces.flatten, Language.join_mem_kstar hrest, rfl⟩)

theorem cons_mem_kstar_iff (hroot : ¬rootLetters <+: c :: rest) :
    c :: rest ∈ (unitsOf isUnit)∗ ↔ isUnit c = true ∧ rest ∈ (unitsOf isUnit)∗ := by
  constructor
  · intro h
    rcases cases_of_mem_kstar h with hnil | ⟨rest', -, heq⟩ | ⟨x, rest', hrest', hx, heq⟩
    · cases hnil
    · exact absurd ⟨rest', heq.symm⟩ hroot
    · obtain ⟨rfl, rfl⟩ := List.cons.inj heq
      exact ⟨hx, hrest'⟩
  · rintro ⟨hc, hrest⟩
    exact mem_kstar_cons_of_mem (.inl ⟨c, hc, rfl⟩) hrest

theorem root_append_mem_kstar_iff (hletter : isUnit 's' = false) :
    rootLetters ++ rest ∈ (unitsOf isUnit)∗ ↔ rest ∈ (unitsOf isUnit)∗ := by
  constructor
  · intro h
    rcases cases_of_mem_kstar h with hnil | ⟨rest', hrest', heq⟩ | ⟨x, rest', -, hx, heq⟩
    · cases hnil
    · rwa [(List.append_right_inj rootLetters).mp heq]
    · obtain ⟨rfl, -⟩ := List.cons.inj heq
      exact absurd hx (by simp [hletter])
  · exact mem_kstar_cons_of_mem (.inr rfl)

/-- A text consists of units, or there is a first character with which none starts. -/
theorem exists_breaksAt (text : List Char) : text ∈ (unitsOf isUnit)∗ ∨
    ∃ before c rest, text = before ++ c :: rest ∧ before ∈ (unitsOf isUnit)∗ ∧
      BreaksAt isUnit c rest := by
  induction text using induction_on_units with
  | nil => exact .inl (Language.nil_mem_kstar _)
  | root rest ih =>
    rcases ih with hrest | ⟨before, c, after, rfl, hbefore, hbreak⟩
    · exact .inl (mem_kstar_cons_of_mem (.inr rfl) hrest)
    · exact .inr ⟨rootLetters ++ before, c, after, (List.append_assoc ..).symm,
        mem_kstar_cons_of_mem (.inr rfl) hbefore, hbreak⟩
  | cons x rest hroot ih =>
    by_cases hx : isUnit x = true
    · rcases ih with hrest | ⟨before, c, after, rfl, hbefore, hbreak⟩
      · exact .inl (mem_kstar_cons_of_mem (.inl ⟨x, hx, rfl⟩) hrest)
      · exact .inr ⟨x :: before, c, after, rfl,
          mem_kstar_cons_of_mem (.inl ⟨x, hx, rfl⟩) hbefore, hbreak⟩
    · exact .inr ⟨[], x, rest, rfl, Language.nil_mem_kstar _, by simpa using hx, hroot⟩

/-- Units are not cut in another way: no beginning that consists of them reaches over the break. -/
theorem length_le_of_breaksAt (hletter : isUnit 's' = false) (hbefore : before ∈ (unitsOf isUnit)∗)
    (hbreak : BreaksAt isUnit c rest) {start : List Char} (hstart : start <+: before ++ c :: rest)
    (hunits : start ∈ (unitsOf isUnit)∗) : start.length ≤ before.length := by
  induction before using induction_on_units generalizing start with
  | nil =>
    rcases cases_of_mem_kstar hunits with rfl | ⟨inner, -, rfl⟩ | ⟨x, inner, -, hx, rfl⟩
    · exact Nat.le_refl _
    · exact absurd ((List.prefix_append _ _).trans hstart) hbreak.not_root
    · obtain ⟨rfl, -⟩ := List.cons_prefix_cons.mp hstart
      exact absurd hx (by simp [hbreak.not_unit])
  | root outer ih =>
    rw [root_append_mem_kstar_iff hletter] at hbefore
    rw [List.append_assoc] at hstart
    rcases cases_of_mem_kstar hunits with rfl | ⟨inner, hinner, rfl⟩ | ⟨x, inner, -, hx, rfl⟩
    · exact Nat.zero_le _
    · rw [List.prefix_append_right_inj] at hstart
      rw [List.length_append, List.length_append]
      exact Nat.add_le_add_left (ih hbefore hstart hinner) _
    · obtain ⟨rfl, -⟩ := List.cons_prefix_cons.mp hstart
      exact absurd hx (by simp [hletter])
  | cons y outer hroot ih =>
    obtain ⟨hy, hbefore⟩ := (cons_mem_kstar_iff hroot).mp hbefore
    rcases cases_of_mem_kstar hunits with rfl | ⟨inner, -, rfl⟩ | ⟨x, inner, hinner, -, rfl⟩
    · exact Nat.zero_le _
    · obtain ⟨rfl, -⟩ := List.cons_prefix_cons.mp hstart
      exact absurd hy (by simp [hletter])
    · obtain ⟨-, hstart⟩ := List.cons_prefix_cons.mp hstart
      exact Nat.succ_le_succ (ih hbefore hstart hinner)

theorem not_mem_kstar_of_breaksAt (hletter : isUnit 's' = false)
    (hbefore : before ∈ (unitsOf isUnit)∗) (hbreak : BreaksAt isUnit c rest) :
    before ++ c :: rest ∉ (unitsOf isUnit)∗ := by
  intro h
  have hle := length_le_of_breaksAt hletter hbefore hbreak (List.prefix_refl _) h
  rw [List.length_append, List.length_cons] at hle
  omega

/-- **What stands in front of a break is the longest beginning that consists of units.** -/
theorem isGreatest_length_of_breaksAt (hletter : isUnit 's' = false)
    (hbefore : before ∈ (unitsOf isUnit)∗) (hbreak : BreaksAt isUnit c rest) :
    IsGreatest (List.length '' {start | start <+: before ++ c :: rest ∧ start ∈ (unitsOf isUnit)∗})
      before.length := by
  refine ⟨⟨before, ⟨List.prefix_append _ _, hbefore⟩, rfl⟩, ?_⟩
  rintro - ⟨start, ⟨hstart, hunits⟩, rfl⟩
  exact length_le_of_breaksAt hletter hbefore hbreak hstart hunits

end Units

/-! ## Reading -/

theorem spelt_of_mem_kstar {text : List Char} (h : text ∈ units∗) : Spelt text := by
  induction text using induction_on_units with
  | nil => exact .nil
  | root rest ih => exact .root (ih ((root_append_mem_kstar_iff rfl).mp h))
  | cons c rest hroot ih =>
    obtain ⟨hc, hrest⟩ := (cons_mem_kstar_iff hroot).mp h
    exact .char hc (ih hrest)

theorem Spelt.mem_kstar {text : List Char} (h : Spelt text) : text ∈ units∗ := by
  induction h with
  | nil => exact Language.nil_mem_kstar units
  | char hc _ ih => exact mem_kstar_cons_of_mem (.inl ⟨_, hc, rfl⟩) ih
  | root _ ih => exact mem_kstar_cons_of_mem (.inr rfl) ih

theorem isAlphabet_of_ofChar? {due : Bool} {c : Char} {token : Token}
    (h : ofChar? due c = some token) : isAlphabet c = true := by
  rcases ofChar?_cases h with ⟨rfl, -⟩ | ⟨rfl, -⟩ | ⟨rfl, -⟩ | ⟨op, rfl, -⟩
  · rfl
  · rfl
  · rfl
  · cases op <;> rfl

/-- **Reading stops at the break**, and blames the character there. -/
theorem readFrom_of_breaksAt {before rest : List Char} {c : Char} (hbefore : before ∈ units∗)
    (hbreak : BreaksAt isAlphabet c rest) (due : Bool) (index : Nat) :
    readFrom due index (before ++ c :: rest) =
      .error (.unexpectedCharacter c (index + before.length)) := by
  obtain ⟨hunit, hroot⟩ := hbreak
  induction spelt_of_mem_kstar hbefore generalizing due index with
  | nil =>
    have hnumber : isNumberChar c = false := by
      rw [isAlphabet, Bool.or_eq_false_iff] at hunit
      exact hunit.1
    have htoken : ofChar? due c = none := by
      rw [Option.eq_none_iff_forall_ne_some]
      intro token htoken
      exact absurd (isAlphabet_of_ofChar? htoken) (by simp [hunit])
    rw [List.nil_append, readFrom_cons hroot, if_neg (by simp [hnumber]), htoken]
    rfl
  | @char x text hx htext ih =>
    rw [List.cons_append, readFrom_cons (not_startsRoot (isAlphabet_ne_letter hx) _)]
    have hread : ∀ due, readFrom due (index + 1) (text ++ c :: rest) =
        .error (.unexpectedCharacter c (index + (x :: text).length)) := by
      intro due
      rw [ih htext.mem_kstar, List.length_cons, Nat.add_right_comm, Nat.add_assoc]
    by_cases hnumber : isNumberChar x = true
    · rw [if_pos hnumber, hread]
      rfl
    · obtain ⟨token, htoken⟩ := exists_ofChar? hx (by simpa using hnumber) due
      rw [if_neg hnumber, htoken]
      simp only [hread]
      rfl
  | @root text htext ih =>
    rw [List.append_assoc, readFrom_root, ih htext.mem_kstar, List.length_append]
    have hindex : index + 4 + text.length = index + (rootLetters.length + text.length) := by
      rw [Nat.add_assoc]
      rfl
    rw [hindex]
    rfl

end Reckoner.Token
