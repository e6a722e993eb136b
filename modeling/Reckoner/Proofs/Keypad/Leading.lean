import Reckoner.Proofs.Display.RoundTrip
import Reckoner.Proofs.Keypad.WellTyped
/-!
# `Reckoner/Proofs/Keypad/Leading.lean` — operators at the beginning of an expression

Of the operators a minus alone makes sense at the beginning of an expression, and the operator key
types no other one into an empty expression. But it also replaces the operator that stands at the end,
and a minus that has just been typed at the beginning is one.

> **An expression begins with another operator if and only if such an operator has been pressed on a
> minus that stood alone** (`beginsWithOperator_iff_replacesMinus`): in a run of keys, with any
> settings, there is a state of the one kind exactly if there is a press of the other.

No other key, and no operator key elsewhere, puts such an operator at the beginning
(`beginsWithOperator_press_iff`). That includes delete, which leaves the beginning alone or nothing,
and the results that become expressions, since no number is written with a plus in front.
-/

set_option autoImplicit false

namespace Reckoner.Keypad

open State (endsNumber)

/-- The text begins with an operator that is not a minus. -/
def BeginsWithOperator (text : List Char) : Prop := ∃ c ∈ text.head?, c ∈ ['+', '×', '÷']

@[simp]
theorem not_beginsWithOperator_nil : ¬BeginsWithOperator [] := by
  rintro ⟨c, hc, -⟩
  cases hc

@[simp]
theorem beginsWithOperator_cons_iff {c : Char} {rest : List Char} :
    BeginsWithOperator (c :: rest) ↔ c ∈ ['+', '×', '÷'] := by
  constructor
  · rintro ⟨x, hx, hmem⟩
    cases hx
    exact hmem
  · exact fun h => ⟨c, rfl, h⟩

/-- What is typed behind a text is at the beginning only if the text is empty. -/
theorem beginsWithOperator_append_iff {start rest : List Char} :
    BeginsWithOperator (start ++ rest) ↔
      BeginsWithOperator start ∨ start = [] ∧ BeginsWithOperator rest := by
  cases start with
  | nil => simp
  | cons c tail => simp

theorem BeginsWithOperator.of_start {start text : List Char} (h : BeginsWithOperator start)
    (hstart : start <+: text) : BeginsWithOperator text := by
  obtain ⟨rest, rfl⟩ := hstart
  exact beginsWithOperator_append_iff.mpr (.inl h)

/-- The operators of the keypad but for the minus. -/
theorem mem_otherOperators_iff {c : Char} :
    c ∈ ['+', '×', '÷'] ↔ endsNumber c = true ∧ c ≠ '-' := by
  rw [endsNumber_eq_true_iff]
  constructor
  · intro h
    simp only [List.mem_cons, List.not_mem_nil, or_false] at h
    rcases h with rfl | rfl | rfl
    all_goals decide
  · rintro ⟨rfl | rfl | rfl | rfl, hne⟩
    · decide
    · exact absurd rfl hne
    · decide
    · decide

/-- A character of a number is none of them. -/
theorem not_mem_otherOperators {c : Char} (h : Token.isNumberChar c = true) :
    c ∉ ['+', '×', '÷'] := by
  rw [mem_otherOperators_iff, not_endsNumber_of_isNumberChar h]
  simp

/-! ## Numbers -/

theorem not_beginsWithOperator_positional (d : Decimal) : ¬BeginsWithOperator d.positional := by
  rintro ⟨c, hc, hoperator⟩
  rcases Decimal.mem_positional (List.mem_of_head? hc) with rfl | hdigit | rfl
  · exact absurd hoperator (by decide)
  · exact not_mem_otherOperators (by simp [Token.isNumberChar, hdigit]) hoperator
  · exact absurd hoperator (by decide)

/-- **What is shown does not begin with an operator other than a minus.** -/
theorem not_beginsWithOperator_of_text {settings : Settings} {v : Binary64} {text : List Char}
    (h : Display.text settings v = .ok text) : ¬BeginsWithOperator text := by
  obtain ⟨-, ⟨-, rfl⟩ | ⟨-, rfl⟩⟩ := Display.text_cases h
  · obtain ⟨negative, number, rest, hnumber, htext⟩ :=
      Evaluation.exists_scientificText settings.mantissaDigits v
    rw [htext]
    cases negative with
    | true => simp [Decimal.signText]
    | false =>
      cases number with
      | nil => simp [Decimal.signText]
      | cons c number =>
        simpa [Decimal.signText] using not_mem_otherOperators (hnumber c (by simp))
  · obtain ⟨d, hd⟩ := Operand.exists_positional_plainText settings.significantDigits v
    rw [hd]
    exact not_beginsWithOperator_positional d

namespace State

variable {settings : Settings} {s t : State} {key : Key}

/-- The operand of what is displayed begins with no other operator either, and is not a lone minus. -/
theorem beginning_of_operand {grouped : Bool} {display operand : List Char}
    (hdisplay : Displayable settings display) (h : Operand.ofDisplay grouped display = .ok operand) :
    ¬BeginsWithOperator operand ∧ operand ≠ ['-'] := by
  have hpositional : ∀ d : Decimal, ¬BeginsWithOperator d.positional ∧ d.positional ≠ ['-'] := by
    intro d
    refine ⟨not_beginsWithOperator_positional d, fun hminus => ?_⟩
    obtain ⟨e, hread, -⟩ := d.ofNumeral?_positional
    have hnone : Decimal.ofNumeral? ['-'] = none := by decide
    rw [hminus, hnone] at hread
    cases hread
  obtain ⟨d, rfl⟩ := exists_positional_of_operand hdisplay h
  cases grouped with
  | false => exact hpositional d
  | true =>
    rw [if_pos rfl, Operand.group]
    split
    · exact ⟨by simp, by simp⟩
    · exact hpositional d

/-- An expression that begins with another operator, or is a lone minus, is none that has been put
there to make room. -/
theorem eq_of_start (h : Consistent settings s) (hstart : Start s t)
    (hbeginning : BeginsWithOperator t.expression ∨ t.expression = ['-']) : t = s := by
  cases hstart with
  | here _ _ => rfl
  | cleared => simp [cleared] at hbeginning
  | aside hflag _ hstart =>
    rcases hstart with rfl | rfl | ⟨grouped, hoperand⟩
    · simp at hbeginning
    · simp at hbeginning
    · obtain ⟨hbegins, hminus⟩ := beginning_of_operand (h.displayable hflag) hoperand
      exact absurd hbeginning (not_or.mpr ⟨hbegins, hminus⟩)

/-! ## The keys -/

/-- **What is typed begins with another operator only if the text before did, or was a minus.** -/
theorem beginsWithOperator_of_typed {expression : List Char} (hwell : WellTyped t.expression)
    (htyped : Typed t expression) (h : BeginsWithOperator expression) :
    BeginsWithOperator t.expression ∨ t.expression = ['-'] := by
  cases htyped with
  | digit hc =>
    rcases beginsWithOperator_append_iff.mp h with h | ⟨-, h⟩
    · exact .inl h
    · refine absurd (beginsWithOperator_cons_iff.mp h) (not_mem_otherOperators ?_)
      simp [Token.isNumberChar, hc]
  | operator hglyph hend hfirst =>
    rcases beginsWithOperator_append_iff.mp h with h | ⟨hempty, h⟩
    · exact .inl h
    · rw [hfirst hempty] at h
      exact absurd (beginsWithOperator_cons_iff.mp h) (by decide)
  | otherOperator hglyph hend =>
    rcases beginsWithOperator_append_iff.mp h with h | ⟨hempty, -⟩
    · exact .inl (h.of_start (List.dropLast_prefix _))
    · -- The operator that is replaced is all that there was.
      obtain ⟨start, c, hstart, hends⟩ := hwell.exists_operator_at_end hend
      rw [hstart, List.dropLast_concat] at hempty
      rw [hstart, hempty, List.nil_append, beginsWithOperator_cons_iff, mem_otherOperators_iff]
      by_cases hminus : c = '-'
      · exact .inr (by rw [hminus])
      · exact .inl ⟨hends, hminus⟩
  | factor hne hend =>
    rcases beginsWithOperator_append_iff.mp h with h | ⟨hempty, -⟩
    · exact .inl h
    · exact absurd hempty hne
  | deleted => exact .inl (h.of_start (List.dropLast_prefix _))
  | _ =>
    rcases beginsWithOperator_append_iff.mp h with h | ⟨-, h⟩
    · exact .inl h
    · exact absurd (beginsWithOperator_cons_iff.mp h) (by decide)

theorem beginsWithOperator_of_move {s' : State} (hs : Consistent settings s)
    (hwell : s.showsResult = false → WellTyped s.expression) (hmove : Move settings s key s')
    (h : BeginsWithOperator s'.expression) : BeginsWithOperator s.expression ∨
      s.hasError = false ∧ s.showsResult = false ∧ s.expression = ['-'] := by
  cases hmove with
  | nothing => exact .inl h
  | emptied _ hempty =>
    rw [hempty] at h
    exact absurd h not_beginsWithOperator_nil
  | typed hstart htyped =>
    rw [expression_edit] at h
    have hbeginning :=
      beginsWithOperator_of_typed (wellTyped_of_start hs hwell hstart) htyped h
    obtain rfl := eq_of_start hs hstart hbeginning
    rcases hbeginning with hbegins | hminus
    · exact .inl hbegins
    · exact .inr ⟨hstart.hasError_eq_false, hstart.showsResult_eq_false, hminus⟩
  | failed e => exact .inl h
  | hundredth _ _ _ htext => exact absurd h (not_beginsWithOperator_of_text htext)
  | root _ _ _ htext => exact absurd h (not_beginsWithOperator_of_text htext)
  | committed _ _ => exact .inl h

/-! ## A lone minus -/

/-- An operator that is not a minus is pressed, and the expression is a minus. -/
structure ReplacesMinus (s : State) (key : Key) : Prop where
  no_error : s.hasError = false
  no_result : s.showsResult = false
  minus : s.expression = ['-']
  exists_glyph : ∃ label glyph,
    key = .operator label ∧ glyphOfLabel? label = some glyph ∧ glyph ≠ '-'

/-- The percent key leaves the expression alone, or puts what it shows there. -/
theorem not_beginsWithOperator_pressPercent (h : ¬BeginsWithOperator s.expression) :
    ¬BeginsWithOperator (s.pressPercent settings).1.expression := by
  unfold pressPercent
  split
  · exact h
  · split
    · exact h
    · exact h
    · next result _ =>
      cases hshown : s.showNumber settings (hundredth result) with
      | error fault => exact h
      | ok t =>
        obtain ⟨text, htext, rfl⟩ := map_eq_ok_iff.mp hshown
        exact not_beginsWithOperator_of_text htext

theorem expression_pressEquals (settings : Settings) (s : State) :
    (s.pressEquals settings).1.expression = s.expression := by
  unfold pressEquals
  split
  · rfl
  · split <;> rfl

section LoneMinus

variable (hflag : s.hasError = false) (hshows : s.showsResult = false)
  (hminus : s.expression = ['-'])

include hflag hshows hminus

theorem expression_pressOperator_of_minus {label : List Char} {glyph : Char}
    (hlabel : glyphOfLabel? label = some glyph) :
    (s.pressOperator settings label).1.expression = [glyph] := by
  simp [pressOperator, hlabel, hflag, continueResult, hshows, andThen, hminus, endsWithOperator,
    isOperatorGlyph, expression_edit]

theorem beginsWithOperator_pressOperator_of_minus_iff (label : List Char) :
    BeginsWithOperator (s.pressOperator settings label).1.expression ↔
      ∃ glyph, glyphOfLabel? label = some glyph ∧ glyph ≠ '-' := by
  cases hlabel : glyphOfLabel? label with
  | none => simp [pressOperator, hlabel, hminus]
  | some glyph =>
    rw [expression_pressOperator_of_minus hflag hshows hminus hlabel, beginsWithOperator_cons_iff,
      mem_otherOperators_iff]
    simp [endsNumber_of_glyphOfLabel? hlabel]

/-- Every other key leaves the minus where it is, or leaves nothing of the expression. -/
theorem not_beginsWithOperator_press_of_minus (hkey : ∀ label, key ≠ .operator label) :
    ¬BeginsWithOperator (s.press settings key).1.expression := by
  have hstart := recover_startWith hflag hshows
  have hends : s.endsWithOperator = true := by rw [endsWithOperator, hminus]; rfl
  cases key with
  | digit label =>
    simp only [press, pressDigit, hstart]
    split
    · simp [type, expression_edit, hminus]
    · simp [hminus]
  | point =>
    have hnone : s.currentNumber = [] := by rw [currentNumber, hminus]; rfl
    simp [press, pressPoint, hstart, hnone, type, expression_edit, hminus]
  | operator label => exact absurd rfl (hkey label)
  | percent => exact not_beginsWithOperator_pressPercent (by simp [hminus])
  | squareRoot => simp [press, pressSquareRoot, hflag, hshows, type, expression_edit, hminus]
  | square =>
    simp [press, pressSquare, hflag, continueResult, hshows, andThen, type, expression_edit, hminus]
  | parentheses => simp [press, pressParentheses, hstart, hends, type, expression_edit, hminus]
  | clear => exact not_beginsWithOperator_nil
  | delete =>
    simp [press, pressDelete, hflag, continueResult, hshows, andThen, expression_edit, hminus]
  | equals => simp [press, expression_pressEquals, hminus]

/-- **A lone minus is replaced by the other operators, and by nothing else.** -/
theorem beginsWithOperator_press_of_minus_iff :
    BeginsWithOperator (s.press settings key).1.expression ↔ ∃ label glyph,
      key = .operator label ∧ glyphOfLabel? label = some glyph ∧ glyph ≠ '-' := by
  cases key with
  | operator label =>
    rw [press, beginsWithOperator_pressOperator_of_minus_iff hflag hshows hminus]
    simp
  | _ =>
    refine iff_of_false ?_ (by simp)
    exact not_beginsWithOperator_press_of_minus hflag hshows hminus (by simp)

end LoneMinus

/-! ## Runs -/

/-- **An expression comes to begin with another operator if and only if such an operator is pressed
on a lone minus.** -/
theorem beginsWithOperator_press_iff (hs : Consistent settings s)
    (hwell : s.showsResult = false → WellTyped s.expression)
    (hbegins : ¬BeginsWithOperator s.expression) :
    BeginsWithOperator (s.press settings key).1.expression ↔ s.ReplacesMinus key := by
  constructor
  · intro h
    rcases beginsWithOperator_of_move hs hwell (move_of_press hs.has_expression key) h with
      hold | ⟨hflag, hshows, hminus⟩
    · exact absurd hold hbegins
    · exact ⟨hflag, hshows, hminus,
        (beginsWithOperator_press_of_minus_iff hflag hshows hminus).mp h⟩
  · rintro ⟨hflag, hshows, hminus, hglyph⟩
    exact (beginsWithOperator_press_of_minus_iff hflag hshows hminus).mpr hglyph

theorem pressAll_concat (settings : Settings) (s : State) (keys : List Key) (key : Key) :
    s.pressAll settings (keys ++ [key]) = ((s.pressAll settings keys).press settings key).1 := by
  simp [pressAll]

theorem beginsWithOperator_press_of_run (settings : Settings) (keys : List Key) (key : Key)
    (hbegins : ¬BeginsWithOperator (initial.pressAll settings keys).expression) :
    BeginsWithOperator (initial.pressAll settings (keys ++ [key])).expression ↔
      (initial.pressAll settings keys).ReplacesMinus key := by
  rw [pressAll_concat]
  exact beginsWithOperator_press_iff ((consistent_initial settings).pressAll keys)
    (wellTyped_pressAll settings keys) hbegins

/-- **An expression begins with another operator if and only if such an operator has been pressed on a
lone minus.** In a run of keys, with any settings, the expression of some state begins with an operator
that is not a minus exactly if one of the keys is such an operator, pressed while there is neither an
error nor a shown result and the expression is a minus. -/
theorem beginsWithOperator_iff_replacesMinus (settings : Settings) (keys : List Key) :
    (∃ start, start <+: keys ∧ BeginsWithOperator (initial.pressAll settings start).expression) ↔
      ∃ start key, start ++ [key] <+: keys ∧
        (initial.pressAll settings start).ReplacesMinus key := by
  constructor
  · rintro ⟨start, hstart, h⟩
    -- Back from the state that begins with an operator, to the first one.
    induction start using List.reverseRecOn with
    | nil => exact absurd h not_beginsWithOperator_nil
    | append_singleton start key ih =>
      by_cases hold : BeginsWithOperator (initial.pressAll settings start).expression
      · exact ih ((List.prefix_append start [key]).trans hstart) hold
      · exact ⟨start, key, hstart, (beginsWithOperator_press_of_run settings start key hold).mp h⟩
  · rintro ⟨start, key, hstart, hreplaces⟩
    have hbegins : ¬BeginsWithOperator (initial.pressAll settings start).expression := by
      rw [hreplaces.minus]
      simp
    exact ⟨start ++ [key], hstart,
      (beginsWithOperator_press_of_run settings start key hbegins).mpr hreplaces⟩

/-- **A minus at the beginning is replaced** by the plus that is pressed after it. -/
theorem expression_of_replaced_minus :
    ∃ s, s = initial.pressAll Settings.default [.operator ['-'], .operator ['+']] ∧
      s.expression = ['+'] ∧ BeginsWithOperator s.expression :=
  ⟨_, rfl, by decide +kernel, ⟨'+', by decide +kernel, by decide⟩⟩

end State

end Reckoner.Keypad
