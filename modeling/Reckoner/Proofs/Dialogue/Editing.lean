import Reckoner.CommandLine.Run
import Reckoner.Proofs.Dialogue.Answers
/-!
# `Reckoner/Proofs/Dialogue/Editing.lean` — lines that leave no trace

Two dialogues are compared, one of which has been edited: blanks have been put into its lines, and
lines have been left out that say nothing or that end in an error. The lines after them go on from
whatever result was the last one, so all that is at stake is what is remembered between the lines.

> **Only results matter** (`onlyResultsMatter_of_edited`). With the default settings the edited
> dialogue ends with the same status and gives the same answers to the lines that are left. It prints
> the same but for the errors of the lines that are not.

An edit is a relation between the lines with their answers and the lines that are left (`Edited`),
since it depends on the answers which lines may be left out. One line at a time, an edit changes
neither the answer nor how the dialogue stands; the rest is an induction over the lines.
-/

set_option autoImplicit false

namespace Reckoner.Dialogue

variable {settings : Settings} {line line' : List Char}

/-! ## Edits -/

/-- The second line is the first one with blanks put in anywhere. -/
inductive Widened : List Char → List Char → Prop where
  | nil : Widened [] []
  | inserted {c : Char} {line line' : List Char} (hblank : Text.isBlank c = true)
      (h : Widened line line') : Widened line (c :: line')
  | kept (c : Char) {line line' : List Char} (h : Widened line line') :
      Widened (c :: line) (c :: line')

/-- The lines on the right are those on the left with blanks put in, less some that say nothing or
are answered with an error; `kept` has the answers to the lines that are left. -/
inductive Edited : List (List Char × Answer) → List (List Char) → List Answer → Prop where
  | nil : Edited [] [] []
  | leftOut {line : List Char} {answer : Answer} {others : List (List Char × Answer)}
      {others' : List (List Char)} {kept : List Answer}
      (hline : content line = [] ∨ ∃ e, answer = .outcome (.error e))
      (h : Edited others others' kept) : Edited ((line, answer) :: others) others' kept
  | widened {line line' : List Char} {answer : Answer} {others : List (List Char × Answer)}
      {others' : List (List Char)} {kept : List Answer} (hline : Widened line line')
      (h : Edited others others' kept) :
      Edited ((line, answer) :: others) (line' :: others') (answer :: kept)

theorem Widened.refl (line : List Char) : Widened line line := by
  induction line with
  | nil => exact .nil
  | cons c line ih => exact .kept c ih

theorem Widened.content_eq (h : Widened line line') : content line = content line' := by
  induction h with
  | nil => rfl
  | inserted hblank _ ih => rw [ih, content, content, List.filter_cons_of_neg (by simp [hblank])]
  | kept c _ ih =>
    rw [content, content] at ih
    rw [content, content, List.filter_cons, List.filter_cons, ih]

/-- What may be left out leaves the dialogue as it stands. -/
theorem respond_of_leftOut {standing : Standing}
    (h : content line = [] ∨ ∃ e, (respond settings standing line).1 = .outcome (.error e)) :
    (respond settings standing line).2 = standing := by
  rcases h with hblank | ⟨e, herror⟩
  · exact respond_of_blank hblank standing
  · exact respond_of_error herror

/-- **The lines that are left have the answers that they had**, from wherever the dialogue goes
on. -/
theorem answersFrom_of_edited {standing : Standing} {before after : List (List Char)}
    {kept : List Answer} (h : Edited (before.zip (answersFrom settings standing before)) after kept) :
    answersFrom settings standing after = kept := by
  induction before generalizing standing after kept with
  | nil =>
    cases h
    rfl
  | cons line before ih =>
    rw [answersFrom, List.zip_cons_cons] at h
    cases h with
    | leftOut hline hrest =>
      rw [respond_of_leftOut hline] at hrest
      exact ih hrest
    | widened hline hrest =>
      rw [answersFrom, ← respond_eq_of_content_eq hline.content_eq, ih hrest]

/-! ## Runs of the program -/

open CommandLine (converse)

theorem status_converse (input : List Char) : (converse Settings.default input).status = 0 := by
  have hfault := fault_runLines resumable_none "" (lines input)
  rw [converse]
  simp only [run, Bool.false_eq_true, ↓reduceIte, hfault]
  rfl

theorem output_converse (settings : Settings) (input : List Char) :
    (converse settings input).output = printedAll (answers settings (lines input)) :=
  output_runLines settings none (lines input)

theorem converse_eq_of_farewell {input input' : List Char} {before others others' : List (List Char)}
    {bye : List Char} (h : lines input = before ++ bye :: others)
    (h' : lines input' = before ++ bye :: others') (hbye : isFarewell (content bye) = true) :
    converse settings input' = converse settings input := by
  have hsame := runLines_farewell settings hbye "" none before others' others
  simp only [Transcript.mk.injEq] at hsame
  simp only [converse, run, h, h', Bool.false_eq_true, ↓reduceIte, hsame]

/-- **Only results matter**, in a dialogue over the input and in one that has been edited. -/
structure OnlyResultsMatter (input input' : List Char) (kept : List Answer) : Prop where
  /-- Both end well. -/
  status : (converse Settings.default input).status = 0 ∧
    (converse Settings.default input').status = 0
  /-- What is printed are the answers. -/
  output : (converse Settings.default input).output =
    printedAll (answers Settings.default (lines input))
  /-- Edited, it is the answers that are kept. -/
  output_edited : (converse Settings.default input').output = printedAll kept
  /-- They are the answers to the lines that are left. -/
  answers_edited : answers Settings.default (lines input') = kept
  /-- The lines after any others go on from the last result of these. -/
  resumes : ∀ before others, lines input = before ++ others →
    (∀ line ∈ before, isFarewell (content line) = false) →
      answers Settings.default (lines input) = answers Settings.default before ++
        answersFrom Settings.default (.ongoing (lastResult (answers Settings.default before))) others
  /-- The lines after a farewell can be any. -/
  ends : ∀ before bye others, lines input = before ++ bye :: others →
    isFarewell (content bye) = true → ∀ changed others', lines changed = before ++ bye :: others' →
      converse Settings.default changed = converse Settings.default input

/-- **Lines that say nothing or end in an error leave no trace**, and neither do blanks in the other
lines. -/
theorem onlyResultsMatter_of_edited {input input' : List Char} {kept : List Answer}
    (h : Edited ((lines input).zip (answers Settings.default (lines input))) (lines input') kept) :
    OnlyResultsMatter input input' kept := by
  have hkept : answers Settings.default (lines input') = kept := answersFrom_of_edited h
  refine ⟨⟨status_converse input, status_converse input'⟩, output_converse _ input, ?_, hkept, ?_,
    ?_⟩
  · rw [output_converse, hkept]
  · intro before others hlines hbefore
    rw [hlines]
    exact answers_append hbefore others
  · intro before bye others hlines hbye changed others' hchanged
    exact converse_eq_of_farewell hlines hchanged hbye

/-- A division goes on from four and fails; the sum two lines later goes on from four as well, with
blanks in it and without the lines in between. -/
theorem onlyResultsMatter_of_failed_division :
    Edited ((lines "4\n/0\n \n+1\nquit\n7\n".toList).zip
        (answers Settings.default (lines "4\n/0\n \n+1\nquit\n7\n".toList)))
      (lines "4\n + 1\nquit\n7\n".toList)
      [.outcome (.ok ['4']), .outcome (.ok ['5']), .farewell, .unread] ∧
      OnlyResultsMatter "4\n/0\n \n+1\nquit\n7\n".toList "4\n + 1\nquit\n7\n".toList
        [.outcome (.ok ['4']), .outcome (.ok ['5']), .farewell, .unread] := by
  have hbefore : (lines "4\n/0\n \n+1\nquit\n7\n".toList).zip
      (answers Settings.default (lines "4\n/0\n \n+1\nquit\n7\n".toList)) =
        [("4\n".toList, .outcome (.ok ['4'])),
          ("/0\n".toList, .outcome (.error (.divisionByZero (.ofDecimal ⟨false, 4, 0⟩)))),
          (" \n".toList, .silence), (['+', '1', '\n'], .outcome (.ok ['5'])),
          ("quit\n".toList, .farewell), ("7\n".toList, .unread)] := by decide +kernel
  have hafter : lines "4\n + 1\nquit\n7\n".toList =
      ["4\n".toList, [' ', '+', ' ', '1', '\n'], "quit\n".toList, "7\n".toList] := by
    decide +kernel
  have hsum : Widened ['+', '1', '\n'] [' ', '+', ' ', '1', '\n'] :=
    .inserted (by decide) (.kept '+' (.inserted (by decide) (.refl _)))
  have hedited : Edited ((lines "4\n/0\n \n+1\nquit\n7\n".toList).zip
      (answers Settings.default (lines "4\n/0\n \n+1\nquit\n7\n".toList)))
      (lines "4\n + 1\nquit\n7\n".toList)
      [.outcome (.ok ['4']), .outcome (.ok ['5']), .farewell, .unread] := by
    rw [hbefore, hafter]
    refine .widened (.refl _) (.leftOut (.inr ⟨_, rfl⟩) (.leftOut (.inl (by decide +kernel)) ?_))
    exact .widened hsum (.widened (.refl _) (.widened (.refl _) .nil))
  exact ⟨hedited, onlyResultsMatter_of_edited hedited⟩

end Reckoner.Dialogue
