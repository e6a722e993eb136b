import Reckoner.Dialogue
import Reckoner.Proofs.Display.Stability
import Reckoner.Proofs.Totality
/-!
# `Reckoner/Proofs/Dialogue/Answers.lean` — a dialogue, answer by answer

What a dialogue prints is one text. Here it is taken apart into the answers to its lines, one for
each (`answersFrom`), and what stands between two lines is said: whether the dialogue goes on, and
from which result (`Standing`).

> **A dialogue prints its answers** (`output_runLines`), and **what a line goes on from is the last
> result before it** (`answersFrom_append`), however many lines without a result there are in
> between.

With the default settings no line breaks a dialogue off (`reply_cases`). A result that is remembered
has been shown, so it can be spelt as an operand.
-/

set_option autoImplicit false

namespace Reckoner.Dialogue

/-- The characters of a line that count. -/
def content (line : List Char) : List Char := line.filter fun c => !Text.isBlank c

/-- What a line is answered with. -/
inductive Answer where
  /-- The dialogue was over before the line. -/
  | unread
  | farewell
  | silence
  | outcome (outcome : Outcome)
  /-- A fault has broken the dialogue off. -/
  | broken (fault : Fault)
deriving DecidableEq

namespace Answer

/-- What is printed of an answer. -/
def printed : Answer → String
  | .outcome reached => outcomeLine reached
  | _ => ""

/-- The result that is answered, if one is. -/
def result? : Answer → Option (List Char)
  | .outcome reached => reached.toOption
  | _ => none

end Answer

/-- How the dialogue stands between two lines. -/
inductive Standing where
  | ongoing (previous : Option (List Char))
  | ended

variable {settings : Settings} {previous : Option (List Char)} {line : List Char}

/-- The answer to a line, and how the dialogue stands after it. -/
def respond (settings : Settings) : Standing → List Char → Answer × Standing
  | .ended, _ => (.unread, .ended)
  | .ongoing previous, line =>
    match reply settings previous line with
    | .error fault => (.broken fault, .ended)
    | .ok .farewell => (.farewell, .ended)
    | .ok .silence => (.silence, .ongoing previous)
    | .ok (.answer _ outcome) => (.outcome outcome, .ongoing (remember previous outcome))

/-- The answers to the lines, one for each. -/
def answersFrom (settings : Settings) (standing : Standing) : List (List Char) → List Answer
  | [] => []
  | line :: others =>
    (respond settings standing line).1 :: answersFrom settings (respond settings standing line).2 others

/-- The answers to the lines of a dialogue. -/
def answers (settings : Settings) (lines : List (List Char)) : List Answer :=
  answersFrom settings (.ongoing none) lines

/-- What the answers print. -/
def printedAll (answers : List Answer) : String := String.join (answers.map Answer.printed)

/-- The last result among the answers. -/
def lastResult (answers : List Answer) : Option (List Char) :=
  (answers.filterMap Answer.result?).getLast?

/-! ## Replies -/

theorem reply_of_farewell (h : isFarewell (content line) = true) :
    reply settings previous line = .ok .farewell := by
  rw [reply]
  exact if_pos h

theorem reply_of_blank (h : content line = []) : reply settings previous line = .ok .silence := by
  rw [content] at h
  rw [reply]
  simp only [h]
  rfl

/-- **A line that says something is evaluated** behind the result that it goes on from. -/
theorem reply_eq (hfarewell : isFarewell (content line) = false) (hne : content line ≠ []) :
    reply settings previous line = (chainOnto previous (content line)).bind fun expression =>
      (Evaluation.evaluate settings expression).map (.answer expression) := by
  have hempty : (content line).isEmpty = false := by simpa using hne
  rw [content] at hfarewell hempty
  rw [reply]
  simp only [hfarewell, hempty, Bool.false_eq_true, ↓reduceIte, content]
  rfl

/-- Blanks do not count. -/
theorem respond_eq_of_content_eq {line' : List Char} (h : content line = content line')
    (standing : Standing) : respond settings standing line = respond settings standing line' := by
  cases standing with
  | ended => rfl
  | ongoing previous =>
    have hreply : reply settings previous line = reply settings previous line' := by
      rw [content, content] at h
      rw [reply, reply, h]
    rw [respond, respond, hreply]

/-- **A line that says nothing leaves the dialogue as it stands.** -/
theorem respond_of_blank (h : content line = []) (standing : Standing) :
    (respond settings standing line).2 = standing := by
  cases standing with
  | ended => rfl
  | ongoing previous => simp only [respond, reply_of_blank h]

/-- **So does a line that ends in an error.** -/
theorem respond_of_error {standing : Standing} {e : EvalError}
    (h : (respond settings standing line).1 = .outcome (.error e)) :
    (respond settings standing line).2 = standing := by
  cases standing with
  | ended => rfl
  | ongoing previous =>
    simp only [respond] at h ⊢
    split at h
    · cases h
    · cases h
    · cases h
    · cases h
      rfl

/-! ## Runs -/

/-- How the dialogue stands after the lines. -/
def standingAfter (settings : Settings) (standing : Standing) (lines : List (List Char)) :
    Standing :=
  lines.foldl (fun standing line => (respond settings standing line).2) standing

theorem answersFrom_append_standing (standing : Standing) (before others : List (List Char)) :
    answersFrom settings standing (before ++ others) = answersFrom settings standing before ++
      answersFrom settings (standingAfter settings standing before) others := by
  induction before generalizing standing with
  | nil => rfl
  | cons line before ih =>
    rw [List.cons_append, answersFrom, ih, answersFrom, List.cons_append]
    rfl

theorem printedAll_cons (answer : Answer) (others : List Answer) :
    printedAll (answer :: others) = answer.printed ++ printedAll others := by
  rw [printedAll, List.map_cons, String.join_cons]
  rfl

/-- What is not read is not answered. -/
theorem printedAll_ended (lines : List (List Char)) :
    printedAll (answersFrom settings .ended lines) = "" := by
  induction lines with
  | nil => rfl
  | cons line others ih =>
    rw [answersFrom, printedAll_cons]
    exact ih

/-- **A dialogue that shows no prompt prints its answers**, and nothing else. -/
theorem output_runLines (settings : Settings) (previous : Option (List Char))
    (lines : List (List Char)) : (runLines settings "" previous lines).output =
      printedAll (answersFrom settings (.ongoing previous) lines) := by
  induction lines generalizing previous with
  | nil => rfl
  | cons line others ih =>
    rw [answersFrom, printedAll_cons, runLines, respond]
    cases reply settings previous line with
    | error fault => exact (printedAll_ended others).symm
    | ok said =>
      cases said with
      | farewell => exact (printedAll_ended others).symm
      | silence =>
        show "" ++ (runLines settings "" previous others).output = _
        rw [ih]
        rfl
      | answer expression outcome =>
        show "" ++ outcomeLine outcome ++
          (runLines settings "" (remember previous outcome) others).output = _
        rw [ih, String.empty_append]
        simp only [Answer.printed]

/-! ## The default settings -/

/-- The result, if there is one, has been shown. -/
def Resumable (previous : Option (List Char)) : Prop :=
  ∀ result ∈ previous, ∃ v, Display.text Settings.default v = .ok result

theorem resumable_none : Resumable none := by
  intro result hresult
  cases hresult

theorem Resumable.remember (h : Resumable previous) {expression : List Char} {outcome : Outcome}
    (houtcome : Evaluation.evaluate Settings.default expression = .ok outcome) :
    Resumable (remember previous outcome) := by
  cases outcome with
  | error e => exact h
  | ok text =>
    intro result hresult
    obtain rfl := Option.some.inj hresult
    exact Evaluation.exists_text_of_evaluate houtcome

theorem exists_chainOnto (h : Resumable previous) (line : List Char) :
    ∃ expression, chainOnto previous line = .ok expression := by
  cases previous with
  | none => exact ⟨line, rfl⟩
  | some result =>
    obtain ⟨v, htext⟩ := h result rfl
    obtain ⟨operand, hoperand⟩ := Evaluation.exists_ofDisplay htext true
    rw [chainOnto]
    split
    · exact ⟨_, map_eq_ok_iff.mpr ⟨operand, hoperand, rfl⟩⟩
    · exact ⟨line, rfl⟩

/-- A line that goes on from a result is put behind its operand. -/
theorem chainOnto_eq {result operand : List Char} {c : Char} (hc : continuesResult c = true)
    (hoperand : Operand.ofDisplay true result = .ok operand) (rest : List Char) :
    chainOnto (some result) (c :: rest) = .ok (operand ++ c :: rest) := by
  simp only [chainOnto, List.head?_cons, Option.any_some, hc, ↓reduceIte, hoperand]
  rfl

/-- **No line breaks a dialogue off.** It ends the dialogue, says nothing, or has an outcome. -/
theorem reply_cases (h : Resumable previous) (line : List Char) :
    isFarewell (content line) = true ∧ reply Settings.default previous line = .ok .farewell ∨
      content line = [] ∧ reply Settings.default previous line = .ok .silence ∨
      ∃ expression outcome, Evaluation.evaluate Settings.default expression = .ok outcome ∧
        reply Settings.default previous line = .ok (.answer expression outcome) := by
  by_cases hfarewell : isFarewell (content line) = true
  · exact .inl ⟨hfarewell, reply_of_farewell hfarewell⟩
  · by_cases hne : content line = []
    · exact .inr (.inl ⟨hne, reply_of_blank hne⟩)
    · obtain ⟨expression, hexpression⟩ := exists_chainOnto h (content line)
      obtain ⟨outcome, houtcome⟩ :=
        Evaluation.exists_outcome Settings.digitsWithin_default expression
      refine .inr (.inr ⟨expression, outcome, houtcome, ?_⟩)
      rw [reply_eq (by simpa using hfarewell) hne, hexpression]
      exact map_eq_ok_iff.mpr ⟨outcome, houtcome, rfl⟩

/-- **A line that does not end a dialogue lets it go on**, from the result of the line if it has
one. -/
theorem respond_default (h : Resumable previous) (hfarewell : isFarewell (content line) = false) :
    ∃ next, (respond Settings.default (.ongoing previous) line).2 = .ongoing next ∧
      Resumable next ∧
      next = (respond Settings.default (.ongoing previous) line).1.result?.or previous := by
  rcases reply_cases h line with ⟨hbye, -⟩ | ⟨hne, hreply⟩ | ⟨expression, outcome, houtcome, hreply⟩
  · rw [hfarewell] at hbye
    exact absurd hbye (by simp)
  · refine ⟨previous, respond_of_blank hne _, h, ?_⟩
    simp only [respond, hreply, Answer.result?, Option.none_or]
  · refine ⟨remember previous outcome, ?_, h.remember houtcome, ?_⟩
    · simp only [respond, hreply]
    · simp only [respond, hreply, Answer.result?]
      cases outcome with
      | error e => exact Option.none_or.symm
      | ok text => exact Option.some_or.symm

theorem fault_runLines (h : Resumable previous) (prompt : String) (lines : List (List Char)) :
    (runLines Settings.default prompt previous lines).fault = none := by
  induction lines generalizing previous with
  | nil => rfl
  | cons line others ih =>
    rw [runLines]
    rcases reply_cases h line with ⟨-, hreply⟩ | ⟨-, hreply⟩ | ⟨expression, outcome, houtcome, hreply⟩
    · rw [hreply]
    · rw [hreply]
      exact ih h
    · rw [hreply]
      exact ih (h.remember houtcome)

theorem lastResult_cons (answer : Answer) (others : List Answer) :
    lastResult (answer :: others) = (lastResult others).or answer.result? := by
  rw [lastResult, List.filterMap_cons]
  cases answer.result? with
  | none => exact Option.or_none.symm
  | some text =>
    show (text :: others.filterMap Answer.result?).getLast? = _
    rw [List.getLast?_cons, lastResult]
    cases (others.filterMap Answer.result?).getLast? with
    | none => rfl
    | some last => rfl

theorem standingAfter_default (h : Resumable previous) {before : List (List Char)}
    (hbefore : ∀ line ∈ before, isFarewell (content line) = false) :
    standingAfter Settings.default (.ongoing previous) before = .ongoing
      ((lastResult (answersFrom Settings.default (.ongoing previous) before)).or previous) := by
  induction before generalizing previous with
  | nil => rfl
  | cons line before ih =>
    obtain ⟨next, hstanding, hnext, hresult⟩ := respond_default h (hbefore line (by simp))
    have hrest := ih hnext fun line hline => hbefore line (List.mem_cons_of_mem _ hline)
    rw [answersFrom, lastResult_cons, Option.or_assoc, ← hresult, hstanding, ← hrest]
    show standingAfter Settings.default (respond Settings.default (.ongoing previous) line).2
      before = _
    rw [hstanding]

/-- **What the lines go on from is the last result before them**, unless the dialogue is over. -/
theorem answers_append {before : List (List Char)}
    (hbefore : ∀ line ∈ before, isFarewell (content line) = false) (others : List (List Char)) :
    answers Settings.default (before ++ others) = answers Settings.default before ++
      answersFrom Settings.default (.ongoing (lastResult (answers Settings.default before)))
        others := by
  have hstanding := standingAfter_default resumable_none hbefore
  rw [Option.or_none] at hstanding
  rw [answers, answersFrom_append_standing, hstanding]
  rfl

/-! ## The end -/

/-- **What comes after a farewell has no effect** on what is printed, on the log, or on the fault. -/
theorem runLines_farewell (settings : Settings) {bye : List Char}
    (hbye : isFarewell (content bye) = true) (prompt : String)
    (previous : Option (List Char)) (before others others' : List (List Char)) :
    { runLines settings prompt previous (before ++ bye :: others) with rest := [] } =
      { runLines settings prompt previous (before ++ bye :: others') with rest := [] } := by
  induction before generalizing previous with
  | nil =>
    simp only [List.nil_append, runLines, reply_of_farewell hbye]
  | cons line before ih =>
    simp only [List.cons_append, runLines]
    cases reply settings previous line with
    | error fault => rfl
    | ok said =>
      cases said with
      | farewell => rfl
      | silence =>
        have hrest := ih previous
        simp only [Transcript.mk.injEq] at hrest
        simp only [Transcript.after, hrest]
      | answer expression outcome =>
        have hrest := ih (remember previous outcome)
        simp only [Transcript.mk.injEq] at hrest
        simp only [Transcript.after, hrest]

end Reckoner.Dialogue
