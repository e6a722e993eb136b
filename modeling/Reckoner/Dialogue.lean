import Reckoner.Operand
import Reckoner.Evaluation
import Reckoner.Log
/-!
# `Reckoner/Dialogue.lean` — line by line

A dialogue answers one line after another. White space in a line means nothing, a line without
anything else is passed over, and a line that starts with an operator goes on from the last result.
The dialogue ends with its input, or with a line that says so.

**Only results are remembered.** A line that ends in an error is answered and forgotten; the next
one goes on from the last line that had a result.
-/

set_option autoImplicit false

namespace Reckoner.Dialogue

/-- The characters with which a line goes on from the last result. -/
def continuesResult (c : Char) : Bool := "+-*/^×÷²".toList.contains c

/-- The expression of a line: the last result is put in front of a line that goes on from it. -/
def chainOnto (previous : Option (List Char)) (line : List Char) : Except Fault (List Char) :=
  match previous with
  | some result =>
    if line.head?.any continuesResult then
      (Operand.ofDisplay true result).map (· ++ line)
    else .ok line
  | none => .ok line

/-- The line ends the dialogue. -/
def isFarewell (line : List Char) : Bool := line = "quit".toList || line = "exit".toList

/-- What a line comes to. -/
inductive Reply where
  /-- The line says nothing. -/
  | silence
  /-- The line ends the dialogue. -/
  | farewell
  /-- The line has been evaluated as the given expression. -/
  | answer (expression : List Char) (outcome : Outcome)

/-- The reply to a line, after the given result. -/
def reply (settings : Settings) (previous : Option (List Char)) (line : List Char) :
    Except Fault Reply :=
  let content := line.filter fun c => !Text.isBlank c
  if isFarewell content then .ok .farewell
  else if content.isEmpty then .ok .silence
  else do
    let expression ← chainOnto previous content
    let outcome ← Evaluation.evaluate settings expression
    return .answer expression outcome

/-- The last result after an outcome. -/
def remember (previous : Option (List Char)) : Outcome → Option (List Char)
  | .ok text => some text
  | .error _ => previous

/-- The printed line of an outcome. -/
def outcomeLine : Outcome → String
  | .ok text => String.ofList text ++ "\n"
  | .error e => "error: " ++ e.line ++ "\n"

/-! ## A dialogue as a whole -/

/-- The lines of a text, each with its line end; the last one may lack it. The text is input after
the translation of line ends, so that a line feed is the only one: a carriage return is a blank. -/
def lines : List Char → List (List Char)
  | [] => []
  | c :: rest =>
    if c = '\n' then ['\n'] :: lines rest
    else
      match lines rest with
      | [] => [[c]]
      | line :: others => (c :: line) :: others

/-- No character is lost. -/
theorem flatten_lines (text : List Char) : (lines text).flatten = text := by
  induction text with
  | nil => rfl
  | cons c rest ih =>
    unfold lines
    split
    · simp_all
    · split <;> simp_all

/-- What a dialogue leaves behind. -/
structure Transcript where
  /-- What has been printed, prompts included. -/
  output : String
  /-- The log lines of the evaluations. -/
  log : List String
  /-- The input after the line that ended the dialogue. -/
  rest : List Char
  /-- The fault that broke the dialogue off. -/
  fault : Option Fault

/-- The transcript with more in front of it. -/
def Transcript.after (output : String) (log : List String) (t : Transcript) : Transcript :=
  { t with output := output ++ t.output, log := log ++ t.log }

/-- The log lines of a line's evaluation, faulty or not. -/
def logOf (settings : Settings) (previous : Option (List Char)) (line : List Char) : List String :=
  match chainOnto previous (line.filter fun c => !Text.isBlank c) with
  | .ok expression => Log.evaluation settings expression
  | .error _ => []

/-- The dialogue over the given lines, with a prompt before each. -/
def runLines (settings : Settings) (prompt : String) (previous : Option (List Char)) :
    List (List Char) → Transcript
  | [] => ⟨prompt, [], [], none⟩
  | line :: others =>
    match reply settings previous line with
    | .error fault => ⟨prompt, logOf settings previous line, others.flatten, some fault⟩
    | .ok .farewell => ⟨prompt, [], others.flatten, none⟩
    | .ok .silence => (runLines settings prompt previous others).after prompt []
    | .ok (.answer expression outcome) =>
      (runLines settings prompt (remember previous outcome) others).after
        (prompt ++ outcomeLine outcome) (Log.evaluation settings expression)

/-- The dialogue over the given input. The prompt is shown on a terminal only. -/
def run (settings : Settings) (prompt : String) (terminal : Bool) (input : List Char) :
    Transcript :=
  runLines settings (if terminal then prompt else "") none (lines input)

end Reckoner.Dialogue
