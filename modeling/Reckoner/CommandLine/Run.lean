import Reckoner.CommandLine.Arguments
import Reckoner.Dialogue
import Reckoner.Log
import Reckoner.Settings
/-!
# `Reckoner/CommandLine/Run.lean` — a run of the program

A run as a function of its arguments, its environment and its input: what it prints, what it logs
and the status with which it ends. The arguments are understood before the settings are read, and
the settings before anything is evaluated.

The status is 0 if all is well, 1 if an expression to be evaluated has an error or a fault breaks
the run off, and 2 if the arguments or the settings are not understood.
-/

set_option autoImplicit false

namespace Reckoner.CommandLine

/-- What a run leaves behind. -/
structure Report where
  status : Nat
  /-- What has been printed. -/
  output : String
  log : List String
  /-- The line that complains about the settings. -/
  complaint : Option String

/-- The run that does nothing and ends with the given status. -/
def Report.ended (status : Nat) : Report := ⟨status, "", [], none⟩

/-- Expressions evaluated one after another; an error does not stop the next one, a fault does. -/
def evalAll (settings : Settings) : List (List Char) → Report
  | [] => .ended 0
  | expression :: others =>
    let log := Log.evaluation settings expression
    match Evaluation.evaluate settings expression with
    | .error _ => ⟨1, "", log, none⟩
    | .ok outcome =>
      let more := evalAll settings others
      let status := match outcome with
        | .ok _ => more.status
        | .error _ => 1
      ⟨status, Dialogue.outcomeLine outcome ++ more.output, log ++ more.log, none⟩

/-- One expression previewed; nothing is printed if there is no preview. -/
def showPreview (settings : Settings) (expression : List Char) : Report :=
  let log := Log.preview settings expression
  match Evaluation.preview settings expression with
  | .error _ => ⟨1, "", log, none⟩
  | .ok (some text) => ⟨0, String.ofList text ++ "\n", log, none⟩
  | .ok none => ⟨0, "", log, none⟩

/-- A dialogue over the whole input, which is not a terminal. -/
def converse (settings : Settings) (input : List Char) : Report :=
  let transcript := Dialogue.run settings "> " false input
  ⟨if transcript.fault.isSome then 1 else 0, transcript.output, transcript.log, none⟩

/-- A command carried out. -/
def perform (settings : Settings) (input : List Char) : Command → Report
  | .eval expressions => evalAll settings expressions
  | .preview expression => showPreview settings expression
  | .dialogue => converse settings input

/-- The line that complains about the environment. -/
def complaintOf (message : String) : String := "infixcalc: error: " ++ message

/-- The run that ends before it starts, since the settings have a fault. -/
def reportSettings (fault : Fault) : Report :=
  match fault.message? with
  | some message => ⟨2, "", [], some (complaintOf message)⟩
  | none => .ended 1

/-- A run with the given arguments, environment and input. -/
def run (arguments : List (List Char)) (environment : List (List Char × List Char))
    (input : List Char) : Report :=
  match parse arguments with
  | .error .help => .ended 0
  | .error .usage => .ended 2
  | .ok { verbose, command } =>
    match Settings.ofEnvironment environment with
    | .error fault => reportSettings fault
    | .ok settings =>
      let report := perform settings input command
      { report with log := if verbose then report.log else [] }

end Reckoner.CommandLine
