import Reckoner.CommandLine.Run
/-!
# `Reckoner/Main.lean` — the program

The outer layer: it fetches arguments, environment and input, and prints. What is printed is decided
elsewhere (`Reckoner/CommandLine/Run.lean`). A dialogue alone is carried on here, line by line, so
that each line is answered before the next one is typed.
-/

set_option autoImplicit false

namespace Reckoner

/-- The names of the variables that hold settings. -/
def settingVariables : List String :=
  ["INFIXCALC_SIGNIFICANT_DIGITS", "INFIXCALC_MANTISSA_DIGITS", "INFIXCALC_SCIENTIFIC_UPPER",
    "INFIXCALC_SCIENTIFIC_LOWER"]

/-- The variables that hold settings and are set. -/
def readVariables : IO (List (List Char × List Char)) :=
  settingVariables.filterMapM fun name => do
    let value ← IO.getEnv name
    return value.map fun v => (name.toList, v.toList)

/-- The log lines, printed apart from the results. -/
def printLog (verbose : Bool) (lines : List String) : IO Unit := do
  if verbose then
    for line in lines do IO.eprintln line

/-- A dialogue with the user. Line ends are not translated: a carriage return is a blank of the line,
where input in text mode may have it end one. -/
partial def converseWith (verbose : Bool) (settings : Settings) (previous : Option (List Char)) :
    IO UInt32 := do
  let input ← IO.getStdin
  if ← input.isTty then
    IO.print "> "
    (← IO.getStdout).flush
  let line := (← input.getLine).toList
  if line.isEmpty then return 0
  match Dialogue.reply settings previous line with
  | .error _ =>
    printLog verbose (Dialogue.logOf settings previous line)
    return 1
  | .ok .farewell => return 0
  | .ok .silence => converseWith verbose settings previous
  | .ok (.answer expression outcome) =>
    printLog verbose (Log.evaluation settings expression)
    IO.print (Dialogue.outcomeLine outcome)
    converseWith verbose settings (Dialogue.remember previous outcome)

/-- The line that says how the program is called. -/
def usageLine : String := "usage: infixcalc [-h] [--verbose] eval EXPRESSION... | preview EXPRESSION | repl"

/-- A run of the program. -/
def runProgram (arguments : List (List Char)) : IO UInt32 := do
  let environment ← readVariables
  match CommandLine.parse arguments, Settings.ofEnvironment environment with
  | .ok { verbose, command := .dialogue }, .ok settings => converseWith verbose settings none
  | parsed, _ =>
    let report := CommandLine.run arguments environment []
    match parsed with
    | .error .help => IO.println usageLine
    | .error .usage => IO.eprintln usageLine
    | .ok _ => pure ()
    for line in report.log do IO.eprintln line
    for line in report.complaint do IO.eprintln line
    IO.print report.output
    return UInt32.ofNat report.status

end Reckoner

def main (arguments : List String) : IO UInt32 :=
  Reckoner.runProgram (arguments.map String.toList)
