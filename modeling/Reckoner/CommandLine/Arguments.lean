import Reckoner.Text.DecimalDigit
/-!
# `Reckoner/CommandLine/Arguments.lean` — the arguments of a run

A run is asked for one of three commands, with a flag for log lines in front of it. Flags may be
shortened as long as they are clear. An expression may well start with a minus, which is also what
flags start with: such an argument is taken as it stands if it looks like a negative number, if it
has a space in it, or if it stands behind the marker `--`, and is an unknown flag otherwise.
-/

set_option autoImplicit false

namespace Reckoner.CommandLine

/-- What a run is to do. -/
inductive Command where
  | eval (expressions : List (List Char))
  | preview (expression : List Char)
  | dialogue
deriving DecidableEq, Repr

/-- The arguments, understood. -/
structure Arguments where
  verbose : Bool
  command : Command
deriving DecidableEq, Repr

/-- Why a run is not started. -/
inductive Refusal where
  /-- The user asks for help instead. -/
  | help
  /-- The arguments are not understood. -/
  | usage
deriving DecidableEq, Repr

/-! ## One argument -/

/-- The flags. -/
inductive Flag where
  | help
  | verbose
deriving DecidableEq, Repr

/-- The long name of a flag, without its dashes. -/
def Flag.name : Flag → List Char
  | .help => "help".toList
  | .verbose => "verbose".toList

/-- What an argument is taken for. -/
inductive Reading where
  | operand
  | marker
  | flag (f : Flag)
  /-- A flag that there is not. -/
  | unknown
  /-- The beginning of several flags. -/
  | ambiguous
  /-- A flag that is given a value. -/
  | malformed
deriving DecidableEq, Repr

/-- A non-empty run of decimal digits of any script. -/
def isDigits (text : List Char) : Bool :=
  !text.isEmpty && text.all fun c => (Text.decimalDigit? c).isSome

/-- The text is a minus, and digits with at most one point, which has a digit behind it. One line
end may follow. -/
def looksNegative : List Char → Bool
  | '-' :: text =>
    let body := if text.getLast? = some '\n' then text.dropLast else text
    let whole := body.takeWhile (· ≠ '.')
    match body.dropWhile (· ≠ '.') with
    | [] => isDigits whole
    | _ :: fraction => (whole.isEmpty || isDigits whole) && isDigits fraction
  | _ => false

/-- What an argument with a dash is that starts no flag. -/
def readOther (argument : List Char) : Reading :=
  if looksNegative argument || argument.contains ' ' then .operand else .unknown

/-- An argument with two dashes, by what follows them: a flag, or the beginning of its name. -/
def readLong (flags : List Flag) (argument text : List Char) : Reading :=
  match flags.filter fun f => (text.takeWhile (· ≠ '=')).isPrefixOf f.name with
  | [f] => if text.contains '=' then .malformed else .flag f
  | [] => readOther argument
  | _ => .ambiguous

/-- An argument that starts with the short help flag, by what follows it. One-letter flags can be
written together, and help is the only one, so the letter may be repeated, also behind an equals
sign; an equals sign with nothing behind it and every other character are wrong. -/
def readHelp : List Char → Reading
  | ['='] => .malformed
  | '=' :: letters | letters => if letters.all (· = 'h') then .flag .help else .malformed

/-- What an argument is taken for where the given flags are known. -/
def read (flags : List Flag) (argument : List Char) : Reading :=
  match argument with
  | ['-', '-'] => .marker
  | '-' :: '-' :: text => readLong flags argument text
  | '-' :: 'h' :: text => readHelp text
  | '-' :: _ :: _ => readOther argument
  | _ => .operand

/-! ## The arguments of a command -/

/-- The operands among the arguments of a command, which has no flag but help. An unknown flag is
remembered, since a later call for help still counts. -/
def operandsOf (sawUnknown : Bool) : List (List Char) → Except Refusal (List (List Char))
  | [] => if sawUnknown then .error .usage else .ok []
  | argument :: rest =>
    match read [.help] argument with
    | .operand => (operandsOf sawUnknown rest).map (argument :: ·)
    | .marker => if sawUnknown then .error .usage else .ok rest
    | .flag _ => .error .help
    | .unknown => operandsOf true rest
    | .ambiguous | .malformed => .error .usage

/-- The command of the given name with its arguments. -/
def commandOf (name : List Char) (arguments : List (List Char)) : Except Refusal Command :=
  if name = "eval".toList then
    (operandsOf false arguments).bind fun operands =>
      if operands.isEmpty then .error .usage else .ok (.eval operands)
  else if name = "preview".toList then
    (operandsOf false arguments).bind fun operands =>
      match operands with
      | [expression] => .ok (.preview expression)
      | _ => .error .usage
  else if name = "repl".toList then
    (operandsOf false arguments).bind fun operands =>
      if operands.isEmpty && !arguments.contains ['-', '-'] then .ok .dialogue else .error .usage
  else .error .usage

/-! ## All arguments -/

/-- The arguments of a run, after some that were read. -/
def parseWith (verbose sawUnknown : Bool) : List (List Char) → Except Refusal Arguments
  | [] => .error .usage
  | argument :: rest =>
    match read [.help, .verbose] argument with
    | .operand =>
      (commandOf argument rest).bind fun command =>
        if sawUnknown then .error .usage else .ok ⟨verbose, command⟩
    | .flag .verbose => parseWith true sawUnknown rest
    | .flag .help => .error .help
    | .unknown => parseWith verbose true rest
    | .marker | .ambiguous | .malformed => .error .usage

/-- The arguments of a run. A flag that is not clear is found before anything else. -/
def parse (arguments : List (List Char)) : Except Refusal Arguments :=
  let flags := arguments.takeWhile (· ≠ ['-', '-'])
  if flags.any fun argument => read [.help, .verbose] argument = .ambiguous then .error .usage
  else parseWith false false arguments

end Reckoner.CommandLine
