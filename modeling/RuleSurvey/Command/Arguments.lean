import RuleSurvey.Log
import RuleSurvey.Options
import RuleSurvey.Path

namespace RuleSurvey.Command

/-!
The arguments of the command line. They are read from left to right, and the first one that settles
the matter does: a fault ends the reading, and so does a request for the version or for help. A path
may be any bytes, but all else has to be text.
-/

/-- An argument as it is handed over. -/
structure Argument where
  bytes : List UInt8
deriving DecidableEq, Repr

namespace Argument

def ofString (text : String) : Argument :=
  ⟨Utf8.encode text.toList⟩

def path (argument : Argument) : Path :=
  ⟨argument.bytes⟩

def text? (argument : Argument) : Option String :=
  (Utf8.decode? argument.bytes).map String.ofList

/-- The argument as messages show it; one that is text is shown as it is. -/
def display (argument : Argument) : String :=
  argument.path.display

end Argument

inductive Format where
  | json
  | text
deriving DecidableEq, Repr

/-- Options that take a value. -/
inductive Setting where
  | format
  | extension
  | maxDepth
  | maxFiles
deriving DecidableEq, Repr

def Setting.name : Setting → String
  | format => "--format"
  | extension => "--extension"
  | maxDepth => "--max-depth"
  | maxFiles => "--max-files"

/-- Options that stand alone. -/
inductive Switch where
  | compact
  | verbose
  | quiet
deriving DecidableEq, Repr

def Switch.name : Switch → String
  | compact => "--compact"
  | verbose => "--verbose"
  | quiet => "--quiet"

/-- What has been read of the arguments so far. -/
structure Arguments where
  path : Option Path := none
  format : Option Format := none
  extension : Option String := none
  maxDepth : Option Nat := none
  maxFiles : Option Nat := none
  compact : Bool := false
  verbose : Bool := false
  quiet : Bool := false
deriving DecidableEq, Repr

inductive UsageError where
  | missingPath
  | emptyPath
  | unexpectedArgument (argument : String)
  | repeated (option : String)
  | missingValue (option : String)
  | invalidValue (option value : String)
deriving DecidableEq, Repr

def UsageError.message : UsageError → String
  | missingPath => "the path of a rule root or a rule file is required"
  | emptyPath => "the path may not be empty"
  | unexpectedArgument argument => "unexpected argument '" ++ argument ++ "'"
  | repeated option => "the argument '" ++ option ++ "' cannot be used multiple times"
  | missingValue option => "a value is required for '" ++ option ++ "'"
  | invalidValue option value => "invalid value '" ++ value ++ "' for '" ++ option ++ "'"

/-- Why the reading of arguments ends before their end. -/
inductive Stop where
  | usage (reason : UsageError)
  | version
  | help
deriving DecidableEq, Repr

/-- A machine word in decimal digits, with an optional plus sign. -/
def count? (text : String) : Option Nat :=
  let digits := match text.toList with
    | '+' :: digits => digits
    | digits => digits
  let value := Nat.ofDigitChars 10 digits 0
  if digits.isEmpty || !digits.all Char.isDigit || value ≥ UInt64.size then none else some value

def format? : String → Option Format
  | "json" => some .json
  | "text" => some .text
  | _ => none

namespace Arguments

/-- The field of a setting gets its value; it may have only one. -/
def fill {α : Type} (setting : Setting) (old : Option α) (value? : Option α) (text : String) :
    Except Stop (Option α) :=
  if old.isSome then .error (.usage (.repeated setting.name))
  else match value? with
    | some value => .ok (some value)
    | none => .error (.usage (.invalidValue setting.name text))

def set (arguments : Arguments) (setting : Setting) (text : String) : Except Stop Arguments := do
  match setting with
  | .format => return { arguments with format := ← fill setting arguments.format (format? text) text }
  | .extension => return { arguments with extension := ← fill setting arguments.extension (some text) text }
  | .maxDepth => return { arguments with maxDepth := ← fill setting arguments.maxDepth (count? text) text }
  | .maxFiles => return { arguments with maxFiles := ← fill setting arguments.maxFiles (count? text) text }

def turnOn (arguments : Arguments) (switch : Switch) : Except Stop Arguments :=
  let raise (old : Bool) (raised : Arguments) : Except Stop Arguments :=
    if old then .error (.usage (.repeated switch.name)) else .ok raised
  match switch with
  | .compact => raise arguments.compact { arguments with compact := true }
  | .verbose => raise arguments.verbose { arguments with verbose := true }
  | .quiet => raise arguments.quiet { arguments with quiet := true }

def setPath (arguments : Arguments) (path : Path) : Except Stop Arguments :=
  if arguments.path.isSome then .error (.usage (.unexpectedArgument path.display))
  else if path.bytes.isEmpty then .error (.usage .emptyPath)
  else .ok { arguments with path := some path }

end Arguments

/-- What the name of a long option stands for. -/
inductive LongOption where
  | setting (setting : Setting)
  | switch (switch : Switch)
  | stop (stop : Stop)

def LongOption.ofName? : String → Option LongOption
  | "format" => some (.setting .format)
  | "extension" => some (.setting .extension)
  | "max-depth" => some (.setting .maxDepth)
  | "max-files" => some (.setting .maxFiles)
  | "compact" => some (.switch .compact)
  | "verbose" => some (.switch .verbose)
  | "quiet" => some (.switch .quiet)
  | "version" => some (.stop .version)
  | "help" => some (.stop .help)
  | _ => none

/-- One letter of a group of short options. -/
def Arguments.readLetter (arguments : Arguments) (letter : Char) : Except Stop Arguments :=
  match letter with
  | 'v' => arguments.turnOn .verbose
  | 'q' => arguments.turnOn .quiet
  | 'V' => .error .version
  | 'h' => .error .help
  | _ => .error (.usage (.unexpectedArgument (String.ofList ['-', letter])))

/-- What the next argument is taken for. -/
inductive Expecting where
  | any
  | value (setting : Setting)
  /-- After `--`, every argument is a path. -/
  | path

/-- A long option, given by what follows its two dashes. -/
def Arguments.readLong (arguments : Arguments) (text : List Char) :
    Except Stop (Arguments × Expecting) := do
  let name := String.ofList (text.takeWhile (· != '='))
  let unexpected : Stop := .usage (.unexpectedArgument ("--" ++ String.ofList text))
  match LongOption.ofName? name, text.dropWhile (· != '=') with
  | some (.setting setting), _ :: value =>
      return (← arguments.set setting (String.ofList value), .any)
  | some (.setting setting), [] => return (arguments, .value setting)
  | some (.switch switch), [] => return (← arguments.turnOn switch, .any)
  | some (.stop stop), [] => .error stop
  | _, _ => .error unexpected

/-- Whether an argument is written as an option; a single dash is not. -/
def looksLikeOption (argument : Argument) : Bool :=
  match argument.display.toList with
  | '-' :: _ :: _ => true
  | _ => false

def Arguments.read (state : Arguments × Expecting) (argument : Argument) :
    Except Stop (Arguments × Expecting) := do
  let (arguments, expecting) := state
  match expecting with
  | .path => return (← arguments.setPath argument.path, .path)
  | .value setting =>
      if looksLikeOption argument then .error (.usage (.missingValue setting.name))
      else match argument.text? with
        | some text => return (← arguments.set setting text, .any)
        | none => .error (.usage (.invalidValue setting.name argument.display))
  | .any =>
      match argument.display.toList with
      | ['-', '-'] => return (arguments, .path)
      | '-' :: '-' :: text =>
          -- No name of an option and no value of one is other than text.
          if argument.text?.isSome then arguments.readLong text
          else .error (.usage (.unexpectedArgument argument.display))
      | '-' :: letter :: letters =>
          return (← (letter :: letters).foldlM Arguments.readLetter arguments, .any)
      | _ => return (← arguments.setPath argument.path, .any)

/-- The options of the survey: dots in front of the extension do not count. -/
def Arguments.options (arguments : Arguments) : SurveyOptions :=
  let defaults : ScanOptions := {}
  { scan := {
      extension := match arguments.extension with
        | some text => String.ofList (text.toList.dropWhile (· == '.'))
        | none => defaults.extension
      maxDepth := arguments.maxDepth.getD defaults.maxDepth
      maxFiles := arguments.maxFiles.getD defaults.maxFiles } }

/-- What a run is asked to do, with nothing left open. -/
structure Invocation where
  path : Path
  options : SurveyOptions
  format : Format
  compact : Bool
  verbose : Bool
  quiet : Bool
deriving DecidableEq, Repr

/-- The level that the arguments force on the log; quiet wins over verbose. -/
def Invocation.forcedLevel (invocation : Invocation) : Option Level :=
  if invocation.quiet then some .warn
  else if invocation.verbose then some .debug
  else none

def Invocation.parse (given : List Argument) : Except Stop Invocation := do
  let (arguments, expecting) ← given.foldlM Arguments.read ({}, .any)
  match expecting, arguments.path with
  | .value setting, _ => .error (.usage (.missingValue setting.name))
  | _, none => .error (.usage .missingPath)
  | _, some path => .ok {
      path
      options := arguments.options
      format := arguments.format.getD .json
      compact := arguments.compact
      verbose := arguments.verbose
      quiet := arguments.quiet }

end RuleSurvey.Command
