import MiniPascal.Settings.Basic

/-!
# Command Line Options

The options of the program and of its two commands.  The program and both commands
share three options; a command has its own in addition.  A flag has no value, and
every other option needs one.
-/

namespace MiniPascal

/-! ## §1 Levels -/

/-- Whose options are read: those of the program before its command, or those of a
command. -/
inductive CommandLevel where
  | program
  | demo
  | lex
  deriving DecidableEq

namespace CommandLevel

/-- The name in the report of the version. -/
def fullName : CommandLevel → String
  | program => "pasct"
  | demo => "pasct-demo"
  | lex => "pasct-lex"

def ofCommand? : String → Option CommandLevel
  | "demo" => some demo
  | "lex" => some lex
  | _ => none

end CommandLevel

/-! ## §2 Options -/

/-- An option without a value. -/
inductive Flag where
  | verbose
  | noColour
  | positions
  deriving DecidableEq

/-- An option with a value. -/
inductive ValueOption where
  | config
  | format
  deriving DecidableEq

inductive OptionKind where
  | flag (flag : Flag)
  | value (option : ValueOption)
  | version
  deriving DecidableEq

namespace CommandLevel

/-- Whether a flag is known at a level. -/
def hasFlag : CommandLevel → Flag → Bool
  | program, .positions => false
  | _, _ => true

/-- Whether an option with a value is known at a level. -/
def hasValueOption : CommandLevel → ValueOption → Bool
  | lex, .format => true
  | _, .format => false
  | _, .config => true

/-- Whether an option is known at a level. -/
def knows (level : CommandLevel) : OptionKind → Bool
  | .flag flag => level.hasFlag flag
  | .value option => level.hasValueOption option
  | .version => true

def long? (level : CommandLevel) (name : String) : Option OptionKind :=
  let kind? : Option OptionKind := match name with
    | "verbose" => some (.flag .verbose)
    | "no-color" => some (.flag .noColour)
    | "positions" => some (.flag .positions)
    | "config" => some (.value .config)
    | "format" => some (.value .format)
    | "version" => some .version
    | _ => none
  kind?.filter level.knows

def short? (level : CommandLevel) (letter : Char) : Option OptionKind :=
  let kind? : Option OptionKind := match letter with
    | 'v' => some (.flag .verbose)
    | 'p' => some (.flag .positions)
    | 'c' => some (.value .config)
    | 'F' => some (.value .format)
    | 'V' => some .version
    | _ => none
  kind?.filter level.knows

end CommandLevel

/-! ## §3 Reading stops -/

inductive UsageError where
  | unknownOption (argument : String)
  | unwantedValue (argument : String)
  | missingValue (option : ValueOption)
  /-- The value of the option is not one of those it can have. -/
  | badValue (value : String)
  | repeated
  | missingCommand
  | unknownCommand (name : String)
  | missingFile
  /-- There is nothing that the argument could be for. -/
  | unexpectedArgument (argument : String)
  /-- A variable of the environment has a value that its option cannot have. -/
  | badVariable (name : String)
  deriving DecidableEq

/-- What is wrong, in a line for the user. -/
def UsageError.message : UsageError → String
  | unknownOption argument => "unknown option: " ++ argument
  | unwantedValue argument => "unwanted value: " ++ argument
  | missingValue .config => "missing path of the settings"
  | missingValue .format => "missing format"
  | badValue value => "bad value: " ++ value
  | repeated => "option given more than once"
  | missingCommand => "missing command"
  | unknownCommand name => "unknown command: " ++ name
  | missingFile => "missing file"
  | unexpectedArgument argument => "unexpected argument: " ++ argument
  | badVariable name => "bad value of the variable " ++ name

/-- Why the reading of a command line stops before its end. -/
inductive Halt where
  | usage (error : UsageError)
  /-- The version of the program or command is asked for. -/
  | version (level : CommandLevel)
  deriving DecidableEq

/-! ## §4 What is given at one level -/

/-- The options and arguments given at one level. -/
structure Given where
  verbose : Bool
  noColour : Bool
  positions : Bool
  config? : Option String
  format? : Option DumpFormat
  file? : Option String
  deriving DecidableEq

namespace Given

def nothing : Given := ⟨false, false, false, none, none, none⟩

def flag (given : Given) : Flag → Bool
  | .verbose => given.verbose
  | .noColour => given.noColour
  | .positions => given.positions

/-- Gives a flag, which may be given only once. -/
def raise (given : Given) (flag : Flag) : Except Halt Given :=
  if given.flag flag then .error (.usage .repeated)
  else .ok (match flag with
    | .verbose => { given with verbose := true }
    | .noColour => { given with noColour := true }
    | .positions => { given with positions := true })

/-- Gives an option its value, which may be given only once. -/
def assign (given : Given) (option : ValueOption) (value : String) : Except Halt Given :=
  match option with
  | .config =>
    if value = "" then .error (.usage (.badValue value))
    else if given.config?.isSome then .error (.usage .repeated)
    else .ok { given with config? := some value }
  | .format =>
    match Settings.formatNamed? value with
    | none => .error (.usage (.badValue value))
    | some format =>
      if given.format?.isSome then .error (.usage .repeated)
      else .ok { given with format? := some format }

/-- Gives an argument that is no option.  Only the command `lex` takes one: its
file. -/
def place (given : Given) (level : CommandLevel) (argument : String) : Except Halt Given :=
  if level = .lex ∧ given.file?.isNone then
    if argument = "" then .error (.usage (.badValue argument))
    else .ok { given with file? := some argument }
  else .error (.usage (.unexpectedArgument argument))

end Given

end MiniPascal
