import MiniPascal.Arguments.Invocation
import MiniPascal.Diagnostic.Basic
import MiniPascal.Files.Basic
import MiniPascal.Log.Filter
import MiniPascal.SampleProgram
import MiniPascal.Settings.Load

/-!
# The Program

The program loads its settings, scans a source and dumps its tokens.  All that it
does is a function of its surroundings: the arguments, the environment, the
standard input and the files.  Tokens go to the standard output, everything else
to the standard error.

A lexical error is told by its diagnostic alone; every other failure has a line of
its own.
-/

namespace MiniPascal

/-! ## §1 Failures -/

inductive Failure where
  | settings (error : SettingsError)
  | file (path : String) (fault : FileFault)
  | input (fault : FileFault)
  | lexical (error : LexicalError)

namespace Failure

def message : Failure → String
  | settings error => error.message
  | file path fault => "File operation failed: " ++ path ++ ": " ++ fault.message
  | input fault => "IO error: " ++ fault.message
  | lexical error => "Lexical error: " ++ error.message

/-- What went wrong and what it was for, followed by the fault of the system if
there is one behind it. -/
def chain (failure : Failure) : String :=
  match failure with
  | settings (.unreadable fault) =>
      "failed to load configuration: " ++ failure.message ++ ": " ++ fault.message
  | settings _ => "failed to load configuration: " ++ failure.message
  | input fault => failure.message ++ ": " ++ fault.message
  | file _ _ => failure.message
  | lexical _ => failure.message

/-- Whether a failure is told by a diagnostic. -/
def isDiagnosed : Failure → Bool
  | lexical _ => true
  | settings _ | file _ _ | input _ => false

/-- The line of a failure, if it has one. -/
def line (failure : Failure) : String :=
  if failure.isDiagnosed then "" else "error: " ++ failure.chain ++ "\n"

end Failure

/-! ## §2 Sources -/

/-- Whether a path means the standard input: a dash, perhaps with slashes and
single dots behind it. -/
def isStandardInput (path : String) : Bool :=
  match pieces '/' path.toList with
  | first :: rest => first = ['-'] && rest.all fun name => name.isEmpty || name == ['.']
  | [] => false

def readSource (files : Files) (input : ByteArray) (path : String) : Except Failure String :=
  if isStandardInput path then
    match decodeText input with
    | .ok text => .ok text
    | .error fault => .error (.input fault)
  else
    match files.readText path with
    | .ok text => .ok text
    | .error fault => .error (.file path fault)

/-! ## §3 Commands -/

structure CommandResult where
  output : String
  log : List LogRecord
  diagnostic? : Option Diagnostic
  failure? : Option Failure

def executing (name : String) : LogRecord :=
  ⟨.debug, .commands, "executing", [.inQuotes "command" name]⟩

def scanning (path source : String) : LogRecord :=
  ⟨.debug, .dumping, "scanning",
    [.bare "input" path, .bare "bytes" (naturalText source.utf8ByteSize)]⟩

def scanFailed (error : LexicalError) : LogRecord :=
  ⟨.debug, .dumping, "lexical error", [.bare "code" error.code.text]⟩

def runDemo (positions : Bool) : CommandResult :=
  let dump := TokenDump.text positions (.start sampleProgram.toList)
  ⟨dump.output, executing "demo" :: dump.events.map Event.record, none,
    dump.error?.map .lexical⟩

/-- Dumps the tokens of the source at a path. -/
def runLex (files : Files) (input : ByteArray) (path : String) (format : DumpFormat)
    (positions : Bool) : CommandResult :=
  match readSource files input path with
  | .error failure => ⟨"", [executing "lex"], none, some failure⟩
  | .ok source =>
    let dump := TokenDump.write format positions (.start source.toList)
    let log := executing "lex" :: scanning path source :: dump.events.map Event.record
    match dump.error? with
    | none => ⟨dump.output, log, none, none⟩
    | some error =>
      ⟨dump.output, log ++ [scanFailed error], some (error.diagnostic source.toList),
        some (.lexical error)⟩

/-! ## §4 The program as a whole -/

/-- All that the program depends on. -/
structure Surroundings where
  environment : Environment
  input : ByteArray
  files : Files
  settingsPlaces : List String
  terminal : Bool

inductive Completion where
  | usage (error : UsageError)
  | finished (exitCode : Nat) (output : String) (errors : String)

def version : String := "0.0.3"

/-- What goes to the standard error after a command: the log, the diagnostic, and
the line of a failure. -/
def errorText (filter : LogFilter) (inColour : Bool) (result : CommandResult) : String :=
  let log := String.join ((result.log.filter filter.allows).map LogRecord.line)
  let diagnostic := match result.diagnostic? with
    | some diagnostic => diagnostic.text inColour
    | none => ""
  let failure := match result.failure? with
    | some failure => failure.line
    | none => ""
  log ++ diagnostic ++ failure

/-- The paths that a run may look at: that of the settings, or the places where they
are looked for, and the source. -/
def pathsOf (settingsPlaces : List String) (invocation : Invocation) : List String :=
  let settings := match invocation.config? with
    | some path => [path]
    | none => settingsPlaces
  match invocation.command with
  | .demo _ => settings
  | .lex path _ _ => settings ++ [path]

/-- Whether a run reads the standard input. -/
def readsInput (invocation : Invocation) : Bool :=
  match invocation.command with
  | .demo _ => false
  | .lex path _ _ => isStandardInput path

def runCommand (surroundings : Surroundings) (settings : Settings) : Command → CommandResult
  | .demo positions => runDemo (positions || settings.positions)
  | .lex path format? positions =>
    runLex surroundings.files surroundings.input path (format?.getD settings.format)
      (positions || settings.positions)

def runInvocation (surroundings : Surroundings) (invocation : Invocation) : Completion :=
  match Settings.load surroundings.files surroundings.settingsPlaces invocation.config? with
  | .error error => .finished 1 "" (Failure.settings error).line
  | .ok settings =>
    let filter := LogFilter.inForce surroundings.environment.logFilter?
      (invocation.verbose || settings.verbose)
    let result := runCommand surroundings settings invocation.command
    let inColour := surroundings.terminal && !invocation.noColour
    .finished (if result.failure?.isSome then 1 else 0) result.output
      (errorText filter inColour result)

/-- **The program**, as a function of its surroundings and arguments. -/
def run (surroundings : Surroundings) (arguments : List String) : Completion :=
  match Invocation.read surroundings.environment arguments with
  | .error (.usage error) => .usage error
  | .error (.version level) => .finished 0 (level.fullName ++ " " ++ version ++ "\n") ""
  | .ok invocation => runInvocation surroundings invocation

end MiniPascal
