import MiniPascal.Arguments.Options

/-!
# Reading Command Lines

Arguments are read from left to right, and reading stops at the first fault or at a
request for the version, whatever comes after it.

A long option may have its value behind an equals sign, a letter may have it right
behind itself, and both may have it in the next argument.  Letters without values
may share one argument.  Behind a double dash there are no options.

In front of the command, a value in an argument of its own is looked at when the next
option is read.  The command is no option: with nothing between, the arguments of the
command are read first, and a fault in them or a request for its version comes before
a fault in that value.
-/

namespace MiniPascal

/-! ## §1 The shape of an argument -/

inductive ArgumentShape where
  /-- The mark behind which there are no options. -/
  | doubleDash
  /-- An option by its name, with what stands behind an equals sign. -/
  | long (name : String) (value? : Option String)
  /-- Options by their letters, perhaps with a value. -/
  | letters (text : List Char)
  | word

/-- The shape of an argument.  A single dash by itself is no option. -/
def shapeOf (argument : String) : ArgumentShape :=
  match argument.toList with
  | ['-', '-'] => .doubleDash
  | '-' :: '-' :: text =>
    let name := String.ofList (text.takeWhile (· ≠ '='))
    match text.dropWhile (· ≠ '=') with
    | [] => .long name none
    | _ :: value => .long name (some (String.ofList value))
  | '-' :: letter :: letters => .letters (letter :: letters)
  | _ => .word

/-- Whether an argument can be the value of the option before it. -/
def canBeValue (argument : String) : Bool :=
  match shapeOf argument with
  | .word => true
  | _ => false

/-! ## §2 Options -/

/-- Reads the options of one long name.  The result tells which option still needs
its value. -/
def readLong (level : CommandLevel) (given : Given) (name : String) (value? : Option String) :
    Except Halt (Given × Option ValueOption) :=
  match level.long? name, value? with
  | none, _ => .error (.usage (.unknownOption name))
  | some (.flag flag), none => return (← given.raise flag, none)
  | some (.flag _), some value => .error (.usage (.unwantedValue value))
  | some (.value option), none => .ok (given, some option)
  | some (.value option), some value => return (← given.assign option value, none)
  | some .version, none => .error (.version level)
  | some .version, some value => .error (.usage (.unwantedValue value))

/-- Reads the letters of one argument.  The result tells which option still needs
its value. -/
def readLetters (level : CommandLevel) (given : Given) :
    List Char → Except Halt (Given × Option ValueOption)
  | [] => .ok (given, none)
  | letter :: letters =>
    match level.short? letter with
    | none => .error (.usage (.unknownOption (String.singleton letter)))
    | some .version => .error (.version level)
    | some (.flag flag) => do readLetters level (← given.raise flag) letters
    | some (.value option) =>
      match letters with
      | [] => .ok (given, some option)
      | '=' :: value => return (← given.assign option (String.ofList value), none)
      | value => return (← given.assign option (String.ofList value), none)

/-! ## §3 The arguments of a command -/

/-- Reads the arguments of a command.  An option that still needs its value takes
the next argument. -/
def readCommand (level : CommandLevel) :
    Given → Option ValueOption → List String → Except Halt Given
  | given, none, [] => .ok given
  | _, some option, [] => .error (.usage (.missingValue option))
  | given, some option, argument :: arguments =>
    if canBeValue argument then do
      readCommand level (← given.assign option argument) none arguments
    else .error (.usage (.missingValue option))
  | given, none, argument :: arguments =>
    match shapeOf argument with
    | .doubleDash => arguments.foldlM (fun given argument => given.place level argument) given
    | .long name value? => do
      let (given, waiting) ← readLong level given name value?
      readCommand level given waiting arguments
    | .letters letters => do
      let (given, waiting) ← readLetters level given letters
      readCommand level given waiting arguments
    | .word => do readCommand level (← given.place level argument) none arguments

/-! ## §4 The command line -/

/-- What a command line gives: options before the command, the command, and the
arguments behind it. -/
structure CommandLine where
  outer : Given
  command : CommandLevel
  inner : Given

/-- What the last option in front of the command is waiting for. -/
inductive Waiting where
  /-- It waits for nothing, or there is none. -/
  | nothing
  | needs (option : ValueOption)
  /-- It has a value that has not been looked at. -/
  | holds (option : ValueOption) (value : String)
  deriving DecidableEq

namespace Waiting

/-- The state behind an argument that leaves an option without its value. -/
def ofNeed : Option ValueOption → Waiting
  | none => .nothing
  | some option => .needs option

/-- Looks at the value that an option holds, and gives it to the option. -/
def settle (waiting : Waiting) (given : Given) : Except Halt Given :=
  match waiting with
  | .holds option value => given.assign option value
  | _ => .ok given

end Waiting

/-- Reads options up to the command and then the command with its arguments. -/
def readOuter (given : Given) (waiting : Waiting) (arguments : List String) :
    Except Halt CommandLine :=
  match arguments, waiting with
  | [], .needs option => .error (.usage (.missingValue option))
  | [], _ => .error (.usage .missingCommand)
  | argument :: arguments, .needs option =>
    if canBeValue argument then readOuter given (.holds option argument) arguments
    else .error (.usage (.missingValue option))
  | argument :: arguments, waiting =>
    match shapeOf argument with
    | .doubleDash => .error (.usage .missingCommand)
    | .long name value? => do
      let given ← waiting.settle given
      let (given, need?) ← readLong .program given name value?
      readOuter given (.ofNeed need?) arguments
    | .letters letters => do
      let given ← waiting.settle given
      let (given, need?) ← readLetters .program given letters
      readOuter given (.ofNeed need?) arguments
    | .word =>
      match CommandLevel.ofCommand? argument with
      | none => .error (.usage (.unknownCommand argument))
      | some command => do
        let inner ← readCommand command .nothing none arguments
        let outer ← waiting.settle given
        return ⟨outer, command, inner⟩

end MiniPascal
