import MiniPascal.Arguments.Read

/-!
# Invocations

An invocation is what the program is asked to do.  It comes from the command line
and from variables of the environment, which stand in for options that are not on
the command line.

The shared options may be given before the command and behind it, once in each
place.  A variable is looked at for each place where its option is not given, so a
bad one is an error unless the option is given in both.
-/

namespace MiniPascal

/-! ## §1 The environment -/

structure Environment where
  /-- Stands in for the flag that logs more. -/
  verbose? : Option String
  /-- Stands in for the path of the settings. -/
  config? : Option String
  /-- Stands in for the flag that turns colour off. -/
  noColour? : Option String
  logFilter? : Option String

/-- The truth value of a variable, which is false if the variable is not set. -/
def readFlagVariable (name : String) : Option String → Except Halt Bool
  | none => .ok false
  | some "true" => .ok true
  | some "false" => .ok false
  | some _ => .error (.usage (.badVariable name))

def readPathVariable (name : String) : Option String → Except Halt (Option String)
  | none => .ok none
  | some "" => .error (.usage (.badVariable name))
  | some path => .ok (some path)

/-! ## §2 Invocations -/

inductive Command where
  | demo (positions : Bool)
  | lex (file : String) (format? : Option DumpFormat) (positions : Bool)
  deriving DecidableEq

structure Invocation where
  verbose : Bool
  noColour : Bool
  /-- The path of the settings, if one is given. -/
  config? : Option String
  command : Command
  deriving DecidableEq

namespace Invocation

/-- A flag from the two places of the command line and from its variable. -/
def mergeFlag (name : String) (ambient? : Option String) (outer inner : Bool) :
    Except Halt Bool :=
  if outer && inner then .ok true
  else do
    let fromVariable ← readFlagVariable name ambient?
    return outer || inner || fromVariable

/-- The path of the settings from the two places of the command line, the inner one
first, or else from its variable. -/
def mergePath (name : String) (ambient? outer? inner? : Option String) :
    Except Halt (Option String) :=
  if outer?.isSome && inner?.isSome then .ok inner?
  else do
    let fromVariable ← readPathVariable name ambient?
    return inner? <|> outer? <|> fromVariable

def commandOf (line : CommandLine) : Except Halt Command :=
  match line.command with
  | .program => .error (.usage .missingCommand)
  | .demo => .ok (.demo line.inner.positions)
  | .lex =>
    match line.inner.file? with
    | none => .error (.usage .missingFile)
    | some file => .ok (.lex file line.inner.format? line.inner.positions)

/-- **The invocation** by some arguments in an environment. -/
def read (environment : Environment) (arguments : List String) : Except Halt Invocation := do
  let line ← readOuter .nothing .nothing arguments
  let command ← commandOf line
  let verbose ← mergeFlag "PASCT_VERBOSE" environment.verbose? line.outer.verbose
    line.inner.verbose
  let noColour ← mergeFlag "PASCT_NO_COLOR" environment.noColour? line.outer.noColour
    line.inner.noColour
  let config? ← mergePath "PASCT_CONFIG" environment.config? line.outer.config?
    line.inner.config?
  return ⟨verbose, noColour, config?, command⟩

end Invocation

end MiniPascal
