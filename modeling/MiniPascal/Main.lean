import MiniPascal.Program.Run

/-!
# The Command Line

Collects the surroundings of a run, runs the program and writes what it gives.
-/

namespace MiniPascal

/-- The fault behind an error of the system. -/
def faultOf : IO.Error → FileFault
  | .noFileOrDirectory .. => .notFound
  | .inappropriateType _ 21 _ => .isADirectory
  | .inappropriateType .. => .notADirectory
  | error => .other (toString error)

def lookAt (path : String) : IO (Except FileFault ByteArray) := do
  try
    return .ok (← IO.FS.readBinFile path)
  catch error =>
    return .error (faultOf error)

partial def readRest (stream : IO.FS.Stream) (read : ByteArray) : IO ByteArray := do
  let chunk ← stream.read 65536
  if chunk.isEmpty then return read else readRest stream (read ++ chunk)

def readEnvironment : IO Environment := do
  return {
    verbose? := ← IO.getEnv "PASCT_VERBOSE"
    config? := ← IO.getEnv "PASCT_CONFIG"
    noColour? := ← IO.getEnv "PASCT_NO_COLOR"
    logFilter? := ← IO.getEnv "RUST_LOG" }

def findPlaces : IO (List String) := do
  let home? ← IO.getEnv "HOME"
  let system? := (← IO.getEnv "XDG_CONFIG_HOME").filter fun path => path.toList.head? = some '/'
  return Settings.places home? (system? <|> home?.map (· ++ "/.config"))

/-- The surroundings of a run with some arguments. -/
def collect (arguments : List String) : IO Surroundings := do
  let environment ← readEnvironment
  let settingsPlaces ← findPlaces
  let (paths, wantsInput) := match Invocation.read environment arguments with
    | .ok invocation => (pathsOf settingsPlaces invocation, readsInput invocation)
    | .error _ => ([], false)
  let found ← paths.mapM fun path => return (path, ← lookAt path)
  let input ← if wantsInput then readRest (← IO.getStdin) .empty else pure .empty
  return {
    environment
    input
    files := fun path => (found.lookup path).getD (.error .notFound)
    settingsPlaces
    terminal := ← (← IO.getStderr).isTty }

end MiniPascal

open MiniPascal in
def main (arguments : List String) : IO UInt32 := do
  match run (← collect arguments) arguments with
  | .usage error =>
    IO.eprintln ("error: " ++ error.message)
    return 2
  | .finished exitCode output errors =>
    IO.print output
    (← IO.getStdout).flush
    IO.eprint errors
    return exitCode.toUInt32
