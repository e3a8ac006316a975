import MiniPascal.Files.Basic
import MiniPascal.Settings.Basic

/-!
# Loading Settings

Settings are read from a file that the user names, or else from the first of
several places that holds anything.  A place that holds something unusable is an
error and is not passed over.
-/

namespace MiniPascal

/-! ## §1 Errors -/

inductive SettingsError where
  /-- Nothing is at the path that the user named. -/
  | missing (path : String)
  | unreadable (fault : FileFault)
  | malformed (fault : Toml.Fault)
  /-- A value in the document has the wrong form. -/
  | unfit

def SettingsError.message : SettingsError → String
  | missing path => "Configuration error: Configuration file not found: " ++ path
  | unreadable fault => "IO error: " ++ fault.message
  | malformed fault => "Configuration error: Failed to parse configuration: " ++ fault.message
  | unfit => "Configuration error: Failed to parse configuration: value of the wrong form"

namespace Settings

/-! ## §2 Reading a file -/

def ofText (text : String) : Except SettingsError Settings :=
  match Toml.parse text.toList with
  | .error fault => .error (.malformed fault)
  | .ok entries =>
    match ofEntries? entries with
    | some settings => .ok settings
    | none => .error .unfit

/-- **The settings in the file at a path.** -/
def readFrom (files : Files) (path : String) : Except SettingsError Settings :=
  if files.hold path then
    match files.readText path with
    | .error fault => .error (.unreadable fault)
    | .ok text => ofText text
  else .error (.missing path)

/-! ## §3 The places of the file -/

def fileName : String := "pasct.toml"

/-- The places where settings are looked for, in order: the working directory, the
usual directory under the user's home, and the directory that the system keeps for
settings. -/
def places (home? system? : Option String) : List String :=
  fileName :: (home?.map fun home => home ++ "/.config/pasct/" ++ fileName).toList
    ++ (system?.map fun system => system ++ "/pasct/" ++ fileName).toList

/-- **The settings in force**: from the path that the user names, or from the first
place that holds anything, or else the default. -/
def load (files : Files) (places : List String) (path? : Option String) :
    Except SettingsError Settings :=
  match path? with
  | some path => readFrom files path
  | none =>
    match places.find? files.hold with
    | some place => readFrom files place
    | none => .ok default

end Settings

end MiniPascal
