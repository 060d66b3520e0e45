import BehaviorMachine.Files
import BehaviorMachine.Settings.Document
/-!
Loading settings from a file. The path is the one that was asked for, or else that of the environment,
or else the default; only the default file may be missing.
-/
namespace BehaviorMachine

namespace Settings

/-- The file that is read if no other is asked for. -/
def defaultPath : String := "behavior-profile.toml"

/-- The name of the environment variable that may hold a path. -/
def pathVariable : String := "BEHAVIOR_PROFILE_CONFIG"

/-- The greatest size of a settings file in bytes. -/
def maxFileSize : Nat := 65536

/-- The greatest length of a path in bytes. -/
def maxPathLength : Nat := 4096

/-- The greatest length of a name in a path in bytes. -/
def maxNameLength : Nat := 255

/-- The path to read, and whether it was asked for. -/
def choosePath (argument : Option FilePath) (environment : Option String) : FilePath × Bool :=
  match argument.or (environment.map .ofString) with
  | some path => (path, true)
  | none => (defaultPath, false)

/-- Check the lengths of a path and of its names, as they are printed. -/
def checkPath (path : FilePath) : Except SettingsError Unit := do
  refuseIf (maxPathLength < path.text.utf8ByteSize) .pathTooLong
  refuseIf (∃ name ∈ path.names, maxNameLength < (lossyText name).utf8ByteSize) .nameTooLong

/-- The settings in the content of a file. -/
def ofBytes (path : FilePath) (content : ByteArray) : Except SettingsError Settings := do
  refuseIf (maxFileSize < content.size) .fileTooLarge
  match String.fromUTF8? content with
  | none => .error (.invalid .notUtf8)
  | some text => return { ← ofToml text with source := some path }

/-- The settings by what reading the file gave. -/
def ofContent (path : FilePath) (askedFor : Bool) : FileContent → Except SettingsError Settings
  | .bytes content => ofBytes path content
  | .missing =>
    if askedFor then .error (.io "no such file")
    else do
      default.validate
      return default
  | .unreadable => .error (.io "not a readable file")

/-- Load the settings, given a path as an argument or in the environment. -/
def load (argument : Option FilePath) (environment : Option String) :
    FileProgram (Except SettingsError Settings) :=
  let (path, askedFor) := choosePath argument environment
  match checkPath path with
  | .error e => .done (.error e)
  | .ok () => .read path fun content => .done (ofContent path askedFor content)

end Settings

end BehaviorMachine
