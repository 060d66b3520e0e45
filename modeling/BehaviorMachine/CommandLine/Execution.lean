import BehaviorMachine.CommandLine.Help
import BehaviorMachine.Json.Reader
import BehaviorMachine.Profile.Validity
import BehaviorMachine.Run.Simulation
import BehaviorMachine.Settings.Load
/-!
Carrying out commands: which files they read and write, what they print, and how they fail.
-/
namespace BehaviorMachine

/-- The kinds of documents that commands read. -/
inductive DocumentKind where
  | profile
  | script
  | session
  deriving DecidableEq

def DocumentKind.label : DocumentKind → String
  | .profile => "profile"
  | .script => "script"
  | .session => "session"

/-- The greatest size of a script in bytes. -/
def maxScriptBytes : Nat := 4194304

/-- The greatest size of a session in bytes. -/
def maxSessionBytes : Nat := 1048576

inductive CommandError where
  | settings (error : SettingsError)
  | missing (kind : DocumentKind) (path : String)
  | unreadable (kind : DocumentKind) (path : String)
  | tooLarge (kind : DocumentKind) (path : String) (size limit : Nat)
  | malformed (kind : DocumentKind) (path : String)
  | invalid (profile : ProfileId) (error : ProfileError)
  | unwritable (path : String)
  | endless (profile : ProfileId)
  deriving DecidableEq

def CommandError.message : CommandError → String
  | .settings error => error.message
  | .missing kind path =>
    s!"failed to read {kind.label} {path}: No such file or directory (os error 2)"
  | .unreadable kind path => s!"failed to read {kind.label} {path}: not a readable file"
  | .tooLarge kind path size limit =>
    s!"failed to read {kind.label} {path}: file is {size} bytes, limit is {limit}"
  | .malformed kind path => s!"failed to parse {kind.label} {path}: not a {kind.label} document"
  | .invalid profile error => s!"profile {profile} is invalid: {error.message}"
  | .unwritable path => s!"failed to write {path}: the file cannot be written"
  | .endless profile => s!"the run of profile {profile} does not end"

/-- What a command leaves: its exit code and what it printed. -/
structure Printed where
  exitCode : UInt32
  output : String
  errors : String
  deriving DecidableEq

/-- Work with files that may fail. -/
abbrev Work (α : Type) := ExceptT CommandError FileProgram α

/-- The document in the content of a file. -/
def documentOf {α : Type} (kind : DocumentKind) (limit : Nat) (read : Json → Option α)
    (path : String) : FileContent → Except CommandError α
  | .missing => .error (.missing kind path)
  | .unreadable => .error (.unreadable kind path)
  | .bytes content =>
    if limit < content.size then .error (.tooLarge kind path content.size limit)
    else
      match (Json.readBytes? content).bind read with
      | some a => .ok a
      | none => .error (.malformed kind path)

def readDocument {α : Type} (kind : DocumentKind) (limit : Nat) (read : Json → Option α)
    (path : String) : Work α :=
  ExceptT.mk (.read path fun content => .done (documentOf kind limit read path content))

def readProfile (settings : Settings) (path : String) : Work Profile :=
  readDocument .profile settings.maxProfileBytes.toNat Profile.ofJson? path

/-- A document as it is printed, and as it is written to files. -/
def printedDocument (document : Json) : String := .ofList (document.indented 0 ++ ['\n'])

def writeDocument (path : String) (document : Json) : Work Unit :=
  ExceptT.mk (.write path (printedDocument document).toUTF8 fun written =>
    .done (if written then .ok () else .error (.unwritable path)))

/-- The settings of a run of the program. -/
def loadSettings (argument environment : Option String) : Work Settings :=
  ExceptT.mk do return (← Settings.load (argument.map .ofString) environment).mapError .settings

/-- Refuse a malformed profile. -/
def checkProfile (p : Profile) : Except CommandError Unit :=
  p.validate.mapError (CommandError.invalid p.id)

def simulate (settings : Settings) (profilePath scriptPath : String)
    (sessionPath : Option String) : Work SimulationReport := do
  let p ← readProfile settings profilePath
  if settings.strictValidation then checkProfile p
  let script ← readDocument .script maxScriptBytes HostScript.ofJson? scriptPath
  let session ←
    match sessionPath with
    | none => pure none
    | some path => some <$> readDocument .session maxSessionBytes SessionState.ofJson? path
  match (Machine.mk p settings.budgets).simulate script session with
  | some report => return report
  | none => throw (.endless p.id)

/-- What is printed about a profile without faults. -/
def validText (p : Profile) : String :=
  let states := p.states.length
  let transitions := p.transitions.length
  let connections := p.dataConnections.length
  s!"profile {p.id} is valid: {states} states, {transitions} transitions, " ++
    s!"{connections} data connections\n"

namespace Command

/-- Carry out a command, and give what it prints. -/
def perform (settings : Settings) : Command → Work String
  | .validate path => do
    let p ← readProfile settings path
    checkProfile p
    return validText p
  | .hash path => do
    let p ← readProfile settings path
    return printedDocument p.hash.toJson
  | .simulate profile script session sessionOut => do
    let report ← BehaviorMachine.simulate settings profile script session
    match sessionOut with
    | some path => writeDocument path report.outcome.session.toJson
    | none => pure ()
    return printedDocument report.toJson

end Command

namespace Invocation

/-- Carry out what the arguments ask for; an error is printed on a line. -/
def perform (environment : Option String) : Invocation → FileProgram Printed
  | .help topic => .done ⟨0, topic.text, ""⟩
  | .version => .done ⟨0, versionText, ""⟩
  | .misuse => .done ⟨2, "", misuseText⟩
  | .command config demanded => do
    match ← (do demanded.perform (← loadSettings config environment) : Work String).run with
    | .ok output => return ⟨0, output, ""⟩
    | .error e => return ⟨1, "", e.message ++ "\n"⟩

end Invocation

end BehaviorMachine
