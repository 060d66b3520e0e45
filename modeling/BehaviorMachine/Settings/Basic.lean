import BehaviorMachine.Files
import BehaviorMachine.Run.Basic
import BehaviorMachine.Text.Blank
/-!
Settings of the program, and the bounds that they have to keep.
-/
namespace BehaviorMachine

structure Settings where
  budgets : Budgets
  /-- Refuse malformed profiles before they are run. -/
  strictValidation : Bool
  /-- The greatest size of a profile document. -/
  maxProfileBytes : UInt64
  /-- Which events are logged. -/
  filter : String
  /-- The file that the settings were read from. -/
  source : Option FilePath
  deriving DecidableEq

def Settings.default : Settings := ⟨.default, false, 1048576, "info", none⟩

/-- A setting that counts ticks or state changes. -/
inductive BudgetName where
  | retryWait
  | idleWait
  | yield
  | maxTransitions
  deriving DecidableEq

def BudgetName.text : BudgetName → String
  | .retryWait => "interpreter.retry_wait_ticks"
  | .idleWait => "interpreter.idle_wait_ticks"
  | .yield => "interpreter.yield_ticks"
  | .maxTransitions => "interpreter.max_transitions_per_tick"

/-- The greatest value of a budget. -/
def maxBudget : UInt32 := 100000

/-- The greatest limit that can be set for profile documents. -/
def maxProfileLimit : UInt64 := 16777216

/-- The greatest length of a filter in bytes, without blanks around it. -/
def maxFilterLength : Nat := 1024

/-- What is wrong with settings, or with the file that should hold them. -/
inductive SettingsFault where
  | budgetZero (name : BudgetName)
  | budgetTooLarge (name : BudgetName)
  | idleNotBelowRetry
  | profileLimitZero
  | profileLimitTooLarge
  | filterBlank
  | filterTooLong
  | pathTooLong
  | nameTooLong
  | fileTooLarge
  | notUtf8
  deriving DecidableEq

inductive SettingsError where
  | io (reason : String)
  | parse (reason : String)
  | invalid (fault : SettingsFault)
  deriving DecidableEq

def SettingsFault.message : SettingsFault → String
  | .budgetZero name => s!"{name.text} must be >= 1"
  | .budgetTooLarge name => s!"{name.text} must be <= {maxBudget}"
  | .idleNotBelowRetry => "interpreter.idle_wait_ticks must be < interpreter.retry_wait_ticks"
  | .profileLimitZero => "profile.max_profile_bytes must be > 0"
  | .profileLimitTooLarge => s!"profile.max_profile_bytes must be <= {maxProfileLimit}"
  | .filterBlank => "logging.filter must be non-empty"
  | .filterTooLong => "logging.filter exceeds max length"
  | .pathTooLong => "config path exceeds max length"
  | .nameTooLong => "config path component too long"
  | .fileTooLarge => "config file exceeds size limit"
  | .notUtf8 => "config file must be utf-8"

def SettingsError.message : SettingsError → String
  | .io reason => s!"config io error: {reason}"
  | .parse reason => s!"config parse error: {reason}"
  | .invalid fault => s!"invalid config: {fault.message}"

/-- Refuse settings with a fault. -/
def refuseIf (bad : Prop) [Decidable bad] (fault : SettingsFault) : Except SettingsError Unit :=
  if bad then .error (.invalid fault) else .ok ()

def checkBudget (name : BudgetName) (value : UInt32) : Except SettingsError Unit := do
  refuseIf (value = 0) (.budgetZero name)
  refuseIf (maxBudget < value) (.budgetTooLarge name)

def Budgets.validate (b : Budgets) : Except SettingsError Unit := do
  checkBudget .retryWait b.retryWaitTicks
  checkBudget .idleWait b.idleWaitTicks
  checkBudget .yield b.yieldTicks
  checkBudget .maxTransitions b.maxTransitionsPerTick
  refuseIf (b.retryWaitTicks ≤ b.idleWaitTicks) .idleNotBelowRetry

/-- Check settings, and report the first fault. -/
def Settings.validate (s : Settings) : Except SettingsError Unit := do
  s.budgets.validate
  refuseIf (s.maxProfileBytes = 0) .profileLimitZero
  refuseIf (maxProfileLimit < s.maxProfileBytes) .profileLimitTooLarge
  let filter := trimBlanks s.filter.toList
  refuseIf (filter = []) .filterBlank
  refuseIf (maxFilterLength < utf8Length filter) .filterTooLong

end BehaviorMachine
