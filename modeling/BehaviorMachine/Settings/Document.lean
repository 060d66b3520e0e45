import BehaviorMachine.Settings.Basic
import BehaviorMachine.Toml.Reader
/-!
The document form of settings: three sections, each a table of known keys, or an array of the
section's values in order. What is missing has its default.
-/
namespace BehaviorMachine

namespace Settings

/-- Do all keys of a table belong to some names? -/
def knownKeys (names : List String) (entries : Toml.Entries) : Bool :=
  entries.all fun e => names.contains e.1

/-- The values of a section in the order of their names. An array may be shorter or longer. -/
def fields? (names : List String) : Option Toml → Option (List (Option Toml))
  | none => some (names.map fun _ => none)
  | some (.table _ entries) =>
    if knownKeys names entries then some (names.map (Toml.find? · entries)) else none
  | some (.array items) => some ((List.range names.length).map (items[·]?))
  | some _ => none

/-- A value with a default. -/
def defaulted {α : Type} (default : α) (read : Toml → Option α) : Option Toml → Option α
  | none => some default
  | some v => read v

def asNat? : Toml → Option Nat
  | .integer base numeral => (Toml.integerOf? base numeral).bind Int.toNat?
  | _ => none

def asUInt32? (v : Toml) : Option UInt32 := do
  let n ← asNat? v
  if n < UInt32.size then some (.ofNat n) else none

def asUInt64? (v : Toml) : Option UInt64 := do
  let n ← asNat? v
  if n < UInt64.size then some (.ofNat n) else none

def asBool? : Toml → Option Bool
  | .boolean b => some b
  | _ => none

def asString? : Toml → Option String
  | .string s => some s
  | _ => none

def budgets? (v : Option Toml) : Option Budgets := do
  let [retry, idle, yield, transitions] ← fields? ["retry_wait_ticks", "idle_wait_ticks",
    "yield_ticks", "max_transitions_per_tick"] v | none
  return ⟨← defaulted Budgets.default.retryWaitTicks asUInt32? retry,
    ← defaulted Budgets.default.idleWaitTicks asUInt32? idle,
    ← defaulted Budgets.default.yieldTicks asUInt32? yield,
    ← defaulted Budgets.default.maxTransitionsPerTick asUInt32? transitions⟩

/-- The settings of a document, not yet checked. -/
def ofEntries? (entries : Toml.Entries) : Option Settings := do
  let [interpreter, profile, logging] ←
    fields? ["interpreter", "profile", "logging"] (some (.table .header entries)) | none
  let budgets ← budgets? interpreter
  let [strict, limit] ← fields? ["strict_validation", "max_profile_bytes"] profile | none
  let [filter] ← fields? ["filter"] logging | none
  return ⟨budgets, ← defaulted default.strictValidation asBool? strict,
    ← defaulted default.maxProfileBytes asUInt64? limit,
    ← defaulted default.filter asString? filter, none⟩

/-- The settings of a document, checked. -/
def ofToml (text : String) : Except SettingsError Settings := do
  match (Toml.read? text).bind ofEntries? with
  | none => .error (.parse "not a settings document")
  | some s =>
    s.validate
    return s

end Settings

end BehaviorMachine
