import BehaviorMachine.Json.Record
/-!
Transition conditions and their comparison operators. Spellings that are not known are kept as
`unrecognized`, and each kind of condition supports some of the operators only.
-/
namespace BehaviorMachine

inductive Operator where
  | greaterOrEqual
  | less
  | lessOrEqual
  | equal
  | unrecognized
  deriving DecidableEq

namespace Operator

def spelling : Operator → String
  | .greaterOrEqual => ">="
  | .less => "<"
  | .lessOrEqual => "<="
  | .equal => "=="
  | .unrecognized => "unrecognized"

def ofSpelling : String → Operator
  | ">=" => .greaterOrEqual
  | "<" => .less
  | "<=" => .lessOrEqual
  | "==" => .equal
  | _ => .unrecognized

instance : ToString Operator := ⟨spelling⟩

def toJson (o : Operator) : Json := .string o.spelling

def ofJson? (v : Json) : Option Operator := v.unitName?.map ofSpelling

def forInventory : List Operator := [.greaterOrEqual, .less]
def forHealth : List Operator := [.greaterOrEqual, .less, .lessOrEqual]
def forItemCount : List Operator := [.greaterOrEqual, .less, .equal]
def forSkill : List Operator := [.greaterOrEqual, .less]

end Operator

inductive Condition where
  /-- The active behavior reported completion. -/
  | behaviorComplete
  | always
  /-- The state was entered at least so many milliseconds ago. -/
  | timer (durationMs : UInt64)
  /-- Occupied inventory slots in percent of the capacity. -/
  | inventoryPercentFull (operator : Operator) (value : Binary64)
  /-- Health in percent of its base level. -/
  | healthPercent (operator : Operator) (value : Binary64)
  /-- The count of items whose name contains the pattern. -/
  | itemCount (itemPattern : String) (operator : Operator) (value : Binary64)
  | skillLevel (skillName : String) (operator : Operator) (value : Binary64)
  | unrecognized
  deriving DecidableEq

namespace Condition

def kind : Condition → String
  | .behaviorComplete => "behavior_complete"
  | .always => "always"
  | .timer .. => "timer"
  | .inventoryPercentFull .. => "inventory_percent_full"
  | .healthPercent .. => "health_percent"
  | .itemCount .. => "item_count"
  | .skillLevel .. => "skill_level"
  | .unrecognized => "unrecognized"

/-- Both the kind of the condition and its operator are known and go together. -/
def isSupported : Condition → Bool
  | .behaviorComplete | .always | .timer _ => true
  | .inventoryPercentFull operator _ => operator ∈ Operator.forInventory
  | .healthPercent operator _ => operator ∈ Operator.forHealth
  | .itemCount _ operator _ => operator ∈ Operator.forItemCount
  | .skillLevel _ operator _ => operator ∈ Operator.forSkill
  | .unrecognized => false

/-- The members beside the tag. -/
def members : Condition → List (String × Json)
  | .timer durationMs => [("durationMs", Json.ofUInt64 durationMs)]
  | .inventoryPercentFull operator value | .healthPercent operator value =>
    [("operator", operator.toJson), ("value", Json.ofBinary64 value)]
  | .itemCount itemPattern operator value =>
    [("itemPattern", .string itemPattern), ("operator", operator.toJson),
      ("value", Json.ofBinary64 value)]
  | .skillLevel skillName operator value =>
    [("skillName", .string skillName), ("operator", operator.toJson),
      ("value", Json.ofBinary64 value)]
  | _ => []

def toJson (c : Condition) : Json := .object (("type", .string c.kind) :: c.members)

/-- An operator inside a condition. -/
def operator? (v : Json) : Option Operator := v.taggedUnitName?.map Operator.ofSpelling

def comparison? (v : Json) : Option (Operator × Binary64) := do
  let [operator, value] ← v.fields? ["operator", "value"] | none
  return (← Json.required operator operator?, ← Json.required value Json.asBinary64?)

def namedComparison? (name : String) (v : Json) : Option (String × Operator × Binary64) := do
  let [text, operator, value] ← v.fields? [name, "operator", "value"] | none
  return (← Json.required text Json.asString?, ← Json.required operator operator?,
    ← Json.required value Json.asBinary64?)

/-- A tag that is not known makes the condition unrecognized, whatever else it holds. -/
def ofJson? (v : Json) : Option Condition := do
  let (tag, rest) ← v.tagged? "type"
  match tag with
  | "behavior_complete" => if rest.isUnit then some .behaviorComplete else none
  | "always" => if rest.isUnit then some .always else none
  | "timer" =>
    let [duration] ← rest.fields? ["durationMs"] | none
    (Json.required duration Json.asUInt64?).map .timer
  | "inventory_percent_full" => (comparison? rest).map fun (o, x) => .inventoryPercentFull o x
  | "health_percent" => (comparison? rest).map fun (o, x) => .healthPercent o x
  | "item_count" => (namedComparison? "itemPattern" rest).map fun (n, o, x) => .itemCount n o x
  | "skill_level" => (namedComparison? "skillName" rest).map fun (n, o, x) => .skillLevel n o x
  | _ => if rest.isUnit then some .unrecognized else none

end Condition

end BehaviorMachine
