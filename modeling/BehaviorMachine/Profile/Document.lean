import BehaviorMachine.Digest.Basic
import BehaviorMachine.Profile.Basic
/-!
The document form of profiles. Spellings that are not known are read as `unrecognized`, except for
the side of a port.
-/
namespace BehaviorMachine

namespace PortSide

def spelling : PortSide → String
  | .input => "input"
  | .output => "output"

def ofSpelling? : String → Option PortSide
  | "input" => some .input
  | "output" => some .output
  | _ => none

def toJson (s : PortSide) : Json := .string s.spelling

def ofJson? (v : Json) : Option PortSide := v.unitName?.bind ofSpelling?

end PortSide

namespace ValueType

def spelling : ValueType → String
  | .player => "player"
  | .number => "number"
  | .item => "item"
  | .location => "location"
  | .text => "text"
  | .unrecognized => "unrecognized"

def ofSpelling : String → ValueType
  | "player" => .player
  | "number" => .number
  | "item" => .item
  | "location" => .location
  | "text" => .text
  | _ => .unrecognized

def toJson (t : ValueType) : Json := .string t.spelling

def ofJson? (v : Json) : Option ValueType := v.unitName?.map ofSpelling

end ValueType

namespace InterruptType

def spelling : InterruptType → String
  | .combat => "combat"
  | .lowHealth => "low_health"
  | .playerNearby => "player_nearby"
  | .chatCommand => "chat_command"
  | .death => "death"
  | .inventoryFull => "inventory_full"
  | .unrecognized => "unrecognized"

def ofSpelling : String → InterruptType
  | "combat" => .combat
  | "low_health" => .lowHealth
  | "player_nearby" => .playerNearby
  | "chat_command" => .chatCommand
  | "death" => .death
  | "inventory_full" => .inventoryFull
  | _ => .unrecognized

instance : ToString InterruptType := ⟨spelling⟩

def toJson (t : InterruptType) : Json := .string t.spelling

def ofJson? (v : Json) : Option InterruptType := v.unitName?.map ofSpelling

/-- As `ofJson?`, inside a tagged value. -/
def ofTagged? (v : Json) : Option InterruptType := v.taggedUnitName?.map ofSpelling

end InterruptType

namespace InterruptAction

def spelling : InterruptAction → String
  | .transition => "transition"
  | .pause => "pause"
  | .ignore => "ignore"
  | .unrecognized => "unrecognized"

def ofSpelling : String → InterruptAction
  | "transition" => .transition
  | "pause" => .pause
  | "ignore" => .ignore
  | _ => .unrecognized

def toJson (a : InterruptAction) : Json := .string a.spelling

def ofJson? (v : Json) : Option InterruptAction := v.unitName?.map ofSpelling

end InterruptAction

namespace Port

def toJson (p : Port) : Json :=
  .object [("id", p.id.toJson), ("name", .string p.name), ("side", p.side.toJson),
    ("valueType", p.valueType.toJson)]

def ofJson? (v : Json) : Option Port := do
  let [id, name, side, valueType] ← v.fields? ["id", "name", "side", "valueType"] | none
  let id ← Json.required id Identifier.ofJson?
  let name ← Json.required name Json.asString?
  let side ← Json.required side PortSide.ofJson?
  let valueType ← Json.required valueType ValueType.ofJson?
  return ⟨id, name, side, valueType⟩

end Port

namespace ParamBinding

def toJson (b : ParamBinding) : Json :=
  .object [("paramName", .string b.paramName), ("portId", b.portId.toJson)]

def ofJson? (v : Json) : Option ParamBinding := do
  let [paramName, portId] ← v.fields? ["paramName", "portId"] | none
  let paramName ← Json.required paramName Json.asString?
  let portId ← Json.required portId Identifier.ofJson?
  return ⟨paramName, portId⟩

end ParamBinding

namespace InterruptHandler

def toJson (h : InterruptHandler) : Json :=
  .object <|
    [("interruptType", h.interruptType.toJson), ("action", h.action.toJson)] ++
    Json.present "targetStateId" Identifier.toJson h.targetStateId

def ofJson? (v : Json) : Option InterruptHandler := do
  let [type, action, target] ← v.fields? ["interruptType", "action", "targetStateId"] | none
  let type ← Json.required type InterruptType.ofJson?
  let action ← Json.required action InterruptAction.ofJson?
  let target ← Json.optional target Identifier.ofJson?
  return ⟨type, action, target⟩

end InterruptHandler

namespace StateSpec

/-- Empty lists of ports and bindings are left out. -/
def toJson (s : StateSpec) : Json :=
  .object <|
    [("id", s.id.toJson), ("name", .string s.name), ("behaviorName", s.behaviorName.toJson),
      ("behaviorParams", s.behaviorParams.toJson),
      ("interruptHandlers", Json.ofList InterruptHandler.toJson s.interruptHandlers)] ++
    Json.nonempty "ports" Port.toJson s.ports ++
    Json.nonempty "paramBindings" ParamBinding.toJson s.paramBindings

def ofJson? (v : Json) : Option StateSpec := do
  let [id, name, behavior, params, handlers, ports, bindings] ← v.fields? ["id", "name",
    "behaviorName", "behaviorParams", "interruptHandlers", "ports", "paramBindings"] | none
  let id ← Json.required id Identifier.ofJson?
  let name ← Json.required name Json.asString?
  let behavior ← Json.required behavior Identifier.ofJson?
  let params ← Json.defaulted ∅ params BehaviorParams.ofJson?
  let handlers ← Json.defaulted [] handlers (Json.asList? InterruptHandler.ofJson?)
  let ports ← Json.defaulted [] ports (Json.asList? Port.ofJson?)
  let bindings ← Json.defaulted [] bindings (Json.asList? ParamBinding.ofJson?)
  return ⟨id, name, behavior, params, handlers, ports, bindings⟩

end StateSpec

namespace Transition

def toJson (t : Transition) : Json :=
  .object <|
    [("id", t.id.toJson), ("fromStateId", t.fromStateId.toJson), ("toStateId", t.toStateId.toJson),
      ("condition", t.condition.toJson), ("priority", Json.ofInt64 t.priority)] ++
    Json.present "label" Json.string t.label

def ofJson? (v : Json) : Option Transition := do
  let [id, source, target, condition, priority, label] ← v.fields? ["id", "fromStateId",
    "toStateId", "condition", "priority", "label"] | none
  let id ← Json.required id Identifier.ofJson?
  let source ← Json.required source Identifier.ofJson?
  let target ← Json.required target Identifier.ofJson?
  let condition ← Json.required condition Condition.ofJson?
  let priority ← Json.defaulted 0 priority Json.asInt64?
  let label ← Json.optional label Json.asString?
  return ⟨id, source, target, condition, priority, label⟩

end Transition

namespace DataConnection

def toJson (c : DataConnection) : Json :=
  .object [("id", c.id.toJson), ("fromStateId", c.fromStateId.toJson),
    ("fromPortId", c.fromPortId.toJson), ("toStateId", c.toStateId.toJson),
    ("toPortId", c.toPortId.toJson)]

def ofJson? (v : Json) : Option DataConnection := do
  let [id, fromState, fromPort, toState, toPort] ← v.fields? ["id", "fromStateId", "fromPortId",
    "toStateId", "toPortId"] | none
  let id ← Json.required id Identifier.ofJson?
  let fromState ← Json.required fromState Identifier.ofJson?
  let fromPort ← Json.required fromPort Identifier.ofJson?
  let toState ← Json.required toState Identifier.ofJson?
  let toPort ← Json.required toPort Identifier.ofJson?
  return ⟨id, fromState, fromPort, toState, toPort⟩

end DataConnection

namespace Profile

def toJson (p : Profile) : Json :=
  .object <|
    [("id", p.id.toJson), ("name", .string p.name)] ++
    Json.present "description" Json.string p.description ++
    Json.present "initialStateId" Identifier.toJson p.initialStateId ++
    [("states", Json.ofList StateSpec.toJson p.states),
      ("transitions", Json.ofList Transition.toJson p.transitions),
      ("dataConnections", Json.ofList DataConnection.toJson p.dataConnections)]

def ofJson? (v : Json) : Option Profile := do
  let [id, name, description, initial, states, transitions, connections] ← v.fields? ["id",
    "name", "description", "initialStateId", "states", "transitions", "dataConnections"] | none
  let id ← Json.required id Identifier.ofJson?
  let name ← Json.required name Json.asString?
  let description ← Json.optional description Json.asString?
  let initial ← Json.optional initial Identifier.ofJson?
  let states ← Json.required states (Json.asList? StateSpec.ofJson?)
  let transitions ← Json.defaulted [] transitions (Json.asList? Transition.ofJson?)
  let connections ← Json.defaulted [] connections (Json.asList? DataConnection.ofJson?)
  return ⟨id, name, description, initial, states, transitions, connections⟩

/-- The text of a profile that is hashed. -/
def canonicalText (p : Profile) : String := HashDigest.canonicalText p.toJson

/-- The digest that ties a session to the revision of its profile. -/
def hash (p : Profile) : HashDigest := HashDigest.ofDocument p.toJson

end Profile

end BehaviorMachine
