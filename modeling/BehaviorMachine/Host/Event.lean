import BehaviorMachine.Profile.Basic
/-!
The events that a scripted host records about its behaviors.
-/
namespace BehaviorMachine

inductive HostEvent where
  /-- A behavior was resolved, after so many steps if it was resumed. -/
  | resolved (behavior : BehaviorName) (resumedFrom : Option UInt32)
  /-- A behavior took its step of a number, with these parameters. -/
  | stepped (state : StateId) (behavior : BehaviorName) (step : UInt32) (params : BehaviorParams)
  /-- A behavior was paused after so many steps. -/
  | paused (behavior : BehaviorName) (step : UInt32)
  /-- A behavior was cancelled after so many steps. -/
  | cancelled (behavior : BehaviorName) (step : UInt32)
  deriving DecidableEq

namespace HostEvent

def toJson : HostEvent → Json
  | .resolved behavior resumedFrom =>
    .object [("event", .string "resolved"), ("behavior", behavior.toJson),
      ("resumed_from", Json.ofOption Json.ofUInt32 resumedFrom)]
  | .stepped state behavior step params =>
    .object [("event", .string "stepped"), ("state_id", state.toJson),
      ("behavior", behavior.toJson), ("step", Json.ofUInt32 step), ("params", params.toJson)]
  | .paused behavior step =>
    .object [("event", .string "paused"), ("behavior", behavior.toJson),
      ("step", Json.ofUInt32 step)]
  | .cancelled behavior step =>
    .object [("event", .string "cancelled"), ("behavior", behavior.toJson),
      ("step", Json.ofUInt32 step)]

def counted? (v : Json) : Option (BehaviorName × UInt32) := do
  let [behavior, step] ← v.fields? ["behavior", "step"] | none
  return (← Json.required behavior Identifier.ofJson?, ← Json.required step Json.asUInt32?)

def ofJson? (v : Json) : Option HostEvent := do
  let (tag, rest) ← v.tagged? "event"
  match tag with
  | "resolved" =>
    let names := ["behavior", "resumed_from"]
    let [behavior, resumedFrom] ← rest.fields? names | none
    if rest.isComplete names then
      return .resolved (← Json.required behavior Identifier.ofJson?)
        (← Json.optional resumedFrom Json.asUInt32?)
    else none
  | "stepped" =>
    let [state, behavior, step, params] ←
      rest.fields? ["state_id", "behavior", "step", "params"] | none
    return .stepped (← Json.required state Identifier.ofJson?)
      (← Json.required behavior Identifier.ofJson?) (← Json.required step Json.asUInt32?)
      (← Json.required params BehaviorParams.ofJson?)
  | "paused" => (counted? rest).map fun (behavior, step) => .paused behavior step
  | "cancelled" => (counted? rest).map fun (behavior, step) => .cancelled behavior step
  | _ => none

end HostEvent

end BehaviorMachine
