import BehaviorMachine.Digest.Basic
import BehaviorMachine.Identifier
import BehaviorMachine.ParamValue
import BehaviorMachine.Timestamp
/-!
Sessions hold all that a suspended run needs to go on later. Everything but the port values and the
profile's digest describes the current state only, and starts afresh when a state is entered.
-/
namespace BehaviorMachine

/-- What a paused behavior leaves behind and is given back on resuming: any plain JSON value. -/
structure ResumeToken where
  payload : Json
  isPlain_payload : payload.isPlain = true

namespace ResumeToken

/-- The members of objects are put in order. -/
def ofJson? (v : Json) : Option ResumeToken :=
  if h : v.sorted.isPlain = true then some ⟨v.sorted, h⟩ else none

/-- The token of a behavior that counts its steps. -/
def ofStep (step : UInt32) : ResumeToken :=
  ⟨.object [("step", Json.ofUInt32 step)], rfl⟩

/-- The count of steps in a token, if it holds one. -/
def step? (t : ResumeToken) : Option UInt32 := (t.payload.member? "step").bind Json.asUInt32?

end ResumeToken

/-- The last value written on each output port, by state and port. -/
abbrev PortValues := NameMap (NameMap ParamValue)

namespace PortValues

def value? (values : PortValues) (state : StateId) (port : PortId) : Option ParamValue :=
  (values.get? state.text).bind (·.get? port.text)

def set (values : PortValues) (state : StateId) (port : PortId) (value : ParamValue) : PortValues :=
  values.insert state.text (((values.get? state.text).getD ∅).insert port.text value)

def toJson (values : PortValues) : Json := Json.ofMap (Json.ofMap ParamValue.toJson) values

def ofJson? (v : Json) : Option PortValues := v.asMap? (Json.asMap? ParamValue.ofJson?)

end PortValues

structure SessionState where
  /-- The active state; none while the run is idle. -/
  currentStateId : Option StateId
  enteredAt : Timestamp
  /-- Iterations completed since the active state was entered. -/
  ticksInState : UInt64
  subBehaviorComplete : Bool
  resumeToken : Option ResumeToken
  portValues : PortValues
  /-- The digest of the profile that the session was started with. -/
  profileHash : Option HashDigest

namespace SessionState

/-- A fresh session in a state. -/
def start (initial : Option StateId) (now : Timestamp) : SessionState :=
  ⟨initial, now, 0, false, none, ∅, none⟩

/-- Enter a state; port values are kept. -/
def enter (s : SessionState) (state : StateId) (now : Timestamp) : SessionState :=
  { s with
    currentStateId := some state
    enteredAt := now
    ticksInState := 0
    subBehaviorComplete := false
    resumeToken := none }

def toJson (s : SessionState) : Json :=
  .object <|
    [("currentStateId", Json.ofOption Identifier.toJson s.currentStateId),
      ("enteredAt", s.enteredAt.toJson),
      ("ticksInState", Json.ofUInt64 s.ticksInState),
      ("subBehaviorComplete", .bool s.subBehaviorComplete)] ++
    Json.present "resumeToken" ResumeToken.payload s.resumeToken ++
    [("portValues", s.portValues.toJson)] ++
    Json.present "profileHash" HashDigest.toJson s.profileHash

def ofJson? (v : Json) : Option SessionState := do
  let [current, entered, ticks, complete, token, ports, hash] ← v.fields? ["currentStateId",
    "enteredAt", "ticksInState", "subBehaviorComplete", "resumeToken", "portValues", "profileHash"]
    | none
  let current ← Json.optional current Identifier.ofJson?
  let entered ← Json.required entered Timestamp.ofJson?
  let ticks ← Json.defaulted 0 ticks Json.asUInt64?
  let complete ← Json.defaulted false complete Json.asBool?
  let token ← Json.optional token ResumeToken.ofJson?
  let ports ← Json.defaulted ∅ ports PortValues.ofJson?
  let hash ← Json.optional hash HashDigest.ofJson?
  return ⟨current, entered, ticks, complete, token, ports, hash⟩

end SessionState

end BehaviorMachine
