import BehaviorMachine.Profile.Document
import BehaviorMachine.Session
/-!
Runs of a profile: their budgets of ticks, the ways they end, and the record of state changes.
-/
namespace BehaviorMachine

/-- How long a run waits, and how often it changes state before it does. -/
structure Budgets where
  /-- Before a behavior that is not available is asked for again. -/
  retryWaitTicks : UInt32
  /-- At each iteration after the behavior has completed. -/
  idleWaitTicks : UInt32
  /-- After each step of a behavior. -/
  yieldTicks : UInt32
  maxTransitionsPerTick : UInt32
  deriving DecidableEq

def Budgets.default : Budgets := ⟨20, 5, 1, 64⟩

/-- Why a run was suspended. -/
inductive SuspendReason where
  | interrupt (type : InterruptType)
  /-- The host denied a wait. -/
  | hostDenied
  deriving DecidableEq

/-- How a run ended. -/
inductive RunStatus where
  /-- The session has no current state. -/
  | idle
  | suspended (reason : SuspendReason)
  /-- The current state does not exist. -/
  | terminated (state : StateId)
  deriving DecidableEq

inductive ChangeCause where
  | transition (id : TransitionId)
  | interrupt (type : InterruptType)
  deriving DecidableEq

structure StateChange where
  source : StateId
  target : StateId
  cause : ChangeCause
  time : Timestamp
  /-- Iterations completed in the state that was left. -/
  ticksInState : UInt64
  deriving DecidableEq

structure RunOutcome where
  status : RunStatus
  /-- What a later run needs to go on. -/
  session : SessionState
  history : List StateChange

namespace SuspendReason

def toJson : SuspendReason → Json
  | .interrupt type => .object [("interrupt", type.toJson)]
  | .hostDenied => .string "host_denied"

/-- The types of interrupts and names without payload are read by the two given functions. -/
def read? (type? : Json → Option InterruptType) (name? : Json → Option String) (v : Json) :
    Option SuspendReason :=
  match v.single?, name? v with
  | some ("interrupt", type), _ => (type? type).map .interrupt
  | _, some "host_denied" => some .hostDenied
  | _, _ => none

def ofJson? : Json → Option SuspendReason := read? InterruptType.ofJson? Json.unitName?

/-- As `ofJson?`, inside a tagged value. -/
def ofTagged? : Json → Option SuspendReason := read? InterruptType.ofTagged? Json.taggedUnitName?

end SuspendReason

namespace RunStatus

def label : RunStatus → String
  | .idle => "idle"
  | .suspended _ => "suspended"
  | .terminated _ => "terminated"

/-- The members beside the tag. -/
def members : RunStatus → List (String × Json)
  | .idle => []
  | .suspended reason => [("reason", reason.toJson)]
  | .terminated state => [("state_id", state.toJson)]

def toJson (s : RunStatus) : Json := .object (("status", .string s.label) :: s.members)

def ofJson? (v : Json) : Option RunStatus := do
  let (tag, rest) ← v.tagged? "status"
  match tag with
  | "idle" => if rest.isUnit then some .idle else none
  | "suspended" =>
    let [reason] ← rest.fields? ["reason"] | none
    (Json.required reason SuspendReason.ofTagged?).map .suspended
  | "terminated" =>
    let [state] ← rest.fields? ["state_id"] | none
    (Json.required state Identifier.ofJson?).map .terminated
  | _ => none

end RunStatus

namespace ChangeCause

def toJson : ChangeCause → Json
  | .transition id => .object [("kind", .string "transition"), ("value", id.toJson)]
  | .interrupt type => .object [("kind", .string "interrupt"), ("value", type.toJson)]

/-- A payload that stands before its kind is read like a part of a tagged value. -/
def payloadFirst : Json → Bool
  | .object members => (members.find? fun m => m.1 = "kind" ∨ m.1 = "value").any (·.1 = "value")
  | _ => false

def ofJson? (v : Json) : Option ChangeCause := do
  match ← v.kindAndPayload? with
  | ("transition", id) => (Identifier.ofJson? id).map .transition
  | ("interrupt", type) =>
    let type? := if payloadFirst v then InterruptType.ofTagged? else InterruptType.ofJson?
    (type? type).map .interrupt
  | _ => none

end ChangeCause

namespace StateChange

def toJson (c : StateChange) : Json :=
  .object [("from", c.source.toJson), ("to", c.target.toJson), ("cause", c.cause.toJson),
    ("at", c.time.toJson), ("tick", Json.ofUInt64 c.ticksInState)]

def ofJson? (v : Json) : Option StateChange := do
  let [source, target, cause, time, tick] ← v.fields? ["from", "to", "cause", "at", "tick"] | none
  return ⟨← Json.required source Identifier.ofJson?, ← Json.required target Identifier.ofJson?,
    ← Json.required cause ChangeCause.ofJson?, ← Json.required time Timestamp.ofJson?,
    ← Json.required tick Json.asUInt64?⟩

end StateChange

namespace RunOutcome

def toJson (o : RunOutcome) : Json :=
  .object [("status", o.status.toJson), ("session", o.session.toJson),
    ("history", Json.ofList StateChange.toJson o.history)]

def ofJson? (v : Json) : Option RunOutcome := do
  let [status, session, history] ← v.fields? ["status", "session", "history"] | none
  return ⟨← Json.required status RunStatus.ofJson?, ← Json.required session SessionState.ofJson?,
    ← Json.required history (Json.asList? StateChange.ofJson?)⟩

end RunOutcome

end BehaviorMachine
