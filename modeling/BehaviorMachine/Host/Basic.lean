import BehaviorMachine.Dataflow
import BehaviorMachine.Profile.Document
import BehaviorMachine.World
/-!
Hosts supply what a run does not have itself: behaviors by name, ticks to wait, interrupts, a view of
the world, and the time. A host is given by its operations on a state of its own.
-/
namespace BehaviorMachine

/-- An event that a host reports between two iterations of a run. -/
structure Interrupt where
  type : InterruptType
  deriving DecidableEq

namespace Interrupt

def toJson (i : Interrupt) : Json := .object [("type", i.type.toJson)]

def ofJson? (v : Json) : Option Interrupt := do
  let [type] ← v.fields? ["type"] | none
  (Json.required type InterruptType.ofJson?).map .mk

end Interrupt

inductive BehaviorError where
  | invalidParams (reason : String)
  | failed (reason : String)
  deriving DecidableEq

def BehaviorError.message : BehaviorError → String
  | .invalidParams reason => s!"invalid behavior parameters: {reason}"
  | .failed reason => s!"behavior failed: {reason}"

/-- How a step of a behavior ended. -/
inductive StepResult where
  | running
  | completed
  | failed (error : BehaviorError)
  deriving DecidableEq

/-- What a behavior sees at a step. -/
structure StepContext where
  state : StateId
  params : BehaviorParams
  /-- Iterations completed since the state was entered. -/
  ticksInState : UInt64

/-- A computation that writes and reads the output ports of the active state by name. A write tells
whether the state declares such a port. -/
inductive PortProgram (α : Type) where
  | done (result : α)
  | write (name : String) (value : ParamValue) (next : Bool → PortProgram α)
  | read (name : String) (next : Option ParamValue → PortProgram α)

namespace PortProgram

variable {α γ : Type}

def map (f : α → γ) : PortProgram α → PortProgram γ
  | .done result => .done (f result)
  | .write name value next => .write name value fun written => (next written).map f
  | .read name next => .read name fun value => (next value).map f

/-- Write values one after another, whether or not their ports exist. -/
def writing (result : α) : List (String × ParamValue) → PortProgram α
  | [] => .done result
  | (name, value) :: rest => .write name value fun _ => writing result rest

/-- Carry out a program in a state. A write without a port changes nothing. -/
def run (s : StateSpec) : PortProgram α → PortValues → α × PortValues
  | .done result, values => (result, values)
  | .write name value next, values =>
    match s.write? values name value with
    | some written => (next true).run s written
    | none => (next false).run s values
  | .read name next, values => (next (s.read? values name)).run s values

end PortProgram

/-- The operations of a host with states `σ` and live behaviors `β`. -/
structure Host (σ β : Type) where
  /-- A behavior by its name, resumed from a token if there is one; none if it is not available. -/
  resolve : BehaviorName → BehaviorParams → Option ResumeToken → σ → Option β × σ
  /-- Wait for some ticks; false when the run has to stop. -/
  wait : UInt32 → σ → Bool × σ
  /-- The next pending interrupt. -/
  poll : σ → Option Interrupt × σ
  world : σ → Option WorldSnapshot
  now : σ → Timestamp
  /-- Advance a behavior by one step. -/
  step : StepContext → β → σ → PortProgram (StepResult × β × σ)
  /-- Give up a behavior that is to be resumed later. -/
  pause : β → σ → Option ResumeToken × σ
  /-- Give up a behavior whose state is left. -/
  cancel : β → σ → σ

end BehaviorMachine
