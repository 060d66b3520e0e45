import BehaviorMachine.Condition.Basic
import BehaviorMachine.Identifier
import BehaviorMachine.ParamValue
/-!
Profiles: states that run a behavior each, transitions between them, reactions to interrupts, and
connections that carry values from port to port. Identifiers may be repeated and need not resolve; a
reference means the first element of its identifier.
-/
namespace BehaviorMachine

/-- The direction of a port. -/
inductive PortSide where
  | input
  | output
  deriving DecidableEq

/-- The type of the values that a port carries. -/
inductive ValueType where
  | player
  | number
  | item
  | location
  | text
  | unrecognized
  deriving DecidableEq

/-- May values of the first type flow into a port that takes the second? -/
def ValueType.accepts (a b : ValueType) : Bool := a = b && a ≠ .unrecognized

theorem ValueType.accepts_iff {a b : ValueType} :
    a.accepts b = true ↔ a = b ∧ a ≠ .unrecognized := by
  rw [accepts, Bool.and_eq_true, decide_eq_true_iff, decide_eq_true_iff]

inductive InterruptType where
  | combat
  | lowHealth
  | playerNearby
  | chatCommand
  | death
  | inventoryFull
  | unrecognized
  deriving DecidableEq

/-- The reaction to an interrupt. -/
inductive InterruptAction where
  | transition
  | pause
  | ignore
  | unrecognized
  deriving DecidableEq

structure Port where
  id : PortId
  /-- The name under which behaviors write the port. -/
  name : String
  side : PortSide
  valueType : ValueType
  deriving DecidableEq

/-- A parameter that takes the value of an input port. -/
structure ParamBinding where
  paramName : String
  portId : PortId
  deriving DecidableEq

structure InterruptHandler where
  interruptType : InterruptType
  action : InterruptAction
  targetStateId : Option StateId
  deriving DecidableEq

structure StateSpec where
  id : StateId
  name : String
  behaviorName : BehaviorName
  behaviorParams : BehaviorParams
  interruptHandlers : List InterruptHandler
  ports : List Port
  paramBindings : List ParamBinding
  deriving DecidableEq

structure Transition where
  id : TransitionId
  fromStateId : StateId
  toStateId : StateId
  condition : Condition
  priority : Int64
  label : Option String
  deriving DecidableEq

structure DataConnection where
  id : ConnectionId
  fromStateId : StateId
  fromPortId : PortId
  toStateId : StateId
  toPortId : PortId
  deriving DecidableEq

structure Profile where
  id : ProfileId
  name : String
  description : Option String
  initialStateId : Option StateId
  states : List StateSpec
  transitions : List Transition
  dataConnections : List DataConnection
  deriving DecidableEq

namespace StateSpec

def port? (s : StateSpec) (id : PortId) : Option Port := s.ports.find? (·.id = id)

/-- The first output port with a name. -/
def outputNamed? (s : StateSpec) (name : String) : Option Port :=
  s.ports.find? fun port => port.side = .output ∧ port.name = name

def handler? (s : StateSpec) (type : InterruptType) : Option InterruptHandler :=
  s.interruptHandlers.find? (·.interruptType = type)

end StateSpec

namespace Profile

def state? (p : Profile) (id : StateId) : Option StateSpec := p.states.find? (·.id = id)

/-- The transitions out of a state, by descending priority; equal priorities keep their order. -/
def outgoing (p : Profile) (state : StateId) : List Transition :=
  (p.transitions.filter (·.fromStateId = state)).mergeSort fun a b =>
    decide (b.priority ≤ a.priority)

/-- The connections into an input port. -/
def connectionsInto (p : Profile) (state : StateId) (port : PortId) : List DataConnection :=
  p.dataConnections.filter fun c => c.toStateId = state ∧ c.toPortId = port

end Profile

end BehaviorMachine
