import BehaviorMachine.Profile.Document
/-!
Checking a profile for authoring errors. Running a profile tolerates dangling references; the check
does not, and reports the first violation that it meets.
-/
namespace BehaviorMachine

/-- What is wrong with an interrupt handler. -/
inductive HandlerFault where
  | unrecognizedType
  | duplicate
  | missingTarget
  | unknownTarget (target : StateId)
  | unrecognizedAction
  deriving DecidableEq

/-- What is wrong with a parameter binding. -/
inductive BindingFault where
  | undeclaredPort (port : PortId)
  | notInput (port : PortId)
  deriving DecidableEq

/-- What is wrong with a data connection. -/
inductive ConnectionFault where
  | unknownSource (port : PortId)
  | unknownDestination (port : PortId)
  | sourceNotOutput (port : PortId)
  | destinationNotInput (port : PortId)
  | typesDiffer
  | inputTaken (port : PortId)
  deriving DecidableEq

inductive ProfileError where
  | missingStates
  | missingInitialState
  | unknownInitialState (state : StateId)
  | duplicateStateId (state : StateId)
  | duplicateTransitionId (transition : TransitionId)
  | duplicateConnectionId (connection : ConnectionId)
  | duplicatePortId (port : PortId)
  | unknownTransitionEndpoint (transition : TransitionId) (state : StateId)
  | unsupportedCondition (transition : TransitionId) (kind : String)
  | invalidInterruptHandler (state : StateId) (interrupt : InterruptType) (fault : HandlerFault)
  | invalidBinding (state : StateId) (param : String) (fault : BindingFault)
  | invalidConnection (connection : ConnectionId) (fault : ConnectionFault)
  deriving DecidableEq

namespace HandlerFault

def message : HandlerFault → String
  | .unrecognizedType => "unrecognized interrupt type"
  | .duplicate => "duplicate handler"
  | .missingTarget => "transition action requires targetStateId"
  | .unknownTarget target => s!"unknown target state {target}"
  | .unrecognizedAction => "unrecognized action"

end HandlerFault

namespace BindingFault

def message : BindingFault → String
  | .undeclaredPort port => s!"port {port} is not declared on the state"
  | .notInput port => s!"port {port} is not an input port"

end BindingFault

namespace ConnectionFault

def message : ConnectionFault → String
  | .unknownSource port => s!"unknown source port {port}"
  | .unknownDestination port => s!"unknown destination port {port}"
  | .sourceNotOutput port => s!"source port {port} is not an output"
  | .destinationNotInput port => s!"destination port {port} is not an input"
  | .typesDiffer => "port value types differ"
  | .inputTaken port => s!"input port {port} already has a connection"

end ConnectionFault

namespace ProfileError

def message : ProfileError → String
  | .missingStates => "profile must define at least one state"
  | .missingInitialState => "profile must declare an initial state"
  | .unknownInitialState state => s!"initial state refers to unknown state: {state}"
  | .duplicateStateId state => s!"duplicate state identifier: {state}"
  | .duplicateTransitionId transition => s!"duplicate transition identifier: {transition}"
  | .duplicateConnectionId connection => s!"duplicate connection identifier: {connection}"
  | .duplicatePortId port => s!"duplicate port identifier: {port}"
  | .unknownTransitionEndpoint transition state =>
    s!"transition {transition} refers to unknown state: {state}"
  | .unsupportedCondition transition kind =>
    s!"transition {transition} has unsupported condition: {kind}"
  | .invalidInterruptHandler state interrupt fault =>
    s!"state {state} has invalid interrupt handler for {interrupt}: {fault.message}"
  | .invalidBinding state param fault =>
    s!"state {state} has invalid binding for parameter {param}: {fault.message}"
  | .invalidConnection connection fault =>
    s!"connection {connection} is invalid: {fault.message}"

end ProfileError

/-- The first element whose key an earlier one has, given the keys before. -/
def firstRepeated? {α κ : Type} [DecidableEq κ] (key : α → κ) (seen : List κ) : List α → Option α
  | [] => none
  | a :: rest => if key a ∈ seen then some a else firstRepeated? key (key a :: seen) rest

/-- The keys of a list are distinct; if not, the error is about the first repetition. -/
def checkDistinct {α κ : Type} [DecidableEq κ] (key : α → κ) (error : κ → ProfileError)
    (items : List α) : Except ProfileError Unit :=
  match firstRepeated? key [] items with
  | some a => .error (error (key a))
  | none => .ok ()

namespace Profile

/-- The fault of a handler, given the types handled before it. -/
def handlerFault? (p : Profile) (handled : List InterruptType) (h : InterruptHandler) :
    Option HandlerFault :=
  if h.interruptType = .unrecognized then some .unrecognizedType
  else if h.interruptType ∈ handled then some .duplicate
  else
    match h.action, h.targetStateId with
    | .transition, none => some .missingTarget
    | .transition, some target =>
      if (p.state? target).isNone then some (.unknownTarget target) else none
    | .pause, _ => none
    | .ignore, _ => none
    | .unrecognized, _ => some .unrecognizedAction

def checkHandlers (p : Profile) (s : StateSpec) (handled : List InterruptType) :
    List InterruptHandler → Except ProfileError Unit
  | [] => .ok ()
  | h :: rest =>
    match p.handlerFault? handled h with
    | some fault => .error (.invalidInterruptHandler s.id h.interruptType fault)
    | none => p.checkHandlers s (h.interruptType :: handled) rest

def checkBinding (s : StateSpec) (b : ParamBinding) : Except ProfileError Unit :=
  match s.port? b.portId with
  | none => .error (.invalidBinding s.id b.paramName (.undeclaredPort b.portId))
  | some port =>
    if port.side = .input then .ok ()
    else .error (.invalidBinding s.id b.paramName (.notInput port.id))

def checkState (p : Profile) (s : StateSpec) : Except ProfileError Unit := do
  checkDistinct Port.id .duplicatePortId s.ports
  p.checkHandlers s [] s.interruptHandlers
  s.paramBindings.forM (checkBinding s)

def checkTransition (p : Profile) (t : Transition) : Except ProfileError Unit :=
  if (p.state? t.fromStateId).isNone then .error (.unknownTransitionEndpoint t.id t.fromStateId)
  else if (p.state? t.toStateId).isNone then .error (.unknownTransitionEndpoint t.id t.toStateId)
  else if t.condition.isSupported then .ok ()
  else .error (.unsupportedCondition t.id t.condition.kind)

/-- Find a port by its identifier and that of its state. -/
def port? (p : Profile) (state : StateId) (port : PortId) : Option Port :=
  (p.state? state).bind (·.port? port)

/-- The fault of a connection, given the inputs fed before it. -/
def connectionFault? (p : Profile) (fed : List (StateId × PortId)) (c : DataConnection) :
    Option ConnectionFault :=
  match p.port? c.fromStateId c.fromPortId, p.port? c.toStateId c.toPortId with
  | none, _ => some (.unknownSource c.fromPortId)
  | some _, none => some (.unknownDestination c.toPortId)
  | some source, some destination =>
    if source.side ≠ .output then some (.sourceNotOutput source.id)
    else if destination.side ≠ .input then some (.destinationNotInput destination.id)
    else if !source.valueType.accepts destination.valueType then some .typesDiffer
    else if (c.toStateId, c.toPortId) ∈ fed then some (.inputTaken c.toPortId)
    else none

def checkConnections (p : Profile) (fed : List (StateId × PortId)) :
    List DataConnection → Except ProfileError Unit
  | [] => .ok ()
  | c :: rest =>
    match p.connectionFault? fed c with
    | some fault => .error (.invalidConnection c.id fault)
    | none => p.checkConnections ((c.toStateId, c.toPortId) :: fed) rest

def checkInitial (p : Profile) : Except ProfileError Unit :=
  match p.initialStateId with
  | none => .error .missingInitialState
  | some initial =>
    if (p.state? initial).isNone then .error (.unknownInitialState initial) else .ok ()

/-- Check a profile, and report the first violation. -/
def validate (p : Profile) : Except ProfileError Unit := do
  if p.states.isEmpty then throw .missingStates
  checkDistinct StateSpec.id .duplicateStateId p.states
  checkDistinct Transition.id .duplicateTransitionId p.transitions
  checkDistinct DataConnection.id .duplicateConnectionId p.dataConnections
  p.checkInitial
  p.states.forM p.checkState
  p.transitions.forM p.checkTransition
  p.checkConnections [] p.dataConnections

end Profile

end BehaviorMachine
