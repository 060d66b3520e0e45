import BehaviorMachine.Profile.Basic
import BehaviorMachine.Session
/-!
Values flow from the output ports of states to the parameters of other states. Literal parameters are
the baseline. A binding replaces one when the first connection into its input port is well formed and
its source has been written; it never removes one.
-/
namespace BehaviorMachine

namespace Profile

/-- The output port that feeds a given input port: the source of the first connection into it,
if that is an output of the same type. -/
def feed? (p : Profile) (state : StateId) (port : Port) : Option (StateId × PortId) := do
  let c ← (p.connectionsInto state port.id).head?
  let source ← p.state? c.fromStateId
  let output ← source.port? c.fromPortId
  if output.side = .output ∧ output.valueType.accepts port.valueType then
    some (source.id, output.id)
  else none

/-- The value that a binding contributes. -/
def boundValue? (p : Profile) (s : StateSpec) (values : PortValues) (b : ParamBinding) :
    Option ParamValue := do
  let port ← s.port? b.portId
  if port.side = .input then
    let (state, output) ← p.feed? s.id port
    values.value? state output
  else none

/-- The parameters of a state's behavior: of several bindings of one name the last that contributes
counts, and without one the literal. -/
def effectiveParams (p : Profile) (s : StateSpec) (values : PortValues) : BehaviorParams :=
  s.paramBindings.foldl
    (fun params b =>
      match p.boundValue? s values b with
      | some value => params.insert b.paramName value
      | none => params)
    s.behaviorParams

end Profile

namespace StateSpec

/-- Record a value on the output port with a name, if the state declares one. -/
def write? (s : StateSpec) (values : PortValues) (name : String) (value : ParamValue) :
    Option PortValues :=
  (s.outputNamed? name).map fun port => values.set s.id port.id value

/-- The value recorded on the output port with a name. -/
def read? (s : StateSpec) (values : PortValues) (name : String) : Option ParamValue :=
  (s.outputNamed? name).bind fun port => values.value? s.id port.id

end StateSpec

end BehaviorMachine
