import BehaviorMachine.Dataflow

/-!
# The parameters of a behavior

Each parameter has the value that the last of its bindings contributes, and without one its literal
(`effectiveParams_get?`). What a binding contributes is the value of the port that feeds it.
-/
namespace BehaviorMachine

namespace Profile

variable {p : Profile} {s : StateSpec} {values : PortValues}

/-- The output port that feeds the input of a binding. -/
def source? (p : Profile) (s : StateSpec) (b : ParamBinding) : Option (StateId × PortId) := do
  let port ← s.port? b.portId
  if port.side = .input then p.feed? s.id port else none

theorem boundValue?_source (b : ParamBinding) : p.boundValue? s values b =
    (p.source? s b).bind fun source => values.value? source.1 source.2 := by
  rw [boundValue?,source?]
  cases s.port? b.portId with
  | none => rfl
  | some port =>
    by_cases hside : port.side = .input
    · simp [hside]
    · simp [hside]

/-- The last value among those that bindings of a name contribute. -/
def lastBound? (bindings : List ParamBinding) (value? : ParamBinding → Option ParamValue)
    (name : String) : Option ParamValue :=
  (bindings.filterMap fun b => if b.paramName = name then value? b else none).getLast?

theorem lastBound?_cons (b : ParamBinding) (bindings : List ParamBinding)
    (value? : ParamBinding → Option ParamValue) (name : String) :
    lastBound? (b :: bindings) value? name = (lastBound? bindings value? name).or
      (if b.paramName = name then value? b else none) := by
  rw [lastBound?,List.filterMap_cons,lastBound?]
  split
  · next hb => rw [hb,Option.or_none]
  · next value hb => rw [hb,List.getLast?_cons,Option.or_some]

theorem effectiveParams_get? (p : Profile) (s : StateSpec) (values : PortValues) (name : String) :
    (p.effectiveParams s values).get? name =
      (lastBound? s.paramBindings (p.boundValue? s values) name).or
        (s.behaviorParams.get? name) := by
  rw [effectiveParams]
  generalize s.behaviorParams = params
  induction s.paramBindings generalizing params with
  | nil => rfl
  | cons b bindings ih =>
    rw [List.foldl_cons,ih,lastBound?_cons,Option.or_assoc]
    congr 1
    cases p.boundValue? s values b with
    | none => simp
    | some value =>
      rw [NameMap.get?_insert]
      by_cases hn : b.paramName = name
      · simp [hn]
      · simp [hn,Ne.symm hn]

end Profile

end BehaviorMachine
