import BehaviorMachine.Proofs.Checks

/-!
# Well-formed profiles

What a profile has to satisfy, clause by clause, and that the check accepts exactly the profiles
which do (`validate_eq_ok`).
-/
namespace BehaviorMachine

/-- The handler is for a known type of interrupt and has a known action; one that enters a state
names a state that resolves. -/
structure InterruptHandler.WellFormed (p : Profile) (h : InterruptHandler) : Prop where
  type : h.interruptType ≠ .unrecognized
  action : h.action ≠ .unrecognized
  target : h.action = .transition → ∃ target, h.targetStateId = some target ∧
    (p.state? target).isSome

structure StateSpec.WellFormed (p : Profile) (s : StateSpec) : Prop where
  ports_nodup : (s.ports.map Port.id).Nodup
  handlers_nodup : (s.interruptHandlers.map InterruptHandler.interruptType).Nodup
  handlers : ∀ h ∈ s.interruptHandlers, h.WellFormed p
  bindings : ∀ b ∈ s.paramBindings, ∃ port, s.port? b.portId = some port ∧ port.side = .input

structure Transition.WellFormed (p : Profile) (t : Transition) : Prop where
  source : (p.state? t.fromStateId).isSome
  target : (p.state? t.toStateId).isSome
  condition : t.condition.isSupported = true

/-- The connection joins an output to an input of the same known type. -/
def DataConnection.WellFormed (p : Profile) (c : DataConnection) : Prop :=
  ∃ source destination, p.port? c.fromStateId c.fromPortId = some source ∧
    p.port? c.toStateId c.toPortId = some destination ∧ source.side = .output ∧
    destination.side = .input ∧ source.valueType.accepts destination.valueType = true

def DataConnection.input (c : DataConnection) : StateId × PortId := (c.toStateId,c.toPortId)

namespace Profile

structure WellFormed (p : Profile) : Prop where
  states_ne_nil : p.states ≠ []
  states_nodup : (p.states.map StateSpec.id).Nodup
  transitions_nodup : (p.transitions.map Transition.id).Nodup
  connections_nodup : (p.dataConnections.map DataConnection.id).Nodup
  initial : ∃ initial, p.initialStateId = some initial ∧ (p.state? initial).isSome
  states : ∀ s ∈ p.states, s.WellFormed p
  transitions : ∀ t ∈ p.transitions, t.WellFormed p
  connections : ∀ c ∈ p.dataConnections, c.WellFormed p
  inputs_nodup : (p.dataConnections.map DataConnection.input).Nodup

variable {p : Profile}

theorem handlerFault?_eq_none {handled : List InterruptType} {h : InterruptHandler} :
    p.handlerFault? handled h = none ↔ h.WellFormed p ∧ h.interruptType ∉ handled := by
  have hiff : h.WellFormed p ↔ h.interruptType ≠ .unrecognized ∧ h.action ≠ .unrecognized ∧
      (h.action = .transition → ∃ target, h.targetStateId = some target ∧
        (p.state? target).isSome) :=
    ⟨fun hw => ⟨hw.type,hw.action,hw.target⟩,fun ⟨ht,ha,hs⟩ => ⟨ht,ha,hs⟩⟩
  rw [handlerFault?,hiff]
  split
  · next hu => simp [hu]
  · next hu =>
    split
    · next hm => simp [hm]
    · next hn =>
      cases h.action with
      | transition =>
        cases h.targetStateId with
        | none => simp
        | some target => simp [hu,hn,Option.isSome_iff_ne_none]
      | pause => simp [hu,hn]
      | ignore => simp [hu,hn]
      | unrecognized => simp

theorem checkHandlers_eq_ok {s : StateSpec} {handled : List InterruptType}
    {handlers : List InterruptHandler} : p.checkHandlers s handled handlers = .ok () ↔
      (∀ h ∈ handlers, h.WellFormed p) ∧ Fresh InterruptHandler.interruptType handled handlers := by
  induction handlers generalizing handled with
  | nil => simp [checkHandlers,fresh_nil]
  | cons h rest ih =>
    rw [checkHandlers,fresh_cons,List.forall_mem_cons]
    cases hf : p.handlerFault? handled h with
    | some fault =>
      have hn : ¬ (h.WellFormed p ∧ h.interruptType ∉ handled) := by
        rw [← handlerFault?_eq_none,hf]
        simp
      simp only [reduceCtorEq,false_iff]
      exact fun ⟨⟨hw,_⟩,hn',_⟩ => hn ⟨hw,hn'⟩
    | none =>
      obtain ⟨hw,hn⟩ := handlerFault?_eq_none.mp hf
      simp [ih,hw,hn]

theorem checkBinding_eq_ok {s : StateSpec} {b : ParamBinding} : checkBinding s b = .ok () ↔
    ∃ port, s.port? b.portId = some port ∧ port.side = .input := by
  rw [checkBinding]
  cases s.port? b.portId with
  | none => simp
  | some port => by_cases hs : port.side = .input <;> simp [hs]

theorem checkState_eq_ok {s : StateSpec} : p.checkState s = .ok () ↔ s.WellFormed p := by
  simp only [checkState,check_bind_eq_ok,checkDistinct_eq_ok,checkHandlers_eq_ok,fresh_iff_nodup,
    forM_eq_ok,checkBinding_eq_ok]
  exact ⟨fun ⟨hp,⟨hh,hn⟩,hb⟩ => ⟨hp,hn,hh,hb⟩,
    fun h => ⟨h.ports_nodup,⟨h.handlers,h.handlers_nodup⟩,h.bindings⟩⟩

theorem checkTransition_eq_ok {t : Transition} : p.checkTransition t = .ok () ↔ t.WellFormed p := by
  have hiff : t.WellFormed p ↔ (p.state? t.fromStateId).isSome ∧ (p.state? t.toStateId).isSome ∧
      t.condition.isSupported = true :=
    ⟨fun h => ⟨h.source,h.target,h.condition⟩,fun ⟨hs,ht,hc⟩ => ⟨hs,ht,hc⟩⟩
  rw [checkTransition,hiff]
  cases p.state? t.fromStateId with
  | none => simp
  | some source =>
    cases p.state? t.toStateId with
    | none => simp
    | some target => cases t.condition.isSupported <;> simp

theorem connectionFault?_eq_none {fed : List (StateId × PortId)} {c : DataConnection} :
    p.connectionFault? fed c = none ↔ c.WellFormed p ∧ c.input ∉ fed := by
  rw [connectionFault?,DataConnection.WellFormed,DataConnection.input]
  cases p.port? c.fromStateId c.fromPortId with
  | none => simp
  | some source =>
    cases p.port? c.toStateId c.toPortId with
    | none => simp
    | some destination =>
      by_cases ho : source.side = .output
      · by_cases hi : destination.side = .input
        · cases ha : source.valueType.accepts destination.valueType with
          | false => simp [ho,hi,ha]
          | true => by_cases hf : (c.toStateId,c.toPortId) ∈ fed <;> simp [ho,hi,ha,hf]
        · simp [ho,hi]
      · simp [ho]

theorem checkConnections_eq_ok {fed : List (StateId × PortId)} {connections : List DataConnection} :
    p.checkConnections fed connections = .ok () ↔
      (∀ c ∈ connections, c.WellFormed p) ∧ Fresh DataConnection.input fed connections := by
  induction connections generalizing fed with
  | nil => simp [checkConnections,fresh_nil]
  | cons c rest ih =>
    rw [checkConnections,fresh_cons,List.forall_mem_cons]
    cases hf : p.connectionFault? fed c with
    | some fault =>
      have hn : ¬ (c.WellFormed p ∧ c.input ∉ fed) := by
        rw [← connectionFault?_eq_none,hf]
        simp
      simp only [reduceCtorEq,false_iff]
      exact fun ⟨⟨hw,_⟩,hn',_⟩ => hn ⟨hw,hn'⟩
    | none =>
      obtain ⟨hw,hn⟩ := connectionFault?_eq_none.mp hf
      have hinput : (c.toStateId,c.toPortId) = c.input := rfl
      simp [hinput,ih,hw,hn]

theorem checkInitial_eq_ok : p.checkInitial = .ok () ↔
    ∃ initial, p.initialStateId = some initial ∧ (p.state? initial).isSome := by
  rw [checkInitial]
  cases p.initialStateId with
  | none => simp
  | some initial => cases hs : p.state? initial <;> simp [hs]

/-- The check accepts exactly the well-formed profiles. -/
theorem validate_eq_ok : p.validate = .ok () ↔ p.WellFormed := by
  rw [validate]
  split
  · next he =>
    have hn : ¬ p.WellFormed := fun h => h.states_ne_nil (List.isEmpty_iff.mp he)
    simp [hn,throw,throwThe,MonadExceptOf.throw,bind,Except.bind]
  · next he =>
    have hne : p.states ≠ [] := fun hs => he (List.isEmpty_iff.mpr hs)
    simp only [check_bind_eq_ok,checkDistinct_eq_ok,checkInitial_eq_ok,forM_eq_ok,
      checkState_eq_ok,checkTransition_eq_ok,checkConnections_eq_ok,fresh_iff_nodup]
    constructor
    · rintro ⟨hs,ht,hc,hi,hws,hwt,hwc,hin⟩
      exact ⟨hne,hs,ht,hc,hi,hws,hwt,hwc,hin⟩
    · intro h
      exact ⟨h.states_nodup,h.transitions_nodup,h.connections_nodup,h.initial,h.states,
        h.transitions,h.connections,h.inputs_nodup⟩

end Profile

end BehaviorMachine
