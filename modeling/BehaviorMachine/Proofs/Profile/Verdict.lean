import BehaviorMachine.Proofs.Dataflow.Delivery
import Mathlib.Data.List.Duplicate

/-!
# The verdict of the check

What a profile has to satisfy is stated by what it declares, without look-ups, and so is what each
error says about it. The check accepts exactly the sound profiles, and an error that it reports is
about elements of the profile that violate the clause of that error (`validate_decides`).
-/
namespace BehaviorMachine

variable {α ε κ φ : Type}

theorem check_bind_eq_error {x : Except ε Unit} {f : Unit → Except ε Unit} {e : ε} :
    (x >>= f) = .error e ↔ x = .error e ∨ x = .ok () ∧ f () = .error e := by
  cases x with
  | error d => simp [bind,Except.bind]
  | ok u => simp [bind,Except.bind]

theorem forM_eq_error {check : α → Except ε Unit} {items : List α} {e : ε}
    (h : items.forM check = .error e) : ∃ a ∈ items, check a = .error e := by
  induction items with
  | nil => cases h
  | cons a rest ih =>
    have hcons : (a :: rest).forM check = (check a >>= fun _ => rest.forM check) := rfl
    rw [hcons,check_bind_eq_error] at h
    rcases h with h | ⟨-,h⟩
    · exact ⟨a,List.mem_cons_self,h⟩
    · obtain ⟨b,hb,hf⟩ := ih h
      exact ⟨b,List.mem_cons_of_mem a hb,hf⟩

/-- A check that goes through a list, and for each element takes account of the keys before. -/
structure Scans (key : α → κ) (fault? : List κ → α → Option φ) (error : α → φ → ε)
    (check : List κ → List α → Except ε Unit) : Prop where
  nil : ∀ seen, check seen [] = .ok ()
  cons : ∀ seen a rest, check seen (a :: rest) =
    match fault? seen a with
    | some fault => .error (error a fault)
    | none => check (key a :: seen) rest

theorem Scans.exists_fault {key : α → κ} {fault? : List κ → α → Option φ} {error : α → φ → ε}
    {check : List κ → List α → Except ε Unit} (hc : Scans key fault? error check) {seen : List κ}
    {items : List α} {e : ε} (h : check seen items = .error e) :
    ∃ a ∈ items, ∃ before fault, fault? before a = some fault ∧ e = error a fault ∧
      (key a ∈ before → key a ∈ seen ∨ List.Duplicate (key a) (items.map key)) := by
  induction items generalizing seen with
  | nil =>
    rw [hc.nil] at h
    cases h
  | cons b rest ih =>
    rw [hc.cons] at h
    cases hf : fault? seen b with
    | some fault =>
      rw [hf] at h
      cases h
      exact ⟨b,List.mem_cons_self,seen,fault,hf,rfl,.inl⟩
    | none =>
      rw [hf] at h
      obtain ⟨a,ha,before,fault,hfault,he,hkey⟩ := ih h
      refine ⟨a,List.mem_cons_of_mem b ha,before,fault,hfault,he,?_⟩
      intro hm
      rcases hkey hm with hs | hd
      · rcases List.mem_cons.mp hs with hab | hs
        · right
          rw [hab,List.map_cons]
          apply List.Mem.duplicate_cons_self
          rw [← hab]
          exact List.mem_map_of_mem ha
        · exact .inl hs
      · exact .inr (hd.duplicate_cons (key b))

theorem scans_firstRepeated? [DecidableEq κ] (key : α → κ) (error : κ → ProfileError) :
    Scans key (fun seen a => if key a ∈ seen then some () else none) (fun a _ => error (key a))
      fun seen items =>
        match firstRepeated? key seen items with
        | some a => .error (error (key a))
        | none => .ok () where
  nil seen := rfl
  cons seen a rest := by
    rw [firstRepeated?]
    by_cases hm : key a ∈ seen
    · simp [hm]
    · simp [hm]

theorem checkDistinct_eq_error [DecidableEq κ] {key : α → κ} {error : κ → ProfileError}
    {items : List α} {e : ProfileError} (h : checkDistinct key error items = .error e) :
    ∃ k, List.Duplicate k (items.map key) ∧ e = error k := by
  obtain ⟨a,-,before,fault,hf,he,hkey⟩ := (scans_firstRepeated? key error).exists_fault h
  have hm : key a ∈ before := (Option.ite_none_right_eq_some.mp hf).1
  rcases hkey hm with hs | hd
  · cases hs
  · exact ⟨key a,hd,he⟩

namespace Profile

def Declares (p : Profile) (id : StateId) : Prop := ∃ s ∈ p.states, s.id = id

def Owns (p : Profile) (state : StateId) (id : PortId) (port : Port) : Prop :=
  ∃ s ∈ p.states, s.id = state ∧ port ∈ s.ports ∧ port.id = id

end Profile

/-- The handler is for a known type of interrupt and has a known action; one that enters a state
names a state that is declared. -/
structure InterruptHandler.Sound (p : Profile) (h : InterruptHandler) : Prop where
  type : h.interruptType ≠ .unrecognized
  action : h.action ≠ .unrecognized
  target : h.action = .transition → ∃ target, h.targetStateId = some target ∧ p.Declares target

structure StateSpec.Sound (p : Profile) (s : StateSpec) : Prop where
  ports_nodup : (s.ports.map Port.id).Nodup
  handlers_nodup : (s.interruptHandlers.map InterruptHandler.interruptType).Nodup
  handlers : ∀ h ∈ s.interruptHandlers, h.Sound p
  bindings : ∀ b ∈ s.paramBindings, ∃ port ∈ s.ports, port.id = b.portId ∧ port.side = .input

structure Transition.Sound (p : Profile) (t : Transition) : Prop where
  source : p.Declares t.fromStateId
  target : p.Declares t.toStateId
  condition : t.condition.isSupported = true

/-- Values may flow from the output to the input. -/
structure Port.Fits (output input : Port) : Prop where
  source : output.side = .output
  target : input.side = .input
  type : output.valueType = input.valueType
  known : output.valueType ≠ .unrecognized

/-- The connection joins an output to an input of the same known type. -/
def DataConnection.Sound (p : Profile) (c : DataConnection) : Prop :=
  ∃ output input, p.Owns c.fromStateId c.fromPortId output ∧ p.Owns c.toStateId c.toPortId input ∧
    output.Fits input

structure Profile.Sound (p : Profile) : Prop where
  states_ne_nil : p.states ≠ []
  states_nodup : (p.states.map StateSpec.id).Nodup
  transitions_nodup : (p.transitions.map Transition.id).Nodup
  connections_nodup : (p.dataConnections.map DataConnection.id).Nodup
  initial : ∃ initial, p.initialStateId = some initial ∧ p.Declares initial
  states : ∀ s ∈ p.states, s.Sound p
  transitions : ∀ t ∈ p.transitions, t.Sound p
  connections : ∀ c ∈ p.dataConnections, c.Sound p
  inputs_nodup : (p.dataConnections.map DataConnection.input).Nodup

/-- What a fault says about a handler of a state. -/
def HandlerFault.Holds (p : Profile) (s : StateSpec) (h : InterruptHandler) : HandlerFault → Prop
  | .unrecognizedType => h.interruptType = .unrecognized
  | .duplicate =>
    List.Duplicate h.interruptType (s.interruptHandlers.map InterruptHandler.interruptType)
  | .missingTarget => h.action = .transition ∧ h.targetStateId = none
  | .unknownTarget target =>
    h.action = .transition ∧ h.targetStateId = some target ∧ ¬ p.Declares target
  | .unrecognizedAction => h.action = .unrecognized

def BindingFault.Holds (s : StateSpec) (b : ParamBinding) : BindingFault → Prop
  | .undeclaredPort port => port = b.portId ∧ ∀ o ∈ s.ports, o.id ≠ port
  | .notInput port => port = b.portId ∧ ∃ o ∈ s.ports, o.id = port ∧ o.side ≠ .input

def ConnectionFault.Holds (p : Profile) (c : DataConnection) : ConnectionFault → Prop
  | .unknownSource port => port = c.fromPortId ∧ ∀ o, ¬ p.Owns c.fromStateId port o
  | .unknownDestination port => port = c.toPortId ∧ ∀ i, ¬ p.Owns c.toStateId port i
  | .sourceNotOutput port =>
    port = c.fromPortId ∧ ∃ o, p.Owns c.fromStateId port o ∧ o.side ≠ .output
  | .destinationNotInput port =>
    port = c.toPortId ∧ ∃ i, p.Owns c.toStateId port i ∧ i.side ≠ .input
  | .typesDiffer => ∃ o i, p.Owns c.fromStateId c.fromPortId o ∧ p.Owns c.toStateId c.toPortId i ∧
      ¬ (o.valueType = i.valueType ∧ o.valueType ≠ .unrecognized)
  | .inputTaken port =>
    port = c.toPortId ∧ List.Duplicate c.input (p.dataConnections.map DataConnection.input)

/-- What an error says about a profile: which of its elements violate the clause of the error. -/
inductive Profile.Violates (p : Profile) : ProfileError → Prop where
  | missingStates (h : p.states = []) : Violates p .missingStates
  | missingInitialState (h : p.initialStateId = none) : Violates p .missingInitialState
  | unknownInitialState {state : StateId} (h : p.initialStateId = some state)
      (hn : ¬ p.Declares state) : Violates p (.unknownInitialState state)
  | duplicateStateId {state : StateId} (h : List.Duplicate state (p.states.map StateSpec.id)) :
      Violates p (.duplicateStateId state)
  | duplicateTransitionId {transition : TransitionId}
      (h : List.Duplicate transition (p.transitions.map Transition.id)) :
      Violates p (.duplicateTransitionId transition)
  | duplicateConnectionId {connection : ConnectionId}
      (h : List.Duplicate connection (p.dataConnections.map DataConnection.id)) :
      Violates p (.duplicateConnectionId connection)
  | duplicatePortId {s : StateSpec} {port : PortId} (hs : s ∈ p.states)
      (h : List.Duplicate port (s.ports.map Port.id)) : Violates p (.duplicatePortId port)
  | unknownTransitionEndpoint {t : Transition} {state : StateId} (ht : t ∈ p.transitions)
      (he : state = t.fromStateId ∨ state = t.toStateId) (hn : ¬ p.Declares state) :
      Violates p (.unknownTransitionEndpoint t.id state)
  | unsupportedCondition {t : Transition} (ht : t ∈ p.transitions)
      (hc : t.condition.isSupported = false) :
      Violates p (.unsupportedCondition t.id t.condition.kind)
  | invalidInterruptHandler {s : StateSpec} {h : InterruptHandler} {fault : HandlerFault}
      (hs : s ∈ p.states) (hh : h ∈ s.interruptHandlers) (hf : fault.Holds p s h) :
      Violates p (.invalidInterruptHandler s.id h.interruptType fault)
  | invalidBinding {s : StateSpec} {b : ParamBinding} {fault : BindingFault} (hs : s ∈ p.states)
      (hb : b ∈ s.paramBindings) (hf : fault.Holds s b) :
      Violates p (.invalidBinding s.id b.paramName fault)
  | invalidConnection {c : DataConnection} {fault : ConnectionFault} (hc : c ∈ p.dataConnections)
      (hf : fault.Holds p c) : Violates p (.invalidConnection c.id fault)

namespace Profile

variable {p : Profile} {s : StateSpec} {c : DataConnection} {e : ProfileError}

theorem isSome_state?_iff {id : StateId} : (p.state? id).isSome ↔ p.Declares id := by
  simp [state?,Declares]

theorem isNone_state?_iff {id : StateId} : (p.state? id).isNone ↔ ¬ p.Declares id := by
  rw [← isSome_state?_iff,Option.isNone_iff_eq_none,Option.not_isSome_iff_eq_none]

theorem port?_eq_none_iff {id : PortId} : s.port? id = none ↔ ∀ o ∈ s.ports, o.id ≠ id := by
  simp [StateSpec.port?]

theorem port?_mem {id : PortId} {port : Port} (h : s.port? id = some port) :
    port ∈ s.ports ∧ port.id = id :=
  ⟨List.mem_of_find?_eq_some h,StateSpec.port?_id h⟩

theorem Owns.of_port? {state : StateId} {id : PortId} {port : Port}
    (h : p.port? state id = some port) : p.Owns state id port := by
  obtain ⟨s,hs,hp⟩ := Option.bind_eq_some_iff.mp h
  exact ⟨s,List.mem_of_find?_eq_some hs,Machine.state?_id hs,port?_mem hp⟩

theorem Owns.port_id {state : StateId} {id : PortId} {port : Port} (h : p.Owns state id port) :
    port.id = id := by
  obtain ⟨s,-,-,-,hid⟩ := h
  exact hid

section

variable (hd : (p.states.map StateSpec.id).Nodup)
include hd

theorem state?_of_mem (hs : s ∈ p.states) : p.state? s.id = some s :=
  find?_key hd hs fun _ => decide_eq_true_iff

theorem not_owns_of_port? {state : StateId} {id : PortId} (h : p.port? state id = none)
    (port : Port) : ¬ p.Owns state id port := by
  rintro ⟨s,hs,rfl,hp,hid⟩
  rw [port?,state?_of_mem hd hs,Option.bind_some,port?_eq_none_iff] at h
  exact h port hp hid

variable (hp : ∀ s ∈ p.states, (s.ports.map Port.id).Nodup)
include hp

theorem Owns.port? {state : StateId} {id : PortId} {port : Port} (h : p.Owns state id port) :
    p.port? state id = some port := by
  obtain ⟨s,hs,rfl,hport,rfl⟩ := h
  rw [Profile.port?,state?_of_mem hd hs,Option.bind_some]
  exact find?_key (hp s hs) hport fun _ => decide_eq_true_iff

theorem Owns.unique {state : StateId} {id : PortId} {port other : Port} (h : p.Owns state id port)
    (h' : p.Owns state id other) : port = other := by
  have hport := h.port? hd hp
  rw [h'.port? hd hp] at hport
  exact (Option.some.inj hport).symm

end

theorem handler_sound_iff {h : InterruptHandler} : h.Sound p ↔ h.WellFormed p := by
  constructor
  · rintro ⟨ht,ha,hs⟩
    simp only [← isSome_state?_iff] at hs
    exact ⟨ht,ha,hs⟩
  · rintro ⟨ht,ha,hs⟩
    simp only [isSome_state?_iff] at hs
    exact ⟨ht,ha,hs⟩

theorem state_sound_iff : s.Sound p ↔ s.WellFormed p := by
  constructor
  · rintro ⟨hp,hn,hh,hb⟩
    refine ⟨hp,hn,fun h hm => handler_sound_iff.mp (hh h hm),?_⟩
    intro b hm
    obtain ⟨port,hport,hid,hside⟩ := hb b hm
    rw [← hid]
    exact ⟨port,find?_key hp hport fun _ => decide_eq_true_iff,hside⟩
  · rintro ⟨hp,hn,hh,hb⟩
    refine ⟨hp,hn,fun h hm => handler_sound_iff.mpr (hh h hm),?_⟩
    intro b hm
    obtain ⟨port,hport,hside⟩ := hb b hm
    obtain ⟨hmem,hid⟩ := port?_mem hport
    exact ⟨port,hmem,hid,hside⟩

theorem transition_sound_iff {t : Transition} : t.Sound p ↔ t.WellFormed p := by
  constructor
  · rintro ⟨hs,ht,hc⟩
    exact ⟨isSome_state?_iff.mpr hs,isSome_state?_iff.mpr ht,hc⟩
  · rintro ⟨hs,ht,hc⟩
    exact ⟨isSome_state?_iff.mp hs,isSome_state?_iff.mp ht,hc⟩

theorem fits_iff {output input : Port} : output.Fits input ↔ output.side = .output ∧
    input.side = .input ∧ output.valueType.accepts input.valueType = true := by
  rw [ValueType.accepts_iff]
  exact ⟨fun h => ⟨h.source,h.target,h.type,h.known⟩,fun ⟨ho,hi,ht,hk⟩ => ⟨ho,hi,ht,hk⟩⟩

/-- Look-ups of a profile without repetitions find what it declares. -/
theorem sound_iff : p.Sound ↔ p.WellFormed := by
  constructor
  · intro h
    have hports : ∀ s ∈ p.states, (s.ports.map Port.id).Nodup :=
      fun s hs => (h.states s hs).ports_nodup
    refine ⟨h.states_ne_nil,h.states_nodup,h.transitions_nodup,h.connections_nodup,?_,?_,?_,?_,
      h.inputs_nodup⟩
    · simp only [isSome_state?_iff]
      exact h.initial
    · exact fun s hs => state_sound_iff.mp (h.states s hs)
    · exact fun t ht => transition_sound_iff.mp (h.transitions t ht)
    · intro c hc
      obtain ⟨o,i,ho,hi,hf⟩ := h.connections c hc
      exact ⟨o,i,ho.port? h.states_nodup hports,hi.port? h.states_nodup hports,fits_iff.mp hf⟩
  · intro h
    refine ⟨h.states_ne_nil,h.states_nodup,h.transitions_nodup,h.connections_nodup,?_,?_,?_,?_,
      h.inputs_nodup⟩
    · simp only [← isSome_state?_iff]
      exact h.initial
    · exact fun s hs => state_sound_iff.mpr (h.states s hs)
    · exact fun t ht => transition_sound_iff.mpr (h.transitions t ht)
    · intro c hc
      obtain ⟨o,i,ho,hi,hf⟩ := h.connections c hc
      exact ⟨o,i,.of_port? ho,.of_port? hi,fits_iff.mpr hf⟩

theorem handlerFault?_holds {handled : List InterruptType} {h : InterruptHandler}
    {fault : HandlerFault} (hf : p.handlerFault? handled h = some fault)
    (hd : h.interruptType ∈ handled →
      List.Duplicate h.interruptType (s.interruptHandlers.map InterruptHandler.interruptType)) :
    fault.Holds p s h := by
  rw [handlerFault?] at hf
  split at hf
  · next hu =>
    cases hf
    exact hu
  · split at hf
    · next hm =>
      cases hf
      exact hd hm
    · split at hf
      · next ha ht =>
        cases hf
        exact ⟨ha,ht⟩
      · next target ha ht =>
        obtain ⟨hn,he⟩ := Option.ite_none_right_eq_some.mp hf
        cases he
        exact ⟨ha,ht,isNone_state?_iff.mp hn⟩
      · cases hf
      · cases hf
      · next ha =>
        cases hf
        exact ha

theorem connectionFault?_holds (hn : (p.states.map StateSpec.id).Nodup)
    {fed : List (StateId × PortId)} {fault : ConnectionFault}
    (hf : p.connectionFault? fed c = some fault)
    (hd : c.input ∈ fed → List.Duplicate c.input (p.dataConnections.map DataConnection.input)) :
    fault.Holds p c := by
  rw [connectionFault?] at hf
  split at hf
  · next hs =>
    cases hf
    exact ⟨rfl,not_owns_of_port? hn hs⟩
  · next ht =>
    cases hf
    exact ⟨rfl,not_owns_of_port? hn ht⟩
  · next source destination hs ht =>
    have ho := Owns.of_port? hs
    have hi := Owns.of_port? ht
    split at hf
    · next hside =>
      cases hf
      refine ⟨ho.port_id,source,?_,hside⟩
      rw [ho.port_id]
      exact ho
    · split at hf
      · next hside =>
        cases hf
        refine ⟨hi.port_id,destination,?_,hside⟩
        rw [hi.port_id]
        exact hi
      · split at hf
        · next htype =>
          cases hf
          refine ⟨source,destination,ho,hi,?_⟩
          rw [← ValueType.accepts_iff]
          simpa using htype
        · obtain ⟨hm,he⟩ := Option.ite_none_right_eq_some.mp hf
          cases he
          exact ⟨rfl,hd hm⟩

theorem scans_checkHandlers (p : Profile) (s : StateSpec) :
    Scans InterruptHandler.interruptType p.handlerFault?
      (fun h fault => .invalidInterruptHandler s.id h.interruptType fault) (p.checkHandlers s) where
  nil handled := rfl
  cons handled h rest := by
    rw [checkHandlers]
    cases p.handlerFault? handled h <;> rfl

theorem scans_checkConnections (p : Profile) :
    Scans DataConnection.input p.connectionFault? (fun c fault => .invalidConnection c.id fault)
      p.checkConnections where
  nil fed := rfl
  cons fed c rest := by
    rw [checkConnections]
    cases p.connectionFault? fed c <;> rfl

theorem checkInitial_violates (h : p.checkInitial = .error e) : p.Violates e := by
  rw [checkInitial] at h
  split at h
  · next hn =>
    cases h
    exact .missingInitialState hn
  · next initial hi =>
    split at h
    · next hs =>
      cases h
      exact .unknownInitialState hi (isNone_state?_iff.mp hs)
    · cases h

theorem checkBinding_violates {b : ParamBinding} (hs : s ∈ p.states) (hb : b ∈ s.paramBindings)
    (h : checkBinding s b = .error e) : p.Violates e := by
  rw [checkBinding] at h
  split at h
  · next hp =>
    cases h
    exact .invalidBinding hs hb ⟨rfl,port?_eq_none_iff.mp hp⟩
  · next port hp =>
    obtain ⟨hmem,hid⟩ := port?_mem hp
    split at h
    · cases h
    · next hside =>
      cases h
      exact .invalidBinding hs hb ⟨hid,port,hmem,rfl,hside⟩

theorem checkState_violates (hs : s ∈ p.states) (h : p.checkState s = .error e) : p.Violates e := by
  simp only [checkState,check_bind_eq_error] at h
  rcases h with h | ⟨-,h | ⟨-,h⟩⟩
  · obtain ⟨port,hd,rfl⟩ := checkDistinct_eq_error h
    exact .duplicatePortId hs hd
  · obtain ⟨handler,hm,handled,fault,hf,rfl,hd⟩ := (scans_checkHandlers p s).exists_fault h
    refine .invalidInterruptHandler hs hm (handlerFault?_holds hf fun hk => ?_)
    exact (hd hk).resolve_left List.not_mem_nil
  · obtain ⟨b,hb,h⟩ := forM_eq_error h
    exact checkBinding_violates hs hb h

theorem checkTransition_violates {t : Transition} (ht : t ∈ p.transitions)
    (h : p.checkTransition t = .error e) : p.Violates e := by
  rw [checkTransition] at h
  split at h
  · next hs =>
    cases h
    exact .unknownTransitionEndpoint ht (.inl rfl) (isNone_state?_iff.mp hs)
  · split at h
    · next hs =>
      cases h
      exact .unknownTransitionEndpoint ht (.inr rfl) (isNone_state?_iff.mp hs)
    · split at h
      · cases h
      · next hc =>
        cases h
        exact .unsupportedCondition ht (by simpa using hc)

/-- Each error is reported for a reason. That a port is not found means that it is not declared,
because the identifiers of states have been told apart before. -/
theorem validate_violates (h : p.validate = .error e) : p.Violates e := by
  rw [validate] at h
  split at h
  · next he =>
    cases h
    exact .missingStates (List.isEmpty_iff.mp he)
  · simp only [check_bind_eq_error] at h
    rcases h with h | ⟨hn,h | ⟨-,h | ⟨-,h | ⟨-,h | ⟨-,h | ⟨-,h⟩⟩⟩⟩⟩⟩
    · obtain ⟨state,hd,rfl⟩ := checkDistinct_eq_error h
      exact .duplicateStateId hd
    · obtain ⟨transition,hd,rfl⟩ := checkDistinct_eq_error h
      exact .duplicateTransitionId hd
    · obtain ⟨connection,hd,rfl⟩ := checkDistinct_eq_error h
      exact .duplicateConnectionId hd
    · exact checkInitial_violates h
    · obtain ⟨s,hs,h⟩ := forM_eq_error h
      exact checkState_violates hs h
    · obtain ⟨t,ht,h⟩ := forM_eq_error h
      exact checkTransition_violates ht h
    · obtain ⟨c,hc,fed,fault,hf,rfl,hd⟩ := (scans_checkConnections p).exists_fault h
      refine .invalidConnection hc ?_
      refine connectionFault?_holds (checkDistinct_eq_ok.mp hn) hf fun hk => ?_
      exact (hd hk).resolve_left List.not_mem_nil

section

variable (hp : p.Sound)
include hp

theorem Sound.owns_unique {state : StateId} {id : PortId} {port other : Port}
    (h : p.Owns state id port) (h' : p.Owns state id other) : port = other :=
  h.unique hp.states_nodup (fun s hs => (hp.states s hs).ports_nodup) h'

theorem Sound.handler {h : InterruptHandler} {fault : HandlerFault} (hs : s ∈ p.states)
    (hh : h ∈ s.interruptHandlers) : ¬ fault.Holds p s h := by
  have hw := (hp.states s hs).handlers h hh
  intro hf
  cases fault with
  | unrecognizedType => exact hw.type hf
  | duplicate => exact hf.not_nodup (hp.states s hs).handlers_nodup
  | missingTarget =>
    obtain ⟨target,ht,-⟩ := hw.target hf.1
    rw [hf.2] at ht
    cases ht
  | unknownTarget target =>
    obtain ⟨ha,ht,hn⟩ := hf
    obtain ⟨target',ht',hd⟩ := hw.target ha
    rw [ht] at ht'
    cases ht'
    exact hn hd
  | unrecognizedAction => exact hw.action hf

theorem Sound.binding {b : ParamBinding} {fault : BindingFault} (hs : s ∈ p.states)
    (hb : b ∈ s.paramBindings) : ¬ fault.Holds s b := by
  obtain ⟨port,hport,hid,hside⟩ := (hp.states s hs).bindings b hb
  intro hf
  cases fault with
  | undeclaredPort =>
    obtain ⟨rfl,hn⟩ := hf
    exact hn port hport hid
  | notInput =>
    obtain ⟨rfl,other,ho,hid',hn⟩ := hf
    have hsame : other = port :=
      List.inj_on_of_nodup_map (hp.states s hs).ports_nodup ho hport (hid'.trans hid.symm)
    rw [hsame] at hn
    exact hn hside

theorem Sound.connection {fault : ConnectionFault} (hc : c ∈ p.dataConnections) :
    ¬ fault.Holds p c := by
  obtain ⟨output,input,ho,hi,hfits⟩ := hp.connections c hc
  intro hf
  cases fault with
  | unknownSource =>
    obtain ⟨rfl,hn⟩ := hf
    exact hn output ho
  | unknownDestination =>
    obtain ⟨rfl,hn⟩ := hf
    exact hn input hi
  | sourceNotOutput =>
    obtain ⟨rfl,o,ho',hn⟩ := hf
    rw [hp.owns_unique ho' ho] at hn
    exact hn hfits.source
  | destinationNotInput =>
    obtain ⟨rfl,i,hi',hn⟩ := hf
    rw [hp.owns_unique hi' hi] at hn
    exact hn hfits.target
  | typesDiffer =>
    obtain ⟨o,i,ho',hi',hn⟩ := hf
    rw [hp.owns_unique ho' ho,hp.owns_unique hi' hi] at hn
    exact hn ⟨hfits.type,hfits.known⟩
  | inputTaken => exact hf.2.not_nodup hp.inputs_nodup

end

theorem Violates.not_sound (h : p.Violates e) : ¬ p.Sound := by
  intro hp
  cases h with
  | missingStates h => exact hp.states_ne_nil h
  | missingInitialState h =>
    obtain ⟨initial,hi,-⟩ := hp.initial
    rw [h] at hi
    cases hi
  | unknownInitialState h hn =>
    obtain ⟨initial,hi,hd⟩ := hp.initial
    rw [h] at hi
    cases hi
    exact hn hd
  | duplicateStateId h => exact h.not_nodup hp.states_nodup
  | duplicateTransitionId h => exact h.not_nodup hp.transitions_nodup
  | duplicateConnectionId h => exact h.not_nodup hp.connections_nodup
  | duplicatePortId hs h => exact h.not_nodup (hp.states _ hs).ports_nodup
  | unknownTransitionEndpoint ht he hn =>
    rcases he with rfl | rfl
    · exact hn (hp.transitions _ ht).source
    · exact hn (hp.transitions _ ht).target
  | unsupportedCondition ht hc =>
    rw [(hp.transitions _ ht).condition] at hc
    cases hc
  | invalidInterruptHandler hs hh hf => exact hp.handler hs hh hf
  | invalidBinding hs hb hf => exact hp.binding hs hb hf
  | invalidConnection hc hf => exact hp.connection hc hf

/-- The check accepts exactly the sound profiles. An error names an element of the profile that
violates the clause of that error, and a profile with such an element is not sound. -/
theorem validate_decides (p : Profile) : (p.validate = .ok () ↔ p.Sound) ∧
    (∀ e, p.validate = .error e → p.Violates e) ∧ ∀ e, p.Violates e → ¬ p.Sound := by
  refine ⟨?_,fun e h => validate_violates h,fun e h => h.not_sound⟩
  rw [validate_eq_ok,sound_iff]

/-- A lookout whose report has the sight from two connections. -/
def overfed : Profile :=
  { Machine.lookout.profile with
    dataConnections := Machine.lookout.profile.dataConnections ++
      [⟨⟨"again"⟩,⟨"watch"⟩,⟨"sight"⟩,⟨"report"⟩,⟨"sight"⟩⟩] }

theorem validate_decides_overfed : Machine.lookout.profile.Sound ∧
    overfed.validate = .error (.invalidConnection ⟨"again"⟩ (.inputTaken ⟨"sight"⟩)) ∧
    overfed.Violates (.invalidConnection ⟨"again"⟩ (.inputTaken ⟨"sight"⟩)) ∧
    ¬ overfed.Sound := by
  obtain ⟨hsound,-,-⟩ := validate_decides Machine.lookout.profile
  obtain ⟨-,herror,hviolates⟩ := validate_decides overfed
  have he : overfed.validate = .error (.invalidConnection ⟨"again"⟩ (.inputTaken ⟨"sight"⟩)) := by
    decide +kernel
  have hv := herror _ he
  exact ⟨hsound.mp (by decide +kernel),he,hv,hviolates _ hv⟩

end Profile

end BehaviorMachine
