import BehaviorMachine.Proofs.Dataflow.Params
import BehaviorMachine.Proofs.Dataflow.Writes
import BehaviorMachine.Proofs.Profile.WellFormed
import Mathlib.Data.List.Nodup

/-!
# Delivery

Behaviors write ports by name, connections start at identifiers. A name stands for the first output
that has it, and what is written under it arrives wherever a connection leads from that port
(`outputs_deliver`). The check of a profile does not keep outputs from sharing a name, and a namesake
further down is never written (`namesake_unwritten`).
-/
namespace BehaviorMachine

variable {α κ : Type}

theorem find?_key [DecidableEq κ] {key : α → κ} {l : List α} {a : α} {found : α → Bool}
    (hn : (l.map key).Nodup) (ha : a ∈ l) (hf : ∀ b, found b = true ↔ key b = key a) :
    l.find? found = some a := by
  cases hb : l.find? found with
  | none =>
    have hmiss := List.find?_eq_none.mp hb a ha
    exact absurd ((hf a).mpr rfl) hmiss
  | some b =>
    have hkey : key b = key a := (hf b).mp (List.find?_some hb)
    rw [List.inj_on_of_nodup_map hn (List.mem_of_find?_eq_some hb) ha hkey]

namespace StateSpec

variable {s : StateSpec} {o : Port} {name : String}

/-- The port is the first output of its name. -/
structure Foremost (s : StateSpec) (o : Port) : Prop where
  side : o.side = .output
  first : ∃ before after, s.ports = before ++ o :: after ∧
    ∀ q ∈ before, q.side = .output → q.name ≠ o.name

theorem outputNamed?_eq_some_iff : s.outputNamed? name = some o ↔ s.Foremost o ∧ o.name = name := by
  rw [outputNamed?,List.find?_eq_some_iff_append]
  constructor
  · rintro ⟨ho,before,after,hports,hbefore⟩
    obtain ⟨hside,rfl⟩ := of_decide_eq_true ho
    refine ⟨⟨hside,before,after,hports,?_⟩,rfl⟩
    intro q hq hqs hqn
    have hmiss := hbefore q hq
    simp [hqs,hqn] at hmiss
  · rintro ⟨⟨hside,before,after,hports,hbefore⟩,rfl⟩
    refine ⟨by simp [hside],before,after,hports,?_⟩
    intro q hq
    simpa only [decide_eq_true_iff,Bool.not_eq_true,not_and,decide_eq_false_iff_not,
      Bool.not_eq_eq_eq_not,Bool.not_true] using hbefore q hq

theorem port?_id {id : PortId} (ho : s.port? id = some o) : o.id = id := by
  have hfound := List.find?_some ho
  exact of_decide_eq_true hfound

theorem exists_foremost (ho : o ∈ s.ports) (hside : o.side = .output) :
    ∃ first, s.Foremost first ∧ first.name = o.name := by
  have hfound : (s.outputNamed? o.name).isSome := by
    rw [outputNamed?,List.find?_isSome]
    exact ⟨o,ho,by simp [hside]⟩
  obtain ⟨first,hfirst⟩ := Option.isSome_iff_exists.mp hfound
  exact ⟨first,outputNamed?_eq_some_iff.mp hfirst⟩

theorem Foremost.outputNamed? (ho : s.Foremost o) : s.outputNamed? o.name = some o :=
  outputNamed?_eq_some_iff.mpr ⟨ho,rfl⟩

theorem Foremost.mem (ho : s.Foremost o) : o ∈ s.ports :=
  List.mem_of_find?_eq_some ho.outputNamed?

theorem Foremost.unique {o' : Port} (ho : s.Foremost o) (ho' : s.Foremost o')
    (hn : o.name = o'.name) : o = o' := by
  have hfound := ho.outputNamed?
  rw [hn,ho'.outputNamed?] at hfound
  exact (Option.some.inj hfound).symm

end StateSpec

namespace Profile

variable {p : Profile} {s d : StateSpec} {o : Port} {c : DataConnection} {b : ParamBinding}
  {value : ParamValue} {values : PortValues}

section

variable (hw : p.WellFormed)

include hw

theorem WellFormed.state?_eq (hs : s ∈ p.states) : p.state? s.id = some s :=
  find?_key hw.states_nodup hs fun _ => decide_eq_true_iff

theorem WellFormed.port?_eq (hs : s ∈ p.states) (ho : o ∈ s.ports) : s.port? o.id = some o :=
  find?_key (hw.states s hs).ports_nodup ho fun _ => decide_eq_true_iff

theorem WellFormed.connectionsInto_head? (hc : c ∈ p.dataConnections) :
    (p.connectionsInto c.toStateId c.toPortId).head? = some c := by
  rw [connectionsInto,List.head?_filter]
  apply find?_key hw.inputs_nodup hc
  intro e
  simp [DataConnection.input]

theorem WellFormed.boundValue?_eq (hc : c ∈ p.dataConnections) (hd : p.state? c.toStateId = some d)
    (hb : b.portId = c.toPortId) :
    p.boundValue? d values b = values.value? c.fromStateId c.fromPortId := by
  obtain ⟨source,target,hsource,htarget,hout,hin,htype⟩ := hw.connections c hc
  obtain ⟨s,hs,ho⟩ := Option.bind_eq_some_iff.mp hsource
  have hport : d.port? b.portId = some target := by
    rw [port?,hd] at htarget
    rw [hb]
    exact htarget
  have hfeed : p.feed? d.id target = some (c.fromStateId,c.fromPortId) := by
    rw [feed?,Machine.state?_id hd,StateSpec.port?_id hport,hb,hw.connectionsInto_head? hc]
    simp [hs,ho,hout,htype,Machine.state?_id hs,StateSpec.port?_id ho]
  simp [boundValue?,hport,hin,hfeed]

end

/-- The last of the bindings of a name decides about it. -/
theorem lastBound?_of_last {before after : List ParamBinding}
    {value? : ParamBinding → Option ParamValue} (hb : value? b = some value)
    (hafter : ∀ b' ∈ after, b'.paramName ≠ b.paramName) :
    lastBound? (before ++ b :: after) value? b.paramName = some value := by
  have hnone : after.filterMap (fun b' => if b'.paramName = b.paramName then value? b' else none)
      = [] := by
    rw [List.filterMap_eq_nil_iff]
    intro b' hb'
    exact if_neg (hafter b' hb')
  rw [lastBound?,List.filterMap_append,List.filterMap_cons,if_pos rfl,hb,hnone]
  simp

/-- A value arrives at an input port, and the behavior of the state gets it. -/
structure Arrives (p : Profile) (d : StateSpec) (port : PortId) (value : ParamValue)
    (values : PortValues) : Prop where
  input : ∃ i ∈ d.ports, i.id = port ∧ i.side = .input
  bound : ∀ b ∈ d.paramBindings, b.portId = port → p.boundValue? d values b = some value
  /-- The last binding of a parameter decides about it. -/
  param : ∀ before b after, d.paramBindings = before ++ b :: after → b.portId = port →
    (∀ b' ∈ after, b'.paramName ≠ b.paramName) →
      (p.effectiveParams d values).get? b.paramName = some value

/-- A value is recorded for an output and arrives wherever a connection leads from it. -/
structure Delivers (p : Profile) (s : StateSpec) (o : Port) (value : ParamValue)
    (values : PortValues) : Prop where
  recorded : values.value? s.id o.id = some value
  connected : ∀ c ∈ p.dataConnections, c.fromStateId = s.id → c.fromPortId = o.id →
    ∃ d, p.state? c.toStateId = some d ∧ p.Arrives d c.toPortId value values

theorem WellFormed.delivers (hw : p.WellFormed) (hv : values.value? s.id o.id = some value) :
    p.Delivers s o value values := by
  refine ⟨hv,?_⟩
  intro c hc hcs hcp
  obtain ⟨source,target,hsource,htarget,hout,hin,htype⟩ := hw.connections c hc
  obtain ⟨d,hd,ht⟩ := Option.bind_eq_some_iff.mp htarget
  have hbound : ∀ b, b.portId = c.toPortId → p.boundValue? d values b = some value := by
    intro b hb
    rw [hw.boundValue?_eq hc hd hb,hcs,hcp,hv]
  refine ⟨d,hd,?_,?_,?_⟩
  · exact ⟨target,List.mem_of_find?_eq_some ht,StateSpec.port?_id ht,hin⟩
  · intro b _ hb
    exact hbound b hb
  · intro before b after hsplit hb hlast
    rw [effectiveParams_get?,hsplit,lastBound?_of_last (hbound b hb) hlast,Option.some_or]

theorem WellFormed.target?_of (hw : p.WellFormed) (hs : s ∈ p.states) (ho : s.Foremost o)
    {w : PortWrite} : p.target? ⟨s.id,w⟩ = some o.id ↔ w.written = true ∧ w.name = o.name := by
  have hname : (∃ q, s.outputNamed? w.name = some q ∧ q.id = o.id) ↔ w.name = o.name := by
    constructor
    · rintro ⟨q,hq,hid⟩
      obtain ⟨hq,hqn⟩ := StateSpec.outputNamed?_eq_some_iff.mp hq
      have hfound := hw.port?_eq hs hq.mem
      rw [hid,hw.port?_eq hs ho.mem] at hfound
      rw [← hqn,Option.some.inj hfound]
    · intro hn
      exact ⟨o,StateSpec.outputNamed?_eq_some_iff.mpr ⟨ho,hn.symm⟩,rfl⟩
  simp only [target?,output?,hw.state?_eq hs,Option.bind_some,Option.ite_none_right_eq_some,
    Option.map_eq_some_iff,hname]

/-- The last write under a name leaves its value on the first output of that name. -/
theorem WellFormed.value?_run (hw : p.WellFormed) (hs : s ∈ p.states) (ho : s.Foremost o)
    {program : PortProgram α} {before after : List PortWrite} {w : PortWrite}
    (hsplit : program.writes s values = before ++ w :: after) (hn : w.name = o.name)
    (hafter : ∀ w' ∈ after, w'.name ≠ o.name) :
    (program.run s values).2.value? s.id o.id = some w.value := by
  obtain ⟨hrun,hwritten⟩ := (PortProgram.reaches_run s program values).replay (hw.state?_eq hs)
  rw [hsplit] at hrun hwritten
  have hfound : w.written = true := by
    rw [hwritten w (List.mem_append_right _ List.mem_cons_self),hn,ho.outputNamed?]
    rfl
  have hlater : p.lastWritten? (after.map fun w' => ⟨s.id,w'⟩) s.id o.id = none := by
    rw [lastWritten?,Option.map_eq_none_iff,List.find?_eq_none]
    intro e he
    obtain ⟨w',hw',rfl⟩ := List.mem_map.mp (List.mem_reverse.mp he)
    simp [hw.target?_of hs ho,hafter w' hw']
  have hlast : p.lastWritten? [⟨s.id,w⟩] s.id o.id = some w.value := by
    simp [lastWritten?,(hw.target?_of hs ho).mpr ⟨hfound,hn⟩]
  rw [hrun,value?_replay,List.map_append,List.map_cons,lastWritten?_append,
    ← List.singleton_append,lastWritten?_append,hlater,Option.none_or,hlast]
  rfl

/-- What is written under a name goes to a port and arrives wherever that port leads. -/
structure Addresses (p : Profile) (s : StateSpec) (name : String) (o : Port) : Prop where
  foremost : s.Foremost o
  named : o.name = name
  /-- A write succeeds, is read back and delivered, and touches nothing else. -/
  write : ∀ value values, ∃ written, s.write? values name value = some written ∧
    s.read? written name = some value ∧ p.Delivers s o value written ∧
    ∀ state port, ¬ (state = s.id ∧ port = o.id) →
      written.value? state port = values.value? state port
  /-- Of several writes in a program the last is delivered. -/
  run : ∀ (α : Type) (program : PortProgram α) (values : PortValues) before w after,
    program.writes s values = before ++ w :: after → w.name = name →
      (∀ w' ∈ after, w'.name ≠ name) → p.Delivers s o w.value (program.run s values).2

/-- In a valid profile every output can be written under its name. The value goes to the first output
of that name and arrives wherever a connection leads from there. -/
theorem outputs_deliver (hp : p.validate = .ok ()) (hs : s ∈ p.states) (ho : o ∈ s.ports)
    (hside : o.side = .output) :
    ∃ first, (s.Foremost o → first = o) ∧ p.Addresses s o.name first := by
  have hw := validate_eq_ok.mp hp
  obtain ⟨first,hfirst,hn⟩ := StateSpec.exists_foremost ho hside
  have hnamed : s.outputNamed? o.name = some first :=
    StateSpec.outputNamed?_eq_some_iff.mpr ⟨hfirst,hn⟩
  refine ⟨first,fun ho => hfirst.unique ho hn,hfirst,hn,?_,?_⟩
  · intro value values
    have hset : (values.set s.id first.id value).value? s.id first.id = some value := by
      rw [PortValues.value?_set,if_pos ⟨rfl,rfl⟩]
    refine ⟨values.set s.id first.id value,?_,?_,hw.delivers hset,?_⟩
    · rw [StateSpec.write?,hnamed,Option.map_some]
    · rw [StateSpec.read?,hnamed,Option.bind_some,hset]
    · intro state port hother
      rw [PortValues.value?_set,if_neg hother]
  · intro α program values before w after hsplit hwn hafter
    rw [← hn] at hwn hafter
    exact hw.delivers (hw.value?_run hs hfirst hsplit hwn hafter)

theorem outputs_deliver_lookout : Machine.lookout.profile.validate = .ok () ∧
    ∃ s ∈ Machine.lookout.profile.states, ∃ o ∈ s.ports, o.side = .output ∧
      ∃ first, (s.Foremost o → first = o) ∧
        Machine.lookout.profile.Addresses s o.name first := by
  have hp : Machine.lookout.profile.validate = .ok () := by decide +kernel
  exact ⟨hp,_,List.mem_cons_self,_,List.mem_cons_self,rfl,
    outputs_deliver hp List.mem_cons_self List.mem_cons_self rfl⟩

/-- A lookout whose two outputs have the name of the first. -/
def namesakes : Profile :=
  { Machine.lookout.profile with
    states := Machine.lookout.profile.states.map fun s =>
      { s with ports := s.ports.map fun port => { port with name := "sight" } } }

/-- A valid profile may have an output that no write reaches. -/
theorem namesake_unwritten : ¬ ∀ p : Profile, p.validate = .ok () →
    ∀ s ∈ p.states, ∀ o ∈ s.ports, o.side = .output → ∀ (value : ParamValue) (values : PortValues),
      ∃ written, s.write? values o.name value = some written ∧
        written.value? s.id o.id = some value ∧ s.read? written o.name = some value := by
  intro hall
  have hp : namesakes.validate = .ok () := by decide +kernel
  obtain ⟨written,hwritten,hvalue,-⟩ := hall namesakes hp _ List.mem_cons_self _
    (List.mem_cons_of_mem _ List.mem_cons_self) rfl (.text "ship") ∅
  obtain rfl := Option.some.inj hwritten
  rw [PortValues.value?_set,if_neg (by decide +kernel)] at hvalue
  cases hvalue

end Profile

end BehaviorMachine
