import BehaviorMachine.Proofs.Dataflow.Params
import BehaviorMachine.Proofs.NameMap
import BehaviorMachine.Proofs.Run.Course

/-!
# What parameters stand for

The value of a parameter is told from a profile as it is written, by the positions of states, ports,
connections and bindings. Of ports, states and connections that compete the first one counts, and of
bindings that contribute the last one (`effectiveParams_means`). The first connection into an input
counts even if it is malformed, and then nothing arrives there.
-/
namespace BehaviorMachine

variable {α : Type}

structure IsFirst (wanted : α → Prop) (list : List α) (a : α) : Prop where
  found : wanted a
  before : ∃ before after, list = before ++ a :: after ∧ ∀ b ∈ before, ¬ wanted b

theorem find?_eq_some_iff_isFirst {wanted : α → Prop} [DecidablePred wanted] {list : List α}
    {a : α} :
    list.find? (fun b => decide (wanted b)) = some a ↔ IsFirst wanted list a := by
  rw [List.find?_eq_some_iff_append,decide_eq_true_iff]
  have hiff : IsFirst wanted list a ↔ wanted a ∧ ∃ before after, list = before ++ a :: after ∧
      ∀ b ∈ before, ¬ wanted b := ⟨fun h => ⟨h.found,h.before⟩,fun ⟨hf,hb⟩ => ⟨hf,hb⟩⟩
  simp [hiff]

theorem IsFirst.unique {wanted : α → Prop} {list : List α} {a b : α} (ha : IsFirst wanted list a)
    (hb : IsFirst wanted list b) : a = b := by
  classical
  have hfound := find?_eq_some_iff_isFirst.mpr ha
  rw [find?_eq_some_iff_isFirst.mpr hb] at hfound
  exact (Option.some.inj hfound).symm

/-- A connection leads from an output of a type that is known and that its input takes. -/
structure DataConnection.Supplies (p : Profile) (c : DataConnection) (type : ValueType)
    (source : StateSpec) (output : Port) : Prop where
  state : IsFirst (fun s => s.id = c.fromStateId) p.states source
  port : IsFirst (fun o => o.id = c.fromPortId) source.ports output
  side : output.side = .output
  type : output.valueType = type
  known : output.valueType ≠ .unrecognized

/-- The first connection into a port. -/
def Profile.LeadsInto (p : Profile) (state : StateId) (port : PortId) (c : DataConnection) : Prop :=
  IsFirst (fun c => c.toStateId = state ∧ c.toPortId = port) p.dataConnections c

/-- The port of a binding is an input, and the first connection into it brings a value. -/
inductive Contributes (p : Profile) (s : StateSpec) (values : PortValues) (b : ParamBinding)
    (value : ParamValue) : Prop where
  | intro {input output : Port} {c : DataConnection} {source : StateSpec}
      (hport : IsFirst (fun i => i.id = b.portId) s.ports input) (hside : input.side = .input)
      (hc : p.LeadsInto s.id b.portId c) (hs : c.Supplies p input.valueType source output)
      (hv : values.value? source.id output.id = some value)

/-- The value of a parameter: that of the last binding which contributes one, and otherwise the
literal. -/
inductive StandsFor (p : Profile) (s : StateSpec) (values : PortValues) (name : String)
    (value : ParamValue) : Prop where
  | bound {before after : List ParamBinding} {b : ParamBinding}
      (hb : s.paramBindings = before ++ b :: after) (hn : b.paramName = name)
      (hc : Contributes p s values b value)
      (hlast : ∀ d ∈ after, d.paramName = name → ∀ v, ¬ Contributes p s values d v)
  | literal
      (hnone : ∀ b ∈ s.paramBindings, b.paramName = name → ∀ v, ¬ Contributes p s values b v)
      (hl : s.behaviorParams.get? name = some value)

namespace Profile

variable {p : Profile} {s : StateSpec} {values : PortValues}

theorem state?_eq_some_iff {id : StateId} : p.state? id = some s ↔
    IsFirst (fun s => s.id = id) p.states s :=
  find?_eq_some_iff_isFirst

theorem port?_eq_some_iff {id : PortId} {port : Port} : s.port? id = some port ↔
    IsFirst (fun o => o.id = id) s.ports port :=
  find?_eq_some_iff_isFirst

theorem connectionsInto_head? {state : StateId} {port : PortId} {c : DataConnection} :
    (p.connectionsInto state port).head? = some c ↔ p.LeadsInto state port c := by
  rw [connectionsInto,List.head?_filter]
  exact find?_eq_some_iff_isFirst

theorem supplies_iff {c : DataConnection} {type : ValueType} {source : StateSpec} {output : Port} :
    c.Supplies p type source output ↔ p.state? c.fromStateId = some source ∧
      source.port? c.fromPortId = some output ∧ output.side = .output ∧
        output.valueType.accepts type = true := by
  rw [state?_eq_some_iff,port?_eq_some_iff,ValueType.accepts_iff]
  constructor
  · intro h
    exact ⟨h.state,h.port,h.side,h.type,h.known⟩
  · rintro ⟨hs,hp,hside,htype,hknown⟩
    exact ⟨hs,hp,hside,htype,hknown⟩

theorem feed?_eq_some_iff {state : StateId} {port : Port} {fed : StateId × PortId} :
    p.feed? state port = some fed ↔ ∃ c source output, p.LeadsInto state port.id c ∧
      c.Supplies p port.valueType source output ∧ (source.id,output.id) = fed := by
  simp only [feed?,Option.bind_eq_bind,Option.bind_eq_some_iff,Option.ite_none_right_eq_some,
    connectionsInto_head?,supplies_iff,Option.some.injEq]
  constructor
  · rintro ⟨c,hc,source,hs,output,ho,⟨hside,htype⟩,hfed⟩
    exact ⟨c,source,output,hc,⟨hs,ho,hside,htype⟩,hfed⟩
  · rintro ⟨c,source,output,hc,⟨hs,ho,hside,htype⟩,hfed⟩
    exact ⟨c,hc,source,hs,output,ho,⟨hside,htype⟩,hfed⟩

theorem boundValue?_eq_some_iff {b : ParamBinding} {value : ParamValue} :
    p.boundValue? s values b = some value ↔ Contributes p s values b value := by
  simp only [boundValue?,Option.bind_eq_bind,Option.bind_eq_some_iff,port?_eq_some_iff]
  constructor
  · rintro ⟨input,hport,hv⟩
    rw [Option.ite_none_right_eq_some] at hv
    obtain ⟨hside,hv⟩ := hv
    obtain ⟨⟨state,port⟩,hfeed,hv⟩ := Option.bind_eq_some_iff.mp hv
    obtain ⟨c,source,output,hc,hs,hfed⟩ := feed?_eq_some_iff.mp hfeed
    cases hfed
    rw [hport.found] at hc
    exact ⟨hport,hside,hc,hs,hv⟩
  · rintro ⟨hport,hside,hc,hs,hv⟩
    rw [← hport.found] at hc
    refine ⟨_,hport,?_⟩
    rw [if_pos hside,feed?_eq_some_iff.mpr ⟨_,_,_,hc,hs,rfl⟩]
    exact hv

theorem boundValue?_eq_none_iff {b : ParamBinding} :
    p.boundValue? s values b = none ↔ ∀ value, ¬ Contributes p s values b value := by
  simp only [Option.eq_none_iff_forall_ne_some,ne_eq,boundValue?_eq_some_iff]

theorem lastBound?_eq_some_iff {bindings : List ParamBinding}
    {value? : ParamBinding → Option ParamValue} {name : String} {value : ParamValue} :
    lastBound? bindings value? name = some value ↔ ∃ before b after,
      bindings = before ++ b :: after ∧ b.paramName = name ∧ value? b = some value ∧
        ∀ d ∈ after, d.paramName = name → value? d = none := by
  rw [lastBound?,List.getLast?_filterMap,List.findSome?_eq_some_iff]
  simp only [Option.ite_none_right_eq_some,ite_eq_right_iff,List.reverse_eq_append_iff,
    List.reverse_cons,List.append_assoc,List.singleton_append]
  constructor
  · rintro ⟨after,b,before,hsplit,⟨hn,hb⟩,hlast⟩
    exact ⟨before.reverse,b,after.reverse,hsplit,hn,hb,fun d hd => hlast d (List.mem_reverse.mp hd)⟩
  · rintro ⟨before,b,after,hsplit,hn,hb,hlast⟩
    refine ⟨after.reverse,b,before.reverse,?_,⟨hn,hb⟩,fun d hd => hlast d (List.mem_reverse.mp hd)⟩
    rw [List.reverse_reverse,List.reverse_reverse]
    exact hsplit

theorem lastBound?_eq_none_iff {bindings : List ParamBinding}
    {value? : ParamBinding → Option ParamValue} {name : String} :
    lastBound? bindings value? name = none ↔
      ∀ b ∈ bindings, b.paramName = name → value? b = none := by
  simp [lastBound?]

theorem effectiveParams_get?_iff {name : String} {value : ParamValue} :
    (p.effectiveParams s values).get? name = some value ↔ StandsFor p s values name value := by
  rw [effectiveParams_get?,Option.or_eq_some_iff,lastBound?_eq_some_iff,lastBound?_eq_none_iff]
  simp only [boundValue?_eq_some_iff,boundValue?_eq_none_iff]
  constructor
  · rintro (⟨before,b,after,hb,hn,hc,hlast⟩ | ⟨hnone,hl⟩)
    · exact .bound hb hn hc hlast
    · exact .literal hnone hl
  · intro h
    cases h with
    | bound hb hn hc hlast => exact .inl ⟨_,_,_,hb,hn,hc,hlast⟩
    | literal hnone hl => exact .inr ⟨hnone,hl⟩

/-- The parameters of a behavior are those that the profile and the session stand for. The first
connection into an input shuts out the others even where it brings nothing, literals stay, and there
are no names beside those of literals and of bindings that contribute. -/
theorem effectiveParams_means (p : Profile) (s : StateSpec) (session : SessionState) :
    (∀ params : BehaviorParams, params = p.effectiveParams s session.portValues ↔
      ∀ name value, params.get? name = some value ↔
        StandsFor p s session.portValues name value) ∧
    (∀ b input c, IsFirst (fun i => i.id = b.portId) s.ports input →
      p.LeadsInto s.id b.portId c →
      (∀ source output, ¬ c.Supplies p input.valueType source output) →
        ∀ value, ¬ Contributes p s session.portValues b value) ∧
    (∀ name, (s.behaviorParams.get? name).isSome →
      ((p.effectiveParams s session.portValues).get? name).isSome) ∧
    ∀ name, ((p.effectiveParams s session.portValues).get? name).isSome →
      (s.behaviorParams.get? name).isSome ∨
        ∃ b ∈ s.paramBindings, b.paramName = name ∧
          ∃ value, Contributes p s session.portValues b value := by
  refine ⟨?_,?_,?_,?_⟩
  · intro params
    constructor
    · rintro rfl name value
      exact effectiveParams_get?_iff
    · intro h
      apply NameMap.ext_get?
      intro name
      apply Option.ext
      intro value
      rw [h,effectiveParams_get?_iff]
  · rintro b input c hport hc hn value ⟨hport',-,hc',hs,-⟩
    rw [hport.unique hport',hc.unique hc'] at hn
    exact hn _ _ hs
  · intro name hl
    rw [effectiveParams_get?,Option.isSome_or,hl,Bool.or_true]
  · intro name hs
    obtain ⟨value,hv⟩ := Option.isSome_iff_exists.mp hs
    cases effectiveParams_get?_iff.mp hv with
    | bound hb hn hc hlast => exact .inr ⟨_,by simp [hb],hn,_,hc⟩
    | literal hnone hl => exact .inl (by simp [hl])

/-- A lookout who takes the place for the sight in his report, and reports nothing without one. -/
def misled : Profile :=
  { Machine.lookout.profile with
    states := Machine.lookout.profile.states.map fun s =>
      { s with behaviorParams := .insert ∅ "sight" (.text "nothing") }
    dataConnections := ⟨⟨"mistake"⟩,⟨"watch"⟩,⟨"place"⟩,⟨"report"⟩,⟨"sight"⟩⟩ ::
      Machine.lookout.profile.dataConnections }

/-- The session of a lookout who has seen smoke from his tower. -/
def smoke : SessionState :=
  { SessionState.start (some ⟨"report"⟩) (.logical 0) with
    portValues := .set (.set ∅ ⟨"watch"⟩ ⟨"sight"⟩ (.text "smoke")) ⟨"watch"⟩ ⟨"place"⟩
      (.text "tower") }

theorem effectiveParams_means_misled : ∃ s ∈ misled.states,
    StandsFor misled s smoke.portValues "place" (.text "tower") ∧
    StandsFor misled s smoke.portValues "sight" (.text "nothing") ∧
    ∀ value, ¬ Contributes misled s smoke.portValues ⟨"sight",⟨"sight"⟩⟩ value := by
  let report := misled.states.get ⟨1,by decide⟩
  obtain ⟨hmeans,hblocks,-,-⟩ := effectiveParams_means misled report smoke
  refine ⟨report,List.get_mem _ _,?_⟩
  have hvalues := (hmeans _).mp rfl
  refine ⟨(hvalues _ _).mp (by decide +kernel),(hvalues _ _).mp (by decide +kernel),?_⟩
  refine hblocks _ _ _ ⟨rfl,[],_,rfl,nofun⟩ ⟨⟨rfl,rfl⟩,[],_,rfl,nofun⟩ ?_
  rintro source output ⟨hs,hp,-,htype,-⟩
  rw [← state?_eq_some_iff] at hs
  rw [← port?_eq_some_iff] at hp
  have hw : misled.state? ⟨"watch"⟩ = misled.states.head? := by rfl
  cases hw.symm.trans hs
  cases hp
  cases htype

end Profile

end BehaviorMachine
