import BehaviorMachine.Profile.Document
import BehaviorMachine.Proofs.Json.Reading
import BehaviorMachine.Proofs.Json.Restating

/-!
# Profiles in documents

A profile is read back from its document, and from every restatement of it, up to the numbers
(`Profile.ofJson?_restated`). No part of a profile is lost by being left out, and parameters pass
through untyped values.
-/
namespace BehaviorMachine

open Json

namespace ParamValue

def mapNumbers (change : Binary64 → Binary64) : ParamValue → ParamValue
  | .flag b => .flag b
  | .number x => .number (change x)
  | .text s => .text s

theorem mapNumbers_same : mapNumbers (fun x => x) = fun v => v := by
  funext v
  cases v <;> rfl

theorem readable_toJson (v : ParamValue) : v.toJson.readable = true := by
  cases v <;> rfl

end ParamValue

namespace BehaviorParams

def mapNumbers (change : Binary64 → Binary64) (params : BehaviorParams) : BehaviorParams :=
  params.map (ParamValue.mapNumbers change)

theorem mapNumbers_same (params : BehaviorParams) : params.mapNumbers (fun x => x) = params := by
  rw [mapNumbers,ParamValue.mapNumbers_same,params.map_same]

theorem readable_toJson (params : BehaviorParams) : params.toJson.readable = true := by
  rw [toJson,ofMap,readable,readableMembers_iff,List.forall_mem_map]
  intro e _
  exact e.2.readable_toJson

end BehaviorParams

namespace Condition

def mapNumbers (change : Binary64 → Binary64) : Condition → Condition
  | .inventoryPercentFull operator value => .inventoryPercentFull operator (change value)
  | .healthPercent operator value => .healthPercent operator (change value)
  | .itemCount itemPattern operator value => .itemCount itemPattern operator (change value)
  | .skillLevel skillName operator value => .skillLevel skillName operator (change value)
  | c => c

theorem mapNumbers_same (c : Condition) : c.mapNumbers (fun x => x) = c := by
  cases c <;> rfl

theorem readable_toJson (c : Condition) : c.toJson.readable = true := by
  cases c <;> rfl

end Condition

def StateSpec.mapNumbers (change : Binary64 → Binary64) (s : StateSpec) : StateSpec :=
  { s with behaviorParams := s.behaviorParams.mapNumbers change }

def Transition.mapNumbers (change : Binary64 → Binary64) (t : Transition) : Transition :=
  { t with condition := t.condition.mapNumbers change }

def Profile.mapNumbers (change : Binary64 → Binary64) (p : Profile) : Profile :=
  { p with
    states := p.states.map (StateSpec.mapNumbers change)
    transitions := p.transitions.map (Transition.mapNumbers change) }

theorem Profile.mapNumbers_same (p : Profile) : p.mapNumbers (fun x => x) = p := by
  have hs : StateSpec.mapNumbers (fun x => x) = fun s => s := by
    funext s
    simp [StateSpec.mapNumbers,BehaviorParams.mapNumbers_same]
  have ht : Transition.mapNumbers (fun x => x) = fun t => t := by
    funext t
    simp [Transition.mapNumbers,Condition.mapNumbers_same]
  simp [mapNumbers,hs,ht]

theorem PortSide.ofJson?_spelling (s : PortSide) : ofJson? (.string s.spelling) = some s := by
  cases s <;> rfl

theorem ValueType.ofJson?_spelling (t : ValueType) : ofJson? (.string t.spelling) = some t := by
  cases t <;> rfl

theorem InterruptType.ofJson?_spelling (t : InterruptType) :
    ofJson? (.string t.spelling) = some t := by
  cases t <;> rfl

theorem InterruptAction.ofJson?_spelling (a : InterruptAction) :
    ofJson? (.string a.spelling) = some a := by
  cases a <;> rfl

theorem Condition.operator?_spelling (o : Operator) : operator? (.string o.spelling) = some o := by
  cases o <;> rfl

section Restated

variable {f : Json → Json} {change : Binary64 → Binary64} (h : Restates f change)
include h

theorem ParamValue.ofJson?_restated (v : ParamValue) :
    ofJson? (f v.toJson) = some (v.mapNumbers change) := by
  cases v with
  | flag b => rw [toJson,h.bool]; rfl
  | number x =>
    obtain ⟨n,hn,hx⟩ := h.real x
    rw [toJson,ofBinary64,hn,ofJson?,hx]
    rfl
  | text s => rw [toJson,h.string]; rfl

theorem BehaviorParams.ofJson?_restated (params : BehaviorParams) :
    ofJson? (f params.toJson) = some (params.mapNumbers change) := by
  have hmap : (f params.toJson).asMap? some = some (params.map fun v => f v.toJson) :=
    h.asMap? (fun _ => rfl) params
  rw [ofJson?,if_pos (h.readable _ params.readable_toJson),hmap,Option.map_some,
    NameMap.filterMap_map]
  simp only [ParamValue.ofJson?_restated h]
  rfl

theorem Port.ofJson?_restated (p : Port) : ofJson? (f p.toJson) = some p := by
  simp only [ofJson?,toJson,h.fields?]
  simp [fields?,field?,required,h.string,Identifier.toJson,Identifier.ofJson?,asString?,
    PortSide.toJson,ValueType.toJson,PortSide.ofJson?_spelling,ValueType.ofJson?_spelling]

theorem ParamBinding.ofJson?_restated (b : ParamBinding) : ofJson? (f b.toJson) = some b := by
  simp only [ofJson?,toJson,h.fields?]
  simp [fields?,field?,required,h.string,Identifier.toJson,Identifier.ofJson?,asString?]

theorem InterruptHandler.ofJson?_restated (i : InterruptHandler) :
    ofJson? (f i.toJson) = some i := by
  obtain ⟨type,action,target⟩ := i
  simp only [ofJson?,toJson,h.fields?]
  cases target <;>
    simp [fields?,field?,required,Json.optional,present,h.string,Identifier.toJson,
      Identifier.ofJson?,asString?,InterruptType.toJson,InterruptAction.toJson,
      InterruptType.ofJson?_spelling,InterruptAction.ofJson?_spelling]

theorem StateSpec.ofJson?_restated (s : StateSpec) :
    ofJson? (f s.toJson) = some (s.mapNumbers change) := by
  obtain ⟨id,name,behavior,params,handlers,ports,bindings⟩ := s
  have hparams := BehaviorParams.ofJson?_restated h params
  have hhandlers := h.asList? (InterruptHandler.ofJson?_restated h) handlers
  have hports := h.asList? (Port.ofJson?_restated h) ports
  have hbindings := h.asList? (ParamBinding.ofJson?_restated h) bindings
  simp only [ofJson?,toJson,h.fields?]
  cases ports <;> cases bindings <;>
    simp [fields?,field?,required,defaulted,nonempty,h.string,Identifier.toJson,
      Identifier.ofJson?,asString?,mapNumbers,hparams,hhandlers,hports,hbindings]

theorem Condition.ofJson?_restated (c : Condition) :
    ofJson? (f c.toJson) = some (c.mapNumbers change) := by
  have hm : ∀ m ∈ c.members, m.1 ≠ "type" := by
    cases c <;> simp [members]
  obtain ⟨rest,ht,hfields⟩ := h.tagged? hm c.readable_toJson
  rw [ofJson?,toJson,ht]
  cases c <;> simp only [kind,comparison?,namedComparison?,hfields,Option.bind_eq_bind,Option.bind_some]
  all_goals
    simp [isUnit,members,fields?,field?,required,h.string,h.asUInt64?,h.asBinary64?,Operator.toJson,
      operator?_spelling,asString?,mapNumbers]

theorem Transition.ofJson?_restated (t : Transition) :
    ofJson? (f t.toJson) = some (t.mapNumbers change) := by
  obtain ⟨id,source,target,condition,priority,label⟩ := t
  simp only [ofJson?,toJson,h.fields?]
  cases label <;>
    simp [fields?,field?,required,defaulted,Json.optional,present,h.string,h.asInt64?,
      Condition.ofJson?_restated h,Identifier.toJson,Identifier.ofJson?,asString?,mapNumbers]

theorem DataConnection.ofJson?_restated (c : DataConnection) : ofJson? (f c.toJson) = some c := by
  simp only [ofJson?,toJson,h.fields?]
  simp [fields?,field?,required,h.string,Identifier.toJson,Identifier.ofJson?,asString?]

theorem Profile.ofJson?_restated (p : Profile) :
    ofJson? (f p.toJson) = some (p.mapNumbers change) := by
  obtain ⟨id,name,description,initial,states,transitions,connections⟩ := p
  have hstates := h.asList? (StateSpec.ofJson?_restated h) states
  have htransitions := h.asList? (Transition.ofJson?_restated h) transitions
  have hconnections := h.asList? (DataConnection.ofJson?_restated h) connections
  simp only [ofJson?,toJson,h.fields?]
  cases description <;> cases initial <;>
    simp [fields?,field?,required,defaulted,Json.optional,present,h.string,Identifier.toJson,
      Identifier.ofJson?,asString?,mapNumbers,hstates,htransitions,hconnections]

end Restated

theorem BehaviorParams.depth_toJson (params : BehaviorParams) : params.toJson.depth ≤ 1 := by
  apply depth_ofMap
  intro v
  cases v <;> exact Nat.le_refl 0

theorem Port.depth_toJson (p : Port) : p.toJson.depth ≤ 1 := Nat.le_refl 1

theorem ParamBinding.depth_toJson (b : ParamBinding) : b.toJson.depth ≤ 1 := Nat.le_refl 1

theorem InterruptHandler.depth_toJson (i : InterruptHandler) : i.toJson.depth ≤ 1 := by
  obtain ⟨type,action,target⟩ := i
  cases target <;> exact Nat.le_refl 1

theorem StateSpec.depth_toJson (s : StateSpec) : s.toJson.depth ≤ 3 := by
  have hparams := s.behaviorParams.depth_toJson
  have hhandlers := depth_ofList InterruptHandler.depth_toJson s.interruptHandlers
  have hports := depth_nonempty Port.depth_toJson "ports" s.ports
  have hbindings := depth_nonempty ParamBinding.depth_toJson "paramBindings" s.paramBindings
  simp only [toJson,depth,depthMembers,depthMembers_append,Identifier.toJson]
  omega

theorem Condition.depth_toJson (c : Condition) : c.toJson.depth ≤ 1 := by
  cases c <;> exact Nat.le_refl 1

theorem Transition.depth_toJson (t : Transition) : t.toJson.depth ≤ 2 := by
  have hcondition := t.condition.depth_toJson
  have htext : ∀ s, (Json.string s).depth ≤ 0 := fun _ => Nat.le_refl 0
  have hlabel := depth_present htext "label" t.label
  simp only [toJson,depth,depthMembers,depthMembers_append,Identifier.toJson,depth_ofInt64]
  omega

theorem DataConnection.depth_toJson (c : DataConnection) : c.toJson.depth ≤ 1 := Nat.le_refl 1

namespace Profile

theorem depth_toJson (p : Profile) : p.toJson.depth ≤ 5 := by
  have htext : ∀ s, (Json.string s).depth ≤ 0 := fun _ => Nat.le_refl 0
  have hid : ∀ s : StateId, s.toJson.depth ≤ 0 := fun _ => Nat.le_refl 0
  have hdescription := depth_present htext "description" p.description
  have hinitial := depth_present hid "initialStateId" p.initialStateId
  have hstates := depth_ofList StateSpec.depth_toJson p.states
  have htransitions := depth_ofList Transition.depth_toJson p.transitions
  have hconnections := depth_ofList DataConnection.depth_toJson p.dataConnections
  simp only [toJson,depth,depthMembers,depthMembers_append,Identifier.toJson]
  omega

theorem lossless (p : Profile) : Lossless toJson ofJson? p := by
  apply lossless_of_depth
  · have hread := ofJson?_restated restates_same p
    rw [mapNumbers_same] at hread
    exact hread
  · exact Nat.le_trans p.depth_toJson (by decide)

end Profile

end BehaviorMachine
