import BehaviorMachine.Host.Event
import BehaviorMachine.Host.Script
import BehaviorMachine.Proofs.Profile.Document
import BehaviorMachine.Proofs.Session.Document

/-!
# Scripts and events in documents

A script is read back from its document, where every part is written: a null is a withheld world, and
none is left to a default. Events keep their tags.
-/
namespace BehaviorMachine

open Json

theorem BehaviorParams.ofJson?_toJson (params : BehaviorParams) :
    ofJson? params.toJson = some params := by
  have hread := ofJson?_restated restates_same params
  rw [mapNumbers_same] at hread
  exact hread

theorem ResourceLevel.ofJson?_toJson (r : ResourceLevel) : ofJson? r.toJson = some r := by
  simp [ofJson?,toJson,fields?,field?,required,asString?,ofBinary64,asBinary64?,Number.toBinary64]

theorem ItemStack.ofJson?_toJson (i : ItemStack) : ofJson? i.toJson = some i := by
  simp [ofJson?,toJson,fields?,field?,required,asString?,asUInt32?_ofUInt32]

theorem SkillLevel.ofJson?_toJson (s : SkillLevel) : ofJson? s.toJson = some s := by
  simp [ofJson?,toJson,fields?,field?,required,asString?,ofBinary64,asBinary64?,Number.toBinary64]

namespace WorldSnapshot

theorem ofJson?_toJson (w : WorldSnapshot) : ofJson? w.toJson = some w := by
  have hresources := asList?_ofList ResourceLevel.ofJson?_toJson w.resources
  have hitems := asList?_ofList ItemStack.ofJson?_toJson w.items
  have hskills := asList?_ofList SkillLevel.ofJson?_toJson w.skills
  simp [ofJson?,toJson,fields?,field?,defaulted,asUInt32?_ofUInt32,hresources,hitems,hskills]

theorem toJson_ne_null (w : WorldSnapshot) : w.toJson ≠ .null := by simp [toJson]

theorem depth_toJson (w : WorldSnapshot) : w.toJson.depth ≤ 3 := by
  have hresource : ∀ r : ResourceLevel, r.toJson.depth ≤ 1 := fun _ => Nat.le_refl 1
  have hitem : ∀ i : ItemStack, i.toJson.depth ≤ 1 := fun _ => Nat.le_refl 1
  have hskill : ∀ s : SkillLevel, s.toJson.depth ≤ 1 := fun _ => Nat.le_refl 1
  have hresources := depth_ofList hresource w.resources
  have hitems := depth_ofList hitem w.items
  have hskills := depth_ofList hskill w.skills
  simp only [toJson,depth,depthMembers,depth_ofUInt32]
  omega

end WorldSnapshot

theorem WorldFrame.ofJson?_toJson (f : WorldFrame) : ofJson? f.toJson = some f := by
  simp [ofJson?,toJson,fields?,field?,required,ofUInt64,asUInt64?,WorldSnapshot.ofJson?_toJson]

theorem ScheduledInterrupt.ofJson?_toJson (i : ScheduledInterrupt) : ofJson? i.toJson = some i := by
  simp [ofJson?,toJson,fields?,field?,required,ofUInt64,asUInt64?,InterruptType.toJson,
    InterruptType.ofJson?_spelling]

theorem optional_ofUInt32 (n : Option UInt32) :
    Json.optional (some (ofOption ofUInt32 n)) asUInt32? = some n :=
  optional_ofOption asUInt32?_ofUInt32 (fun n => by simp [ofUInt32]) n

theorem PortWriteScript.ofJson?_toJson (w : PortWriteScript) : ofJson? w.toJson = some w := by
  simp [ofJson?,toJson,fields?,field?,required,asString?,ParamValue.ofJson?_toJson,optional_ofUInt32]

namespace BehaviorScript

theorem ofJson?_toJson (b : BehaviorScript) : ofJson? b.toJson = some b := by
  have hstring : ∀ s, (Json.string s).asString? = some s := fun _ => rfl
  have hparams := asList?_ofList hstring b.requiredParams
  have hwrites := asList?_ofList PortWriteScript.ofJson?_toJson b.writes
  simp [ofJson?,toJson,fields?,field?,defaulted,optional_ofUInt32,hparams,hwrites]

theorem depth_toJson (b : BehaviorScript) : b.toJson.depth ≤ 3 := by
  have hcount (n : UInt32) : (ofUInt32 n).depth ≤ 0 := Nat.le_refl 0
  have htext (s : String) : (Json.string s).depth ≤ 0 := Nat.le_refl 0
  have hwrite (w : PortWriteScript) : w.toJson.depth ≤ 1 := by
    obtain ⟨port,value,atStep⟩ := w
    cases value <;> cases atStep <;> exact Nat.le_refl 1
  have hsteps := depth_ofOption hcount b.stepsToComplete
  have hfail := depth_ofOption hcount b.failAtStep
  have hparams := depth_ofList htext b.requiredParams
  have hwrites := depth_ofList hwrite b.writes
  simp only [toJson,depth,depthMembers]
  omega

end BehaviorScript

namespace HostScript

theorem ofJson?_toJson (s : HostScript) : ofJson? s.toJson = some s := by
  have hframes := asList?_ofList WorldFrame.ofJson?_toJson s.worldFrames
  have hinterrupts := asList?_ofList ScheduledInterrupt.ofJson?_toJson s.interrupts
  have hbehaviors := asMap?_ofMap BehaviorScript.ofJson?_toJson s.behaviors
  have hworld := optional_ofOption WorldSnapshot.ofJson?_toJson WorldSnapshot.toJson_ne_null s.world
  simp [ofJson?,toJson,fields?,field?,defaulted,world?,ofUInt64,asUInt64?,hworld,hframes,hinterrupts,
    hbehaviors]

theorem depth_toJson (s : HostScript) : s.toJson.depth ≤ 6 := by
  have hworld := depth_ofOption WorldSnapshot.depth_toJson s.world
  have hframe (f : WorldFrame) : f.toJson.depth ≤ 4 := by
    have hw := f.world.depth_toJson
    simp only [WorldFrame.toJson,depth,depthMembers,depth_ofUInt64]
    omega
  have hinterrupt (i : ScheduledInterrupt) : i.toJson.depth ≤ 1 := Nat.le_refl 1
  have hframes := depth_ofList hframe s.worldFrames
  have hinterrupts := depth_ofList hinterrupt s.interrupts
  have hbehaviors := depth_ofMap BehaviorScript.depth_toJson s.behaviors
  simp only [toJson,depth,depthMembers,depth_ofUInt64]
  omega

theorem lossless (s : HostScript) : Lossless toJson ofJson? s :=
  lossless_of_depth s.ofJson?_toJson (Nat.le_trans s.depth_toJson (by decide))

end HostScript

namespace HostEvent

theorem ofJson?_toJson (e : HostEvent) : ofJson? e.toJson = some e := by
  have hid {kind : IdKind} (id : Identifier kind) : id.toJson.readable = true := rfl
  have hcount (n : UInt32) : (ofUInt32 n).readable = true := rfl
  cases e with
  | resolved behavior resumedFrom =>
    have hr : readableMembers [("behavior",behavior.toJson),
        ("resumed_from",ofOption ofUInt32 resumedFrom)] = true := by
      cases resumedFrom <;> rfl
    rw [ofJson?,toJson,tagged?_object (by simp) hr]
    simp [fields?,field?,required,isComplete,optional_ofUInt32,Identifier.toJson,Identifier.ofJson?,
      asString?]
  | stepped state behavior step params =>
    rw [ofJson?,toJson,tagged?_object (by simp)
      (by simp [readableMembers,hid,hcount,params.readable_toJson])]
    simp [fields?,field?,required,BehaviorParams.ofJson?_toJson,Identifier.toJson,Identifier.ofJson?,
      asString?,asUInt32?_ofUInt32]
  | paused behavior step =>
    rw [ofJson?,toJson,tagged?_object (by simp) rfl]
    simp [counted?,fields?,field?,required,Identifier.toJson,Identifier.ofJson?,asString?,
      asUInt32?_ofUInt32]
  | cancelled behavior step =>
    rw [ofJson?,toJson,tagged?_object (by simp) rfl]
    simp [counted?,fields?,field?,required,Identifier.toJson,Identifier.ofJson?,asString?,
      asUInt32?_ofUInt32]

theorem depth_toJson (e : HostEvent) : e.toJson.depth ≤ 2 := by
  cases e with
  | resolved behavior resumedFrom => cases resumedFrom <;> exact Nat.le_succ 1
  | stepped state behavior step params =>
    have hparams := params.depth_toJson
    simp only [toJson,depth,depthMembers,depth_ofUInt32,Identifier.toJson]
    omega
  | paused behavior step => exact Nat.le_succ 1
  | cancelled behavior step => exact Nat.le_succ 1

theorem lossless (e : HostEvent) : Lossless toJson ofJson? e :=
  lossless_of_depth e.ofJson?_toJson (Nat.le_trans e.depth_toJson (by decide))

end HostEvent

end BehaviorMachine
