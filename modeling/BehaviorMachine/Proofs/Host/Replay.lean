import BehaviorMachine.Host.Replay

/-!
# Scripted hosts

What each call does to a host that replays a script. Only a granted wait moves its clock, and never
beyond the ticks that the script grants.
-/
namespace BehaviorMachine

def ScriptedBehavior.answer (b : ScriptedBehavior) (params : BehaviorParams) : StepResult :=
  match b.script.requiredParams.find? fun name => (params.get? name).isNone with
  | some missing => .failed (.invalidParams s!"{b.name} requires {missing}")
  | none => b.result

theorem PortProgram.run_writing {α : Type} (result : α) (writes : List (String × ParamValue))
    (s : StateSpec) (values : PortValues) :
    ((PortProgram.writing result writes).run s values).1 = result := by
  induction writes generalizing values with
  | nil => rfl
  | cons w rest ih =>
    simp only [writing,run]
    cases s.write? values w.1 w.2 with
    | none => exact ih values
    | some written => exact ih written

theorem PortProgram.map_writing {α γ : Type} (f : α → γ) (result : α)
    (writes : List (String × ParamValue)) :
    (writing result writes).map f = writing (f result) writes := by
  induction writes with
  | nil => rfl
  | cons w rest ih => simp only [writing,map,ih]

namespace Replay

theorem run_step (context : StepContext) (b : ScriptedBehavior) (r : Replay) (s : StateSpec)
    (values : PortValues) : ((Replay.step context b r).run s values).1 =
      (({ b with steps := addSaturating32 b.steps 1 } : ScriptedBehavior).answer context.params,
        { b with steps := addSaturating32 b.steps 1 },
        r.record (.stepped context.state b.name (addSaturating32 b.steps 1) context.params)) := by
  simp only [Replay.step,ScriptedBehavior.answer]
  cases b.script.requiredParams.find? fun name => (context.params.get? name).isNone with
  | some missing => rfl
  | none => exact PortProgram.run_writing _ _ s values

theorem wait_frame (ticks : UInt32) (r : Replay) : (r.wait ticks).2 =
    { r with
      tick := (r.wait ticks).2.tick
      world := (r.wait ticks).2.world
      frames := (r.wait ticks).2.frames } := by
  rw [Replay.wait]
  split <;> rfl

theorem poll_frame (r : Replay) :
    r.poll.2 = { r with interrupts := r.poll.2.interrupts } := by
  rw [Replay.poll]
  split
  · rfl
  · split <;> rfl

theorem poll_early {r : Replay} (hr : ∀ i ∈ r.interrupts, r.tick < i.atTick) :
    r.poll = (none,r) := by
  rw [poll]
  split
  · rfl
  · next i rest hi => exact if_neg (UInt64.not_le.mpr (hr i (by simp [hi])))

/-- If the interrupts are in order, a poll finds none only where none is due. -/
theorem poll_eq_none_iff {r : Replay} (ho : r.interrupts.Pairwise fun i j => i.atTick ≤ j.atTick) :
    r.poll.1 = none ↔ ∀ i ∈ r.interrupts, r.tick < i.atTick := by
  constructor
  · intro hp i hi
    rw [poll] at hp
    split at hp
    · next hn =>
      rw [hn] at hi
      cases hi
    · next first rest hq =>
      rw [hq] at hi ho
      split at hp
      · cases hp
      · next hn =>
        have hfirst : r.tick < first.atTick := UInt64.not_le.mp hn
        rcases List.mem_cons.mp hi with rfl | hm
        · exact hfirst
        · exact UInt64.lt_of_lt_of_le hfirst ((List.pairwise_cons.mp ho).1 i hm)
  · intro hearly
    rw [poll_early hearly]

theorem events_record (r : Replay) (e : HostEvent) : (r.record e).events = r.events ++ [e] := by
  rw [events,record,List.reverse_cons,events]

/-- The clock stands still. -/
def Still (r r' : Replay) : Prop := r'.tick = r.tick ∧ r'.maxTicks = r.maxTicks

theorem poll_still {r r' : Replay} {answer : Option Interrupt} (hp : r.poll = (answer,r')) :
    Still r r' := by
  have hr : r.poll.2 = r' := by rw [hp]
  rw [← hr,poll_frame]
  exact ⟨rfl,rfl⟩

theorem resolve_still {name : BehaviorName} {token : Option ResumeToken} {r r' : Replay}
    {b : Option ScriptedBehavior} (hr : r.resolve name token = (b,r')) : Still r r' := by
  rw [resolve] at hr
  split at hr
  · cases hr
    exact ⟨rfl,rfl⟩
  · cases hr
    exact ⟨rfl,rfl⟩

theorem step_still {context : StepContext} {b b' : ScriptedBehavior} {r r' : Replay} {s : StateSpec}
    {values values' : PortValues} {result : StepResult}
    (hs : (Replay.step context b r).run s values = ((result,b',r'),values')) : Still r r' := by
  have hr := run_step context b r s values
  rw [hs] at hr
  cases hr
  exact ⟨rfl,rfl⟩

theorem wait_denied {ticks : UInt32} {r r' : Replay} (hw : r.wait ticks = (false,r')) : r' = r := by
  rw [wait] at hw
  split at hw
  · cases hw
    rfl
  · cases hw

theorem wait_granted {ticks : UInt32} {r r' : Replay} (hw : r.wait ticks = (true,r')) :
    r'.tick.toNat = min (r.tick.toNat + ticks.toNat) (UInt64.size - 1) ∧
      r'.maxTicks = r.maxTicks ∧ r'.tick ≤ r'.maxTicks := by
  rw [wait] at hw
  split at hw
  · cases hw
  · next hn =>
    cases hw
    refine ⟨?_,rfl,UInt64.not_lt.mp hn⟩
    simp only [applyFrames,addSaturating,toNat_word64,UInt32.toNat_toUInt64]

end Replay

end BehaviorMachine
