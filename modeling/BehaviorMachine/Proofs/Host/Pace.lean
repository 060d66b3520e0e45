import BehaviorMachine.Proofs.Host.Replay
import BehaviorMachine.Proofs.Run.Observation
import Mathlib.Data.List.Nodup

/-!
# The pace of scripted behaviors

A scripted behavior takes its steps one after another, and takes one only if all before it have left it
running. Its steps are numbered from one on then, without gaps (`Counted.numbers`), so a write that
belongs to one step is made once (`Counted.once`), and a behavior that takes some steps to complete does
so at the last of them (`Counted.completes_iff`).
-/
namespace BehaviorMachine

structure ScriptedStep where
  state : StateSpec
  number : UInt32
  params : BehaviorParams
  /-- The writes of the script that are made. -/
  made : List PortWriteScript
  result : StepResult

namespace ScriptedStep

/-- The call that a run makes for the step: where, with which parameters, with which writes, and to
which end. -/
def call (t : ScriptedStep) : StateId × BehaviorParams × List PortWrite × StepResult :=
  (t.state.id,t.params,
    t.made.map fun w => ⟨w.port,w.value,(t.state.outputNamed? w.port).isSome⟩,t.result)

def event (t : ScriptedStep) : HostEvent :=
  .stepped t.state.id t.state.behaviorName t.number t.params

end ScriptedStep

def HostEvent.isStep : HostEvent → Bool
  | .stepped .. => true
  | _ => false

/-- What a script lets happen at a step. Nothing is written if a parameter is missing. -/
def BehaviorScript.stepAt (script : BehaviorScript) (s : StateSpec) (number : UInt32)
    (params : BehaviorParams) : ScriptedStep where
  state := s
  number := number
  params := params
  made :=
    if script.requiredParams.all fun name => (params.get? name).isSome then
      script.writes.filter fun w => w.atStep.all (· = number)
    else []
  result := ScriptedBehavior.answer ⟨s.behaviorName,script,number⟩ params

/-- The steps of a script in a state, as many as counted so far. -/
inductive Counted (script : BehaviorScript) (s : StateSpec) : UInt32 → List ScriptedStep → Prop where
  | start : Counted script s 0 []
  | next {n : UInt32} {steps : List ScriptedStep} (hp : Counted script s n steps)
      (hr : ∀ t ∈ steps, t.result = .running) (params : BehaviorParams) :
      Counted script s (addSaturating32 n 1)
        (steps ++ [script.stepAt s (addSaturating32 n 1) params])

theorem PortProgram.writes_writing {α : Type} (result : α) (list : List (String × ParamValue))
    (s : StateSpec) (values : PortValues) : (writing result list).writes s values =
      list.map fun w => ⟨w.1,w.2,(s.outputNamed? w.1).isSome⟩ := by
  induction list generalizing values with
  | nil => rfl
  | cons w rest ih =>
    simp only [writing,writes,StateSpec.write?,List.map_cons]
    cases s.outputNamed? w.1 with
    | none => simp only [Option.map_none,ih,Option.isSome_none]
    | some port => simp only [Option.map_some,ih,Option.isSome_some]

theorem Replay.writes_step (context : StepContext) (b : ScriptedBehavior) (r : Replay)
    (s : StateSpec) (values : PortValues) : (Replay.step context b r).writes s values =
      (b.script.stepAt s (addSaturating32 b.steps 1) context.params).made.map fun w =>
        ⟨w.port,w.value,(s.outputNamed? w.port).isSome⟩ := by
  simp only [Replay.step,BehaviorScript.stepAt]
  cases hm : b.script.requiredParams.find? fun name => (context.params.get? name).isNone with
  | some missing =>
    have hall : ¬ (b.script.requiredParams.all fun name => (context.params.get? name).isSome) := by
      have hmissing := List.find?_some hm
      rw [List.all_eq_true]
      intro hall
      have hfound := hall missing (List.mem_of_find?_eq_some hm)
      rw [Option.isNone_iff_eq_none] at hmissing
      rw [hmissing] at hfound
      cases hfound
    rw [if_neg hall]
    rfl
  | none =>
    have hall : b.script.requiredParams.all fun name => (context.params.get? name).isSome := by
      rw [List.all_eq_true]
      intro name hn
      have hfound := List.find?_eq_none.mp hm name hn
      simpa [Option.isSome_iff_ne_none] using hfound
    dsimp only
    rw [if_pos hall,PortProgram.writes_writing,ScriptedBehavior.dueWrites,List.map_map]
    rfl

theorem ScriptedBehavior.answer_completed_iff {b : ScriptedBehavior} {params : BehaviorParams}
    {total : UInt32} (ht : b.script.stepsToComplete = some total)
    (hf : ∀ error, b.answer params ≠ .failed error) :
    b.answer params = .completed ↔ total ≤ b.steps := by
  rw [answer] at hf ⊢
  split at hf
  · exact absurd rfl (hf _)
  · rw [result] at hf ⊢
    split at hf
    · exact absurd rfl (hf _)
    · next hn => simp [hn,ht]

theorem BehaviorScript.count_made_le_count (script : BehaviorScript) (s : StateSpec)
    (number : UInt32) (params : BehaviorParams) (w : PortWriteScript) :
    (script.stepAt s number params).made.count w ≤ script.writes.count w := by
  rw [stepAt]
  split
  · exact List.filter_sublist.count_le w
  · simp

theorem BehaviorScript.count_made_other (script : BehaviorScript) (s : StateSpec) {number : UInt32}
    (params : BehaviorParams) {w : PortWriteScript} {step : UInt32} (hw : w.atStep = some step)
    (hn : number ≠ step) : (script.stepAt s number params).made.count w = 0 := by
  rw [List.count_eq_zero,stepAt]
  split
  · intro hm
    have hdue := (List.mem_filter.mp hm).2
    rw [hw] at hdue
    exact hn (of_decide_eq_true hdue).symm
  · exact List.not_mem_nil

/-- Among steps with numbers of their own, one at most has the number that a write belongs to. -/
theorem ScriptedStep.count_made_le {steps : List ScriptedStep} {w : PortWriteScript}
    {step : UInt32} {k : Nat} (hd : (steps.map (·.number)).Nodup)
    (hother : ∀ t ∈ steps, t.number ≠ step → t.made.count w = 0)
    (hmade : ∀ t ∈ steps, t.made.count w ≤ k) : (steps.flatMap (·.made)).count w ≤ k := by
  induction steps with
  | nil => simp
  | cons t rest ih =>
    obtain ⟨hfirst,hrest⟩ := List.nodup_cons.mp hd
    rw [List.flatMap_cons,List.count_append]
    by_cases ht : t.number = step
    · have hzero : (rest.flatMap (·.made)).count w = 0 := by
        rw [List.count_eq_zero,List.mem_flatMap]
        rintro ⟨t',ht',hm⟩
        refine List.count_eq_zero.mp (hother t' (List.mem_cons_of_mem _ ht') ?_) hm
        intro hsame
        have hmem := List.mem_map_of_mem (f := (·.number)) ht'
        rw [hsame,← ht] at hmem
        exact hfirst hmem
      rw [hzero]
      exact hmade t List.mem_cons_self
    · rw [hother t List.mem_cons_self ht,Nat.zero_add]
      exact ih hrest (fun t' ht' => hother t' (List.mem_cons_of_mem _ ht'))
        (fun t' ht' => hmade t' (List.mem_cons_of_mem _ ht'))

namespace Counted

variable {script : BehaviorScript} {s : StateSpec} {n : UInt32} {steps : List ScriptedStep}

theorem toNat_next {k : Nat} (hn : n.toNat = min k (UInt32.size - 1)) :
    (addSaturating32 n 1).toNat = min (k + 1) (UInt32.size - 1) := by
  have hone : (1 : UInt32).toNat = 1 := rfl
  rw [addSaturating32,toNat_word32,hn]
  omega

theorem count (hp : Counted script s n steps) : n.toNat = min steps.length (UInt32.size - 1) := by
  induction hp with
  | start => rfl
  | next hp hr params ih =>
    rw [toNat_next ih,List.length_append,List.length_singleton]

/-- Before the count is at its end, the steps are numbered without gap or repetition. -/
theorem numbers (hp : Counted script s n steps) (hl : steps.length < UInt32.size) :
    steps.map (·.number.toNat) = List.range' 1 steps.length := by
  induction hp with
  | start => rfl
  | @next n steps hp hr params ih =>
    rw [List.length_append,List.length_singleton] at hl ⊢
    have hnext : (addSaturating32 n 1).toNat = 1 + steps.length := by
      rw [toNat_next hp.count]
      omega
    rw [List.map_append,ih (by omega),List.range'_1_concat,← hnext]
    rfl

theorem scripted (hp : Counted script s n steps) :
    ∀ t ∈ steps, t = script.stepAt s t.number t.params := by
  induction hp with
  | start => simp
  | next hp hr params ih =>
    refine List.forall_mem_append.mpr ⟨ih,?_⟩
    simp [BehaviorScript.stepAt]

theorem running (hp : Counted script s n steps) : ∀ t ∈ steps.dropLast, t.result = .running := by
  cases hp with
  | start => simp
  | next hp hr params =>
    rw [List.dropLast_concat]
    exact hr

theorem once (hp : Counted script s n steps) (hl : steps.length < UInt32.size) {w : PortWriteScript}
    {step : UInt32} (hw : w.atStep = some step) :
    (steps.flatMap (·.made)).count w ≤ script.writes.count w := by
  have hnodup : (steps.map (·.number)).Nodup := by
    have hn : (steps.map (·.number.toNat)).Nodup := by
      rw [hp.numbers hl]
      exact List.nodup_range'
    apply List.Nodup.of_map UInt32.toNat
    rw [List.map_map]
    exact hn
  have hother : ∀ t ∈ steps, t.number ≠ step → t.made.count w = 0 := by
    intro t ht hn
    rw [hp.scripted t ht]
    exact script.count_made_other s t.params hw hn
  apply ScriptedStep.count_made_le hnodup hother
  intro t ht
  rw [hp.scripted t ht]
  exact script.count_made_le_count s t.number t.params w

theorem next_completed_iff (hp : Counted script s n steps) {total : UInt32}
    (htotal : script.stepsToComplete = some total) (params : BehaviorParams)
    (hf : ∀ error, (script.stepAt s (addSaturating32 n 1) params).result ≠ .failed error) :
    (script.stepAt s (addSaturating32 n 1) params).result = .completed ↔
      total.toNat ≤ steps.length + 1 := by
  have hbound := total.toNat_lt_size
  refine (ScriptedBehavior.answer_completed_iff htotal hf).trans ?_
  rw [UInt32.le_iff_toNat_le,toNat_next hp.count]
  omega

theorem length_lt (hp : Counted script s n steps) {total : UInt32}
    (htotal : script.stepsToComplete = some total) (hr : ∀ t ∈ steps, t.result = .running) :
    steps.length < max total.toNat 1 := by
  cases hp with
  | start => exact Nat.lt_of_lt_of_le Nat.one_pos (Nat.le_max_right _ _)
  | next hp _ params =>
    have hlast := hr _ (List.mem_append_right _ List.mem_cons_self)
    have hcompleted := hp.next_completed_iff htotal params (by simp [hlast])
    rw [hlast] at hcompleted
    simp only [reduceCtorEq,false_iff] at hcompleted
    rw [List.length_append,List.length_singleton]
    omega

/-- A behavior that takes a number of steps and does not fail completes at the last of these, or at
the first step if the number is zero. -/
theorem completes_iff (hp : Counted script s n steps) {total : UInt32}
    (htotal : script.stepsToComplete = some total)
    (hf : ∀ t ∈ steps, ∀ error, t.result ≠ .failed error) : steps.length ≤ max total.toNat 1 ∧
      ∀ t ∈ steps, (t.result = .completed ↔ t.number.toNat = max total.toNat 1) := by
  cases hp with
  | start => exact ⟨Nat.zero_le _,by simp⟩
  | @next n steps hp hr params =>
    have hless := hp.length_lt htotal hr
    have hbound := total.toNat_lt_size
    have hsize : 1 < UInt32.size := by decide
    have hnumbers := hp.numbers (by omega)
    refine ⟨by rw [List.length_append,List.length_singleton]; omega,?_⟩
    intro t ht
    rcases List.mem_append.mp ht with ht | ht
    · -- the steps before are running, and their numbers too low
      have hnumber := List.mem_map_of_mem (f := (·.number.toNat)) ht
      rw [hnumbers,List.mem_range'_1] at hnumber
      rw [hr t ht]
      simp only [reduceCtorEq,false_iff]
      omega
    · have hlast := hp.next_completed_iff htotal params
        (hf _ (List.mem_append_right _ List.mem_cons_self))
      have hnumber := toNat_next hp.count
      obtain rfl := List.mem_singleton.mp ht
      rw [hlast]
      show _ ↔ (addSaturating32 n 1).toNat = _
      omega

end Counted

/-- The steps that a script takes in a state, one after another and each of them once. -/
structure TakenOnce (script : BehaviorScript) (s : StateSpec) (steps : List ScriptedStep) : Prop where
  scripted : ∀ t ∈ steps, t = script.stepAt s t.number t.params
  numbered : steps.length < UInt32.size →
    steps.map (·.number.toNat) = List.range' 1 steps.length
  /-- Each write that belongs to one step is made once at most. -/
  once : steps.length < UInt32.size → ∀ w step, w.atStep = some step →
    (steps.flatMap (·.made)).count w ≤ script.writes.count w
  /-- The last step may have ended the behavior. -/
  running : ∀ t ∈ steps.dropLast, t.result = .running
  completes : ∀ total, script.stepsToComplete = some total →
    (∀ t ∈ steps, ∀ error, t.result ≠ .failed error) → steps.length ≤ max total.toNat 1 ∧
      ∀ t ∈ steps, (t.result = .completed ↔ t.number.toNat = max total.toNat 1)

theorem Counted.takenOnce {script : BehaviorScript} {s : StateSpec} {n : UInt32}
    {steps : List ScriptedStep} (hp : Counted script s n steps) : TakenOnce script s steps where
  scripted := hp.scripted
  numbered hl := hp.numbers hl
  once hl _ _ hw := hp.once hl hw
  running := hp.running
  completes _ htotal hf := hp.completes_iff htotal hf

end BehaviorMachine
