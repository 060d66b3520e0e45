import BehaviorMachine.Proofs.Run.Calls

/-!
# What happens in a run

The calls of a run and its changes of state make one list, in their order. `streak` counts the changes
since the last wait along it.
-/
namespace BehaviorMachine

variable {σ β : Type}

namespace Call

def isWait : Call → Bool
  | .wait .. => true
  | _ => false

def isDenied : Call → Bool
  | .wait _ granted => !granted
  | _ => false

end Call

inductive Happening where
  | call (c : Call)
  | change (c : StateChange)

namespace Happening

def call? : Happening → Option Call
  | .call c => some c
  | .change _ => none

def change? : Happening → Option StateChange
  | .call _ => none
  | .change c => some c

def isWait : Happening → Bool
  | .call c => c.isWait
  | .change _ => false

def isChange : Happening → Bool
  | .call _ => false
  | .change _ => true

def count (since : Nat) : Happening → Nat
  | .call c => if c.isWait then 0 else since
  | .change _ => since + 1

/-- The changes since the last wait after some happenings, counted on from a number. -/
def streak (since : Nat) (happenings : List Happening) : Nat := happenings.foldl count since

def Bounded (limit since : Nat) (happenings : List Happening) : Prop :=
  ∀ first, first <+: happenings → streak since first ≤ limit

theorem streak_cons (since : Nat) (e : Happening) (rest : List Happening) :
    streak since (e :: rest) = streak (count since e) rest :=
  rfl

theorem streak_append (since : Nat) (first last : List Happening) :
    streak since (first ++ last) = streak (streak since first) last :=
  List.foldl_append

theorem streak_waitless {part : List Happening} (hw : ∀ e ∈ part, e.isWait = false) (since : Nat) :
    streak since part = since + part.countP isChange := by
  induction part generalizing since with
  | nil => rfl
  | cons e rest ih =>
    have hrest := ih fun e' he => hw e' (List.mem_cons_of_mem e he)
    rw [streak_cons,hrest,List.countP_cons]
    cases e with
    | call c =>
      have hc : c.isWait = false := hw _ List.mem_cons_self
      simp [count,hc,isChange]
    | change c =>
      simp only [count,isChange,if_true]
      omega

theorem streak_calls {calls : List Call} (hw : ∀ c ∈ calls, c.isWait = false) (since : Nat) :
    streak since (calls.map .call) = since := by
  have hpart : ∀ e ∈ calls.map Happening.call, e.isWait = false := by
    intro e he
    obtain ⟨c,hc,rfl⟩ := List.mem_map.mp he
    exact hw c hc
  have hnone : (calls.map Happening.call).countP isChange = 0 := by
    apply List.countP_eq_zero.mpr
    intro e he
    obtain ⟨c,hc,rfl⟩ := List.mem_map.mp he
    simp [isChange]
  rw [streak_waitless hpart,hnone,Nat.add_zero]

theorem streak_calls_le (calls : List Call) (since : Nat) :
    streak since (calls.map .call) ≤ since := by
  induction calls generalizing since with
  | nil => exact Nat.le_refl since
  | cons c rest ih =>
    rw [List.map_cons,streak_cons,count]
    apply Nat.le_trans (ih _)
    split
    · exact Nat.zero_le since
    · exact Nat.le_refl since

theorem Bounded.append {limit since : Nat} {first last : List Happening}
    (hf : Bounded limit since first) (hl : Bounded limit (streak since first) last) :
    Bounded limit since (first ++ last) := by
  intro part hp
  rcases List.prefix_or_prefix_of_prefix hp (List.prefix_append first last) with hp' | ⟨rest,rfl⟩
  · exact hf part hp'
  · rw [streak_append]
    exact hl rest ((List.prefix_append_right_inj first).mp hp)

theorem bounded_calls {limit since : Nat} (calls : List Call) (hs : since ≤ limit) :
    Bounded limit since (calls.map .call) := by
  intro part hp
  obtain ⟨first,-,rfl⟩ := List.prefix_map_iff.mp hp
  exact Nat.le_trans (streak_calls_le first since) hs

theorem bounded_change {limit since : Nat} (c : StateChange) (hs : since + 1 ≤ limit) :
    Bounded limit since [.change c] := by
  intro part hp
  rcases List.prefix_cons_iff.mp hp with rfl | ⟨rest,rfl,hrest⟩
  · exact Nat.le_of_succ_le hs
  · obtain rfl := List.prefix_nil.mp hrest
    exact hs

/-- Where the count is bounded, so are the changes in a part without a wait. -/
theorem Bounded.part {limit since : Nat} {happenings part : List Happening}
    (hb : Bounded limit since happenings) (hp : part <:+: happenings)
    (hw : ∀ e ∈ part, e.isWait = false) : part.countP isChange ≤ limit := by
  obtain ⟨first,last,rfl⟩ := hp
  have hle := hb (first ++ part) (List.prefix_append (first ++ part) last)
  rw [streak_append,streak_waitless hw] at hle
  omega

end Happening

namespace Machine

/-- What happens in an iteration: its calls, and in the end the change of state if it makes one. -/
def happenings (m : Machine) (h : Host σ β) (x : Execution (Observed σ) (Nat × β)) :
    List Happening :=
  let y := (m.step h.observed x).2
  (y.host.calls.drop x.host.calls.length).map .call ++
    (y.history.drop x.history.length).map .change

/-- What happens in a number of iterations. -/
def trace (m : Machine) (h : Host σ β) :
    Nat → Execution (Observed σ) (Nat × β) → List Happening
  | 0, _ => []
  | n+1, x => m.trace h n x ++ m.happenings h (m.after h.observed n x)

variable {m : Machine} {h : Host σ β} {x : Execution (Observed σ) (Nat × β)}

/-- What happens in an iteration, by the calls and the changes that it adds. -/
theorem happenings_eq {calls : List Call} {changes : List StateChange}
    (hc : (m.step h.observed x).2.host.calls = x.host.calls ++ calls)
    (hn : (m.step h.observed x).2.history = x.history ++ changes) :
    m.happenings h x = calls.map .call ++ changes.map .change := by
  rw [happenings,hc,hn,List.drop_left,List.drop_left]

theorem call_mem_happenings {calls : List Call} {c : Call}
    (hc : (m.step h.observed x).2.host.calls = x.host.calls ++ calls) :
    .call c ∈ m.happenings h x ↔ c ∈ calls := by
  rw [happenings,hc,List.drop_left,List.mem_append,List.mem_map]
  simp only [List.mem_map,reduceCtorEq,and_false,exists_false,or_false,Happening.call.injEq,
    exists_eq_right]

theorem step_adds (m : Machine) (h : Host σ β) (x : Execution (Observed σ) (Nat × β)) :
    ∃ calls changes, (m.step h.observed x).2.host.calls = x.host.calls ++ calls ∧
      (m.step h.observed x).2.history = x.history ++ changes := by
  obtain ⟨first,effort,last,hc,-⟩ := (step_iteration m h.observed x).works
  obtain ⟨new,hn⟩ := step_changes m h.observed x
  refine ⟨_,new.reverse,hc,?_⟩
  rw [Execution.history,← hn,List.reverse_append]
  rfl

theorem call?_happenings (m : Machine) (h : Host σ β) (x : Execution (Observed σ) (Nat × β)) :
    x.host.calls ++ (m.happenings h x).filterMap Happening.call? =
      (m.step h.observed x).2.host.calls := by
  obtain ⟨calls,changes,hc,hn⟩ := step_adds m h x
  have hcalls : Happening.call? ∘ Happening.call = some := rfl
  have hchanges : (changes.map Happening.change).filterMap Happening.call? = [] := by
    simp [List.filterMap_eq_nil_iff,Happening.call?]
  rw [happenings_eq hc hn,hc,List.filterMap_append,List.filterMap_map,hcalls,hchanges,
    List.filterMap_some,List.append_nil]

theorem change?_happenings (m : Machine) (h : Host σ β) (x : Execution (Observed σ) (Nat × β)) :
    x.history ++ (m.happenings h x).filterMap Happening.change? =
      (m.step h.observed x).2.history := by
  obtain ⟨calls,changes,hc,hn⟩ := step_adds m h x
  have hcalls : (calls.map Happening.call).filterMap Happening.change? = [] := by
    simp [List.filterMap_eq_nil_iff,Happening.change?]
  have hchanges : Happening.change? ∘ Happening.change = some := rfl
  rw [happenings_eq hc hn,hn,List.filterMap_append,List.filterMap_map (l := changes),hcalls,hchanges,
    List.filterMap_some,List.nil_append]

theorem call?_trace (m : Machine) (h : Host σ β) (n : Nat)
    (x : Execution (Observed σ) (Nat × β)) :
    x.host.calls ++ (m.trace h n x).filterMap Happening.call? =
      (m.after h.observed n x).host.calls := by
  induction n with
  | zero => exact List.append_nil _
  | succ n ih => rw [trace,List.filterMap_append,← List.append_assoc,ih,call?_happenings,after]

theorem change?_trace (m : Machine) (h : Host σ β) (n : Nat)
    (x : Execution (Observed σ) (Nat × β)) :
    x.history ++ (m.trace h n x).filterMap Happening.change? =
      (m.after h.observed n x).history := by
  induction n with
  | zero => exact List.append_nil _
  | succ n ih => rw [trace,List.filterMap_append,← List.append_assoc,ih,change?_happenings,after]

end Machine

end BehaviorMachine
