import BehaviorMachine.Proofs.Run.Happening
import BehaviorMachine.Proofs.Run.Termination

/-!
# Runs yield to their hosts

The state changes between two waits are limited by the budget, whatever causes them
(`trace_bounded`), and a denied wait ends its iteration (`Iteration.denial`).
-/
namespace BehaviorMachine

variable {σ β : Type}

namespace Machine

open Execution Observed Happening

/-- The state changes that the budget allows between two waits. At least one is always made. -/
def changeLimit (m : Machine) : Nat := max m.budgets.maxTransitionsPerTick.toNat 1

variable {m : Machine} {h : Host σ β} {x y z : Execution (Observed σ) (Nat × β)}

/-- The calls of an execution up to a state of its host bring the count of changes to a number. -/
def Counts (x : Execution (Observed σ) (Nat × β)) (r : Observed σ) (k : Nat) : Prop :=
  ∃ calls, r.calls = x.host.calls ++ calls ∧
    streak x.changesSinceWait.toNat (calls.map .call) = k

theorem counts_refl (x : Execution (Observed σ) (Nat × β)) :
    Counts x x.host x.changesSinceWait.toNat :=
  ⟨[],(List.append_nil _).symm,rfl⟩

theorem Counts.waitless {r r' : Observed σ} {k : Nat} (hr : Counts x r k)
    (hg : Grows (fun c => c.isWait = false) r r') : Counts x r' k := by
  obtain ⟨calls,hc,hk⟩ := hr
  obtain ⟨new,hn,hw⟩ := hg
  refine ⟨calls ++ new,by rw [hn,hc,List.append_assoc],?_⟩
  rw [List.map_append,streak_append,hk,streak_calls hw]

theorem Counts.wait {r r' : Observed σ} {k : Nat} {ticks : UInt32} {granted : Bool}
    (hr : Counts x r k) (hw : h.observed.wait ticks r = (granted,r')) : Counts x r' 0 := by
  obtain ⟨calls,hc,-⟩ := hr
  refine ⟨calls ++ [.wait ticks granted],by rw [wait_calls hw,hc,List.append_assoc],?_⟩
  rw [List.map_append,streak_append]
  rfl

theorem Ready.counts (hy : Ready m h.observed x y) :
    Counts x y.host y.changesSinceWait.toNat ∧ y.changesSinceWait.toNat + 1 ≤ m.changeLimit := by
  cases hy with
  | within hb =>
    have hlt := UInt32.lt_iff_toNat_lt.mp (UInt32.not_le.mp hb)
    exact ⟨counts_refl x,Nat.le_trans hlt (Nat.le_max_left _ _)⟩
  | yielded hb hw => exact ⟨(counts_refl x).wait hw,Nat.le_max_right _ _⟩

theorem poll_waitless {answer : Option Interrupt} {r r' : Observed σ}
    (hp : h.observed.poll r = (answer,r')) : Grows (fun c => c.isWait = false) r r' :=
  poll_adds (fun _ => rfl) hp

theorem Undisturbed.waitless {s : StateSpec} (hy : Undisturbed m h.observed s x y) :
    Grows (fun c => c.isWait = false) x.host y.host := by
  cases hy with
  | quiet hp => exact poll_waitless hp
  | ignored hp hr => exact poll_waitless hp

theorem pause_waitless (x : Execution (Observed σ) (Nat × β)) :
    Grows (fun c => c.isWait = false) x.host (x.pause h.observed).host :=
  pause_adds (fun _ _ => rfl) x

theorem enter_waitless (source target : StateId) (cause : ChangeCause) (now : Timestamp)
    (x : Execution (Observed σ) (Nat × β)) :
    Grows (fun c => c.isWait = false) x.host (x.enter h.observed source target cause now).host :=
  enter_adds (fun _ => rfl) source target cause now x

theorem Driven.waitless {s : StateSpec} {ticks : UInt32} (hs : m.currentState? x.session = some s)
    (hd : Driven m h.observed s x ticks y) : Grows (fun c => c.isWait = false) x.host y.host := by
  refine hd.adds ?_ hs
  rintro s values c (_ | _)
  · rfl
  · rfl

/-- An execution that stays in its state has the count as its own; one that enters a state has made
one change more, within the limit. -/
inductive Paced (m : Machine) (x y : Execution (Observed σ) (Nat × β)) : Prop where
  | stays (hk : Counts x y.host y.changesSinceWait.toNat) (hc : y.changes = x.changes)
  | enters {k : Nat} {c : StateChange} (hk : Counts x y.host k) (hc : y.changes = c :: x.changes)
      (hn : y.changesSinceWait.toNat = k + 1) (hl : k + 1 ≤ m.changeLimit)

theorem paced_enter {k : Nat} (hz : Counts x z.host k) (hk : z.changesSinceWait.toNat = k)
    (hl : k + 1 ≤ m.changeLimit) (hc : z.changes = x.changes) (source target : StateId)
    (cause : ChangeCause) (now : Timestamp) :
    Paced m x (z.enter h.observed source target cause now) := by
  have hword : m.changeLimit < UInt32.size := by
    have hmax := m.budgets.maxTransitionsPerTick.toNat_lt_size
    rw [changeLimit]
    exact Nat.max_lt.mpr ⟨hmax,by decide⟩
  have hk' := hz.waitless (enter_waitless (h := h) source target cause now z)
  refine .enters (c := ⟨source,target,cause,now,z.session.ticksInState⟩) hk' ?_ ?_ hl
  · rw [enter_changes,hc]
  · rw [enter_eq]
    dsimp only
    rw [addSaturating32,toNat_word32,UInt32.toNat_one,hk]
    omega

theorem paced_pause (hz : Counts x z.host z.changesSinceWait.toNat) (hc : z.changes = x.changes) :
    Paced m x (z.pause h.observed) := by
  have hk := hz.waitless (pause_waitless (h := h) z)
  refine .stays ?_ ?_
  · rw [pause_frame] at hk ⊢
    exact hk
  · rw [pause_frame]
    exact hc

theorem Iteration.paced {flow : Flow} (hi : Iteration m h.observed x flow y) : Paced m x y := by
  cases hi with
  | idle hs => exact .stays (counts_refl x) rfl
  | terminated hs hr => exact .stays (counts_refl x) rfl
  | @yieldDenied s host hs hb hw =>
    exact paced_pause (z := { x with host, changesSinceWait := 0 }) ((counts_refl x).wait hw) rfl
  | @redirected s y i target host hs hy hp hr =>
    obtain ⟨hk,hl⟩ := hy.counts
    refine paced_enter (z := { y with host }) (hk.waitless (poll_waitless hp)) rfl hl ?_ ..
    rw [hy.frame]
  | @interrupted s y i host hs hy hp hr =>
    refine paced_pause (z := { y with host }) (hy.counts.1.waitless (poll_waitless hp)) ?_
    rw [hy.frame]
  | @fired s y z t hs hy hz ht =>
    obtain ⟨hk,hl⟩ := hy.counts
    refine paced_enter (hk.waitless hz.waitless) ?_ hl ?_ ..
    · rw [hz.frame]
    · rw [hz.frame,hy.frame]
  | @denied s y z w ticks host hs hy hz ht hd hw =>
    have hsz := hz.currentState hs hy
    have hk := (hy.counts.1.waitless hz.waitless).waitless (hd.waitless hsz)
    refine paced_pause (z := { w with host, changesSinceWait := 0 }) (hk.wait hw) ?_
    rw [hd.frame,hz.frame,hy.frame]
  | @continued s y z w ticks host hs hy hz ht hd hw =>
    have hsz := hz.currentState hs hy
    have hk := (hy.counts.1.waitless hz.waitless).waitless (hd.waitless hsz)
    refine .stays (hk.wait hw) ?_
    rw [hd.frame,hz.frame,hy.frame]

theorem Iteration.bounded {flow : Flow} (hi : Iteration m h.observed x flow y)
    (hx : x.changesSinceWait.toNat ≤ m.changeLimit) :
    Bounded m.changeLimit x.changesSinceWait.toNat (m.happenings h x) ∧
      streak x.changesSinceWait.toNat (m.happenings h x) = y.changesSinceWait.toNat ∧
      y.changesSinceWait.toNat ≤ m.changeLimit := by
  have hy : (m.step h.observed x).2 = y := by rw [hi.step_eq]
  cases hi.paced with
  | stays hk hc =>
    obtain ⟨calls,hcalls,hk⟩ := hk
    have hh : m.happenings h x = calls.map .call ++ [].map .change := by
      apply happenings_eq
      · rw [hy,hcalls]
      · rw [hy,history,history,hc,List.append_nil]
    rw [hh,List.map_nil,List.append_nil]
    refine ⟨bounded_calls calls hx,hk,?_⟩
    rw [← hk]
    exact Nat.le_trans (streak_calls_le calls _) hx
  | @enters k c hk hc hn hl =>
    obtain ⟨calls,hcalls,hk⟩ := hk
    have hh : m.happenings h x = calls.map .call ++ [c].map .change := by
      apply happenings_eq
      · rw [hy,hcalls]
      · rw [hy,history,history,hc,List.reverse_cons]
    rw [hh]
    refine ⟨(bounded_calls calls hx).append ?_,?_,by rw [hn]; exact hl⟩
    · rw [hk]
      exact bounded_change c hl
    · rw [streak_append,hk,hn]
      rfl

/-- Along a run the count never exceeds the limit. -/
theorem trace_bounded (m : Machine) (h : Host σ β) (x : Execution (Observed σ) (Nat × β))
    (hx : x.changesSinceWait.toNat ≤ m.changeLimit) (n : Nat) :
    Bounded m.changeLimit x.changesSinceWait.toNat (m.trace h n x) ∧
      streak x.changesSinceWait.toNat (m.trace h n x) =
        (m.after h.observed n x).changesSinceWait.toNat ∧
      (m.after h.observed n x).changesSinceWait.toNat ≤ m.changeLimit := by
  induction n with
  | zero => exact ⟨bounded_calls [] hx,rfl,hx⟩
  | succ n ih =>
    obtain ⟨hb,hs,hl⟩ := ih
    obtain ⟨hb',hs',hl'⟩ := (step_iteration m h.observed (m.after h.observed n x)).bounded hl
    refine ⟨hb.append ?_,?_,hl'⟩
    · rw [hs]
      exact hb'
    · rw [trace,streak_append,hs,hs',after]

/-- The host denies a wait of an iteration, which ends with the pause of the live behavior. -/
structure Denial (m : Machine) (h : Host σ β) (x : Execution (Observed σ) (Nat × β))
    (ticks : UInt32) : Prop where
  status : (m.step h.observed x).1 = .exit (.suspended .hostDenied)
  /-- The wait is the last of the calls, but for a pause. -/
  calls : ∃ first last, (m.step h.observed x).2.host.calls =
      x.host.calls ++ first ++ .wait ticks false :: last ∧
    (∀ c ∈ first, c.isDenied = false) ∧ (last = [] ∨ ∃ number token, last = [.pause number token])
  /-- All that is done after the wait is to pause. -/
  ending : ∃ (z : Execution (Observed σ) (Nat × β)) (host : Observed σ),
    h.observed.wait ticks z.host = (false,host) ∧
      (m.step h.observed x).2 = Execution.pause h.observed { z with host, changesSinceWait := 0 }
  /-- Nothing is left to be cancelled. -/
  finish : ((m.step h.observed x).2.finish h.observed (.suspended .hostDenied)).2 =
    (m.step h.observed x).2.host
  position : (m.step h.observed x).2.session.position = x.session.position
  ticksInState : (m.step h.observed x).2.session.ticksInState = x.session.ticksInState

theorem finish_paused (status : RunStatus) (z : Execution (Observed σ) (Nat × β)) :
    ((z.pause h.observed).finish h.observed status).2 = (z.pause h.observed).host := by
  rcases z with ⟨host,session,_|b,changes,since⟩ <;> rfl

theorem denial {ticks : UInt32} {host : Observed σ}
    (hw : h.observed.wait ticks z.host = (false,host))
    (hs : m.step h.observed x = (.exit (.suspended .hostDenied),
      Execution.pause h.observed { z with host, changesSinceWait := 0 }))
    (hg : Grows (fun c => c.isDenied = false) x.host z.host)
    (hp : z.session.position = x.session.position)
    (ht : z.session.ticksInState = x.session.ticksInState) : Denial m h x ticks := by
  obtain ⟨first,hf,hd⟩ := hg
  obtain ⟨last,hl,hlast⟩ := pause_calls (h := h) { z with host, changesSinceWait := 0 }
  refine ⟨by rw [hs],⟨first,last,?_,hd,hlast⟩,⟨z,host,hw,by rw [hs]⟩,?_,?_,?_⟩
  · rw [hs,hl,wait_calls hw,hf,List.append_assoc _ [_] last]
    rfl
  · rw [hs]
    exact finish_paused _ _
  · rw [hs,pause_frame]
    exact hp
  · rw [hs,pause_frame]
    exact ht

theorem notDenied_of_notWait {c : Call} (hc : c.isWait = false) : c.isDenied = false := by
  cases c with
  | wait ticks granted => cases hc
  | _ => rfl

theorem Ready.undenied (hy : Ready m h.observed x y) :
    Grows (fun c => c.isDenied = false) x.host y.host := by
  cases hy with
  | within hb => exact Grows.refl _ _
  | yielded hb hw => exact ⟨_,wait_calls hw,by simp [Call.isDenied]⟩

theorem Iteration.denial {flow : Flow} (hi : Iteration m h.observed x flow y) :
    (∃ ticks, Denial m h x ticks) ∨
      flow ≠ .exit (.suspended .hostDenied) ∧ Grows (fun c => c.isDenied = false) x.host y.host := by
  have hwaitless {r r' : Observed σ} (hg : Grows (fun c => c.isWait = false) r r') :
      Grows (fun c => c.isDenied = false) r r' := hg.mono fun _ => notDenied_of_notWait
  have hstep := hi.step_eq
  cases hi with
  | idle hs => exact .inr ⟨by simp,Grows.refl _ _⟩
  | terminated hs hr => exact .inr ⟨by simp,Grows.refl _ _⟩
  | yieldDenied hs hb hw => exact .inl ⟨_,Machine.denial (z := x) hw hstep (Grows.refl _ _) rfl rfl⟩
  | redirected hs hy hp hr =>
    refine .inr ⟨by simp,?_⟩
    exact hy.undenied.trans (hwaitless ((poll_waitless hp).trans (enter_waitless ..)))
  | interrupted hs hy hp hr =>
    refine .inr ⟨by simp,?_⟩
    exact hy.undenied.trans (hwaitless ((poll_waitless hp).trans (pause_waitless _)))
  | fired hs hy hz ht =>
    refine .inr ⟨by simp,?_⟩
    exact hy.undenied.trans (hwaitless (hz.waitless.trans (enter_waitless ..)))
  | @denied s y z w ticks host hs hy hz ht hd hw =>
    have hsz := hz.currentState hs hy
    have hg := hy.undenied.trans (hwaitless (hz.waitless.trans (hd.waitless hsz)))
    refine .inl ⟨ticks,Machine.denial hw hstep hg ?_ ?_⟩
    · rw [hd.frame,hz.frame,hy.frame]
      rfl
    · rw [hd.frame,hz.frame,hy.frame]
  | @continued s y z w ticks host hs hy hz ht hd hw =>
    have hsz := hz.currentState hs hy
    have hg := hy.undenied.trans (hwaitless (hz.waitless.trans (hd.waitless hsz)))
    exact .inr ⟨by simp,hg.trans ⟨_,wait_calls hw,by simp [Call.isDenied]⟩⟩

theorem Denial.mem_happenings {ticks ticks' : UInt32} (hd : Denial m h x ticks) :
    .call (.wait ticks' false) ∈ m.happenings h x ↔ ticks' = ticks := by
  obtain ⟨first,last,hc,hf,hl⟩ := hd.calls
  rw [List.append_assoc] at hc
  rw [call_mem_happenings hc,List.mem_append,List.mem_cons]
  constructor
  · rintro (hm | hm | hm)
    · have hn := hf _ hm
      cases hn
    · cases hm
      rfl
    · rcases hl with rfl | ⟨number,token,rfl⟩
      · cases hm
      · cases List.mem_singleton.mp hm
  · rintro rfl
    exact .inr (.inl rfl)

/-- A wait is denied exactly in the iterations that end in a denial. -/
theorem step_denial (m : Machine) (h : Host σ β) (x : Execution (Observed σ) (Nat × β)) :
    ((m.step h.observed x).1 = .exit (.suspended .hostDenied) ↔
      ∃ ticks, .call (.wait ticks false) ∈ m.happenings h x) ∧
    ∀ ticks, .call (.wait ticks false) ∈ m.happenings h x → Denial m h x ticks := by
  rcases (step_iteration m h.observed x).denial with ⟨ticks,hd⟩ | ⟨hs,new,hc,hn⟩
  · refine ⟨⟨fun _ => ⟨ticks,hd.mem_happenings.mpr rfl⟩,fun _ => hd.status⟩,?_⟩
    intro ticks' hm
    obtain rfl := hd.mem_happenings.mp hm
    exact hd
  · have hnone (ticks : UInt32) : .call (.wait ticks false) ∉ m.happenings h x := by
      intro hm
      have hw := hn _ ((call_mem_happenings hc).mp hm)
      cases hw
    exact ⟨⟨fun he => absurd he hs,fun ⟨ticks,hm⟩ => absurd hm (hnone ticks)⟩,
      fun ticks hm => absurd hm (hnone ticks)⟩

/-- A run never starves its host. In every part of its course without a wait there are no more state
changes than the budget allows, or one, where the course is made of exactly the calls and the state
changes of the run. A denied wait ends the iteration, after a pause at most, and leaves the session in
its state; no other iteration ends so. -/
theorem run_neverStarves (m : Machine) (h : Host σ β) :
    (∀ session host n part, part <:+: m.trace h n (m.begin h.observed session (.start host)) →
      (∀ e ∈ part, e.isWait = false) →
        part.countP isChange ≤ max m.budgets.maxTransitionsPerTick.toNat 1) ∧
    (∀ session host n, let x := m.begin h.observed session (.start host)
      (m.trace h n x).filterMap call? = (m.after h.observed n x).host.calls ∧
        (m.trace h n x).filterMap change? = (m.after h.observed n x).history) ∧
    ∀ x, ((m.step h.observed x).1 = .exit (.suspended .hostDenied) ↔
        ∃ ticks, .call (.wait ticks false) ∈ m.happenings h x) ∧
      ∀ ticks, .call (.wait ticks false) ∈ m.happenings h x → Denial m h x ticks := by
  refine ⟨?_,?_,step_denial m h⟩
  · intro session host n part hp hw
    have hstart : (m.begin h.observed session (.start host)).changesSinceWait.toNat ≤ m.changeLimit :=
      Nat.zero_le _
    exact (trace_bounded m h _ hstart n).1.part hp hw
  · intro session host n x
    exact ⟨call?_trace m h n x,change?_trace m h n x⟩

theorem run_neverStarves_pendulum :
    let start := pendulum.begin Replay.host.observed none
      (.start (.start { HostScript.empty with maxTicks := 3 }))
    let x := pendulum.after Replay.host.observed 16 start
    (pendulum.trace Replay.host 4 start).countP isChange = 4 ∧
      (pendulum.trace Replay.host 4 start).countP isChange ≤ 4 ∧
      (pendulum.step Replay.host.observed x).1 = .exit (.suspended .hostDenied) ∧
      ∃ ticks, Denial pendulum Replay.host x ticks := by
  intro start x
  obtain ⟨hlimit,-,hdenial⟩ := run_neverStarves pendulum Replay.host
  have hchanges : (pendulum.trace Replay.host 4 start).countP isChange = 4 := by decide +kernel
  have hwaitless : ∀ e ∈ pendulum.trace Replay.host 4 start, e.isWait = false := by decide +kernel
  have hstatus : (pendulum.step Replay.host.observed x).1 = .exit (.suspended .hostDenied) := by
    decide +kernel
  obtain ⟨ticks,hm⟩ := (hdenial x).1.mp hstatus
  exact ⟨hchanges,hlimit none _ 4 _ (List.infix_refl _) hwaitless,hstatus,ticks,
    (hdenial x).2 ticks hm⟩

end Machine

end BehaviorMachine
