import BehaviorMachine.Proofs.Run.Happening

/-!
# No interrupt is dropped

An iteration polls one interrupt at most, and answers it at once: it enters the state that the first
handler names, or goes on as if there had been none if that handler ignores it, or ends the run
(`step_heeds`). So the interrupts of a run add up.
-/
namespace BehaviorMachine

variable {σ β : Type}

def StateSpec.disregards (s : StateSpec) (type : InterruptType) : Bool :=
  decide (type ≠ .unrecognized) && (s.handler? type).any (·.action = .ignore)

namespace Profile

/-- The first handler for an interrupt leads to a state that resolves. -/
structure Redirects (p : Profile) (s : StateSpec) (type : InterruptType) (target : StateId) :
    Prop where
  recognized : type ≠ .unrecognized
  handled : ∃ handler, s.handler? type = some handler ∧ handler.action = .transition ∧
    handler.targetStateId = some target
  resolves : (p.state? target).isSome

variable {p : Profile} {s : StateSpec} {type : InterruptType}

theorem reaction_enter_iff {target : StateId} :
    p.reaction s type = .enter target ↔ p.Redirects s type target := by
  constructor
  · intro hr
    obtain ⟨hn,ht,hh⟩ := reaction_handler hr
    exact ⟨hn,hh,ht⟩
  · rintro ⟨hn,⟨handler,hh,ha,ht⟩,hr⟩
    simp only [reaction,if_neg hn,hh,ha,ht,hr,if_true]

theorem reaction_ignore_iff : p.reaction s type = .ignore ↔ s.disregards type = true := by
  rw [StateSpec.disregards,Bool.and_eq_true,decide_eq_true_iff,Option.any_eq_true]
  constructor
  · intro hr
    rw [reaction] at hr
    split at hr
    · cases hr
    · next hn =>
      refine ⟨hn,?_⟩
      split at hr
      · cases hr
      · next handler hh =>
        refine ⟨handler,hh,?_⟩
        split at hr
        · next ha => exact decide_eq_true ha
        · split at hr <;> cases hr
        · cases hr
  · rintro ⟨hn,handler,hh,ha⟩
    simp only [reaction,if_neg hn,hh,of_decide_eq_true ha]

theorem Redirects.not_disregards {target : StateId} (hr : p.Redirects s type target) :
    s.disregards type = false := by
  apply Bool.eq_false_iff.mpr
  intro hd
  have he := reaction_ignore_iff (p := p).mpr hd
  rw [reaction_enter_iff.mpr hr] at he
  cases he

end Profile

def Host.replaced (h : Host σ β) (world : σ → Option WorldSnapshot)
    (resolve : BehaviorName → BehaviorParams → Option ResumeToken → σ → Option β × σ)
    (step : StepContext → β → σ → PortProgram (StepResult × β × σ)) : Host σ β :=
  { h with world, resolve, step }

def Call.polled? : Call → Option Interrupt
  | .poll answer => answer
  | _ => none

def ChangeCause.interrupt? : ChangeCause → Option InterruptType
  | .transition _ => none
  | .interrupt type => some type

def RunStatus.interrupt? : RunStatus → Option InterruptType
  | .suspended (.interrupt type) => some type
  | _ => none

def Flow.interrupt? : Flow → Option InterruptType
  | .again => none
  | .exit status => status.interrupt?

namespace Observed

/-- Calls that poll some interrupts lead from one state to another. -/
def Hears (r r' : Observed σ) (interrupts : List Interrupt) : Prop :=
  ∃ new, r'.calls = r.calls ++ new ∧ new.filterMap Call.polled? = interrupts

theorem Hears.trans {r₁ r₂ r₃ : Observed σ} {first last : List Interrupt} (h₁ : Hears r₁ r₂ first)
    (h₂ : Hears r₂ r₃ last) : Hears r₁ r₃ (first ++ last) := by
  obtain ⟨new₁,he₁,rfl⟩ := h₁
  obtain ⟨new₂,he₂,rfl⟩ := h₂
  exact ⟨new₁ ++ new₂,by rw [he₂,he₁,List.append_assoc],List.filterMap_append⟩

theorem Grows.hears {r r' : Observed σ} (hg : Grows (fun c => c.polled? = none) r r') :
    Hears r r' [] := by
  obtain ⟨new,he,hn⟩ := hg
  exact ⟨new,he,List.filterMap_eq_nil_iff.mpr hn⟩

end Observed

namespace Machine

open Execution Observed

variable {m : Machine} {h : Host σ β} {x y z : Execution (Observed σ) (Nat × β)} {s : StateSpec}

def heard (m : Machine) (h : Host σ β) (x : Execution (Observed σ) (Nat × β)) : List Interrupt :=
  (m.happenings h x).filterMap fun e => e.call?.bind Call.polled?

/-- The interrupts that an iteration polls, each with the state it is polled in. -/
def delivered (m : Machine) (h : Host σ β) (x : Execution (Observed σ) (Nat × β)) :
    List (StateSpec × Interrupt) :=
  match m.currentState? x.session with
  | some s => (m.heard h x).map fun i => (s,i)
  | none => []

def deliveries (m : Machine) (h : Host σ β) :
    Nat → Execution (Observed σ) (Nat × β) → List (StateSpec × Interrupt)
  | 0, _ => []
  | n+1, x => m.deliveries h n x ++ m.delivered h (m.after h.observed n x)

def rewired (m : Machine) (transitions : List Transition) : Machine :=
  ⟨{ m.profile with transitions },m.budgets⟩

/-- The iteration looks at no transition and no world, and resolves and steps no behavior. -/
structure Preempted (m : Machine) (h : Host σ β) (x : Execution (Observed σ) (Nat × β)) : Prop where
  /-- All of these may as well be different. -/
  blind : ∀ transitions world resolve step,
    (m.rewired transitions).step (h.replaced world resolve step).observed x =
      m.step h.observed x
  passive : Grows Call.Passive x.host (m.step h.observed x).2.host

structure Calm (m : Machine) (h : Host σ β) (x : Execution (Observed σ) (Nat × β)) : Prop where
  changes : ∃ changes, (m.step h.observed x).2.history = x.history ++ changes ∧
    ∀ c ∈ changes, c.cause.interrupt? = none
  flow : (m.step h.observed x).1.interrupt? = none

/-- What an interrupt does to the iteration that polls it. -/
inductive Effect (m : Machine) (h : Host σ β) (x : Execution (Observed σ) (Nat × β)) (s : StateSpec)
    (i : Interrupt) : Prop where
  /-- It changes the state, once. -/
  | redirects {target : StateId} {time : Timestamp} (hr : m.profile.Redirects s i.type target)
      (hf : (m.step h.observed x).1 = .again)
      (hc : (m.step h.observed x).2.history = x.history ++
        [⟨s.id,target,.interrupt i.type,time,x.session.ticksInState⟩])
      (hp : Preempted m h x)
  /-- The transitions are looked at next, with all but the host as it was. -/
  | passes {y : Execution (Observed σ) (Nat × β)} (hd : s.disregards i.type = true)
      (hy : y = { x with host := y.host, changesSinceWait := y.changesSinceWait })
      (hl : y.host.calls.getLast? = some (.poll (some i)))
      (hs : m.step h.observed x = m.transit h.observed s y) (hc : Calm m h x)
  /-- It ends the run. -/
  | suspends (hr : ∀ target, ¬ m.profile.Redirects s i.type target)
      (hd : s.disregards i.type = false)
      (hf : (m.step h.observed x).1 = .exit (.suspended (.interrupt i.type)))
      (hc : (m.step h.observed x).2.history = x.history) (hp : Preempted m h x)

theorem wait_unpolled {ticks : UInt32} {granted : Bool} {r r' : Observed σ}
    (hw : h.observed.wait ticks r = (granted,r')) : Grows (fun c => c.polled? = none) r r' :=
  wait_adds (fun _ _ => rfl) hw

theorem Ready.unpolled (hy : Ready m h.observed x y) :
    Grows (fun c => c.polled? = none) x.host y.host := by
  cases hy with
  | within hb => exact Grows.refl _ _
  | yielded hb hw => exact wait_unpolled hw

theorem pause_unpolled (x : Execution (Observed σ) (Nat × β)) :
    Grows (fun c => c.polled? = none) x.host (x.pause h.observed).host :=
  pause_adds (fun _ _ => rfl) x

theorem enter_unpolled (source target : StateId) (cause : ChangeCause) (now : Timestamp)
    (x : Execution (Observed σ) (Nat × β)) : Grows (fun c => c.polled? = none) x.host
      (x.enter h.observed source target cause now).host :=
  enter_adds (fun _ => rfl) source target cause now x

theorem Driven.unpolled {ticks : UInt32} (hs : m.currentState? x.session = some s)
    (hd : Driven m h.observed s x ticks y) : Grows (fun c => c.polled? = none) x.host y.host := by
  refine hd.adds ?_ hs
  rintro s values c (_ | _)
  · rfl
  · rfl

theorem poll_hears {answer : Option Interrupt} {r r' : Observed σ}
    (hp : h.observed.poll r = (answer,r')) : Hears r r' answer.toList := by
  refine ⟨_,poll_calls hp,?_⟩
  cases answer <;> rfl

theorem mem_heard {i : Interrupt} :
    i ∈ m.heard h x ↔ .call (.poll (some i)) ∈ m.happenings h x := by
  rw [heard,List.mem_filterMap]
  constructor
  · rintro ⟨_ | _,hm,he⟩
    · next c =>
      cases c with
      | poll answer =>
        obtain rfl : answer = some i := he
        exact hm
      | _ => cases he
    · cases he
  · intro hm
    exact ⟨_,hm,rfl⟩

theorem heard_eq {interrupts : List Interrupt}
    (hh : Hears x.host (m.step h.observed x).2.host interrupts) : m.heard h x = interrupts := by
  obtain ⟨new,hc,rfl⟩ := hh
  obtain ⟨calls,changes,hc',hn⟩ := step_adds m h x
  obtain rfl : calls = new := List.append_cancel_left (hc'.symm.trans hc)
  have hcalls : (fun e : Happening => e.call?.bind Call.polled?) ∘ Happening.call =
      Call.polled? := rfl
  have hchanges : (changes.map Happening.change).filterMap
      (fun e => e.call?.bind Call.polled?) = [] := by
    simp [Happening.call?]
  rw [heard,happenings_eq hc' hn,List.filterMap_append,List.filterMap_map,hcalls,hchanges,
    List.append_nil]

theorem Ready.blind {transitions : List Transition} {world : σ → Option WorldSnapshot}
    {resolve : BehaviorName → BehaviorParams → Option ResumeToken → σ → Option β × σ}
    {step : StepContext → β → σ → PortProgram (StepResult × β × σ)} (hy : Ready m h.observed x y) :
    Ready (m.rewired transitions) (h.replaced world resolve step).observed x y := by
  cases hy with
  | within hb => exact .within hb
  | yielded hb hw => exact .yielded hb hw

theorem Iteration.preempted {flow : Flow} (hi : Iteration m h.observed x flow y)
    (hb : ∀ transitions world resolve step, Iteration (m.rewired transitions)
      (h.replaced world resolve step).observed x flow y)
    (hp : Grows Call.Passive x.host y.host) : Preempted m h x := by
  refine ⟨?_,?_⟩
  · intro transitions world resolve step
    rw [hi.step_eq,(hb transitions world resolve step).step_eq]
  · rw [hi.step_eq]
    exact hp

theorem Iteration.calm {flow : Flow} (hi : Iteration m h.observed x flow y)
    (hf : flow.interrupt? = none) {changes : List StateChange}
    (hc : y.history = x.history ++ changes) (hn : ∀ c ∈ changes, c.cause.interrupt? = none) :
    Calm m h x := by
  refine ⟨⟨changes,?_,hn⟩,?_⟩
  · rw [hi.step_eq,hc]
  · rw [hi.step_eq,hf]

/-- What becomes of the interrupt that an iteration polls, if it polls one. -/
inductive Heeds (m : Machine) (h : Host σ β) (x : Execution (Observed σ) (Nat × β)) : Prop where
  | quiet (hh : m.heard h x = []) (hc : Calm m h x)
  | polled {s : StateSpec} {i : Interrupt} (hs : m.currentState? x.session = some s)
      (hh : m.heard h x = [i]) (he : Effect m h x s i)

theorem Undisturbed.heeds (hs : m.currentState? x.session = some s) (hy : Ready m h.observed x y)
    (hz : Undisturbed m h.observed s y z)
    (hg : Grows (fun c => c.polled? = none) z.host (m.step h.observed x).2.host)
    (hc : Calm m h x) : Heeds m h x := by
  have hstep : m.step h.observed x = m.transit h.observed s z := by
    rw [step_visit hs,hy.visit_eq,hz.react_eq]
  cases hz with
  | quiet hp => exact .quiet (heard_eq ((hy.unpolled.hears.trans (poll_hears hp)).trans hg.hears)) hc
  | @ignored i host hp hr =>
    have hh := heard_eq ((hy.unpolled.hears.trans (poll_hears hp)).trans hg.hears)
    refine .polled hs hh (.passes (Profile.reaction_ignore_iff.mp hr) ?_ ?_ hstep hc)
    · rw [hy.frame]
    · rw [poll_calls hp,List.getLast?_concat]

theorem Iteration.heeds {flow : Flow} (hi : Iteration m h.observed x flow y) : Heeds m h x := by
  have hstep := hi.step_eq
  have hcalm (hf : flow.interrupt? = none) (hc : y.changes = x.changes) : Calm m h x :=
    hi.calm hf (by rw [history_of_changes hc,List.append_nil]) (by simp)
  cases hi with
  | idle hs =>
    refine .quiet (heard_eq ?_) (hcalm rfl rfl)
    rw [hstep]
    exact (Grows.refl _ _).hears
  | terminated hs hr =>
    refine .quiet (heard_eq ?_) (hcalm rfl rfl)
    rw [hstep]
    exact (Grows.refl _ _).hears
  | yieldDenied hs hb hw =>
    refine .quiet (heard_eq ?_) (hcalm rfl (by rw [pause_frame]))
    rw [hstep]
    exact ((wait_unpolled hw).trans (pause_unpolled _)).hears
  | @redirected s y i target host hs hy hp hr =>
    have hh : Hears x.host (m.step h.observed x).2.host ([] ++ [i] ++ []) := by
      rw [hstep]
      exact (hy.unpolled.hears.trans (poll_hears hp)).trans (enter_unpolled ..).hears
    have hc : y.changes = x.changes := by rw [hy.frame]
    have hticks : y.session = x.session := by rw [hy.frame]
    have hchange : (m.step h.observed x).2.history = x.history ++ [⟨s.id,target,
        .interrupt i.type,h.observed.now host,x.session.ticksInState⟩] := by
      rw [hstep,history_enter (z := { y with host }) hc,hticks]
    refine .polled hs (heard_eq hh) (.redirects (Profile.reaction_enter_iff.mp hr) ?_ hchange ?_)
    · rw [hstep]
    · refine (Iteration.redirected hs hy hp hr).preempted ?_ ?_
      · intro transitions world resolve step
        exact Iteration.redirected (h := (h.replaced world resolve step).observed) hs hy.blind hp hr
      · exact ((hy.grows.trans (poll_grows hp)).mono fun _ => Call.Idle.passive).trans (cancel_grows _)
  | @interrupted s y i host hs hy hp hr =>
    have hh : Hears x.host (m.step h.observed x).2.host ([] ++ [i] ++ []) := by
      rw [hstep]
      exact (hy.unpolled.hears.trans (poll_hears hp)).trans (pause_unpolled _).hears
    refine .polled hs (heard_eq hh) (.suspends ?_ ?_ ?_ ?_ ?_)
    · intro target ht
      rw [Profile.reaction_enter_iff.mpr ht] at hr
      cases hr
    · apply Bool.eq_false_iff.mpr
      intro hd
      rw [Profile.reaction_ignore_iff.mpr hd] at hr
      cases hr
    · rw [hstep]
    · rw [hstep]
      apply history_of_changes
      rw [pause_frame,hy.frame]
    · refine (Iteration.interrupted hs hy hp hr).preempted ?_ ?_
      · intro transitions world resolve step
        exact Iteration.interrupted (h := (h.replaced world resolve step).observed) hs hy.blind hp hr
      · exact ((hy.grows.trans (poll_grows hp)).mono fun _ => Call.Idle.passive).trans (pause_grows _)
  | @fired s y z t hs hy hz ht =>
    refine hz.heeds hs hy ?_ ?_
    · rw [hstep]
      exact enter_unpolled ..
    · refine (Iteration.fired hs hy hz ht).calm rfl (history_enter ?_ ..) ?_
      · rw [hz.frame,hy.frame]
      · simp [ChangeCause.interrupt?]
  | @denied s y z w ticks host hs hy hz ht hd hw =>
    refine hz.heeds hs hy ?_ (hcalm rfl ?_)
    · rw [hstep]
      exact ((hd.unpolled (hz.currentState hs hy)).trans (wait_unpolled hw)).trans (pause_unpolled _)
    · rw [pause_frame,hd.frame,hz.frame,hy.frame]
  | @continued s y z w ticks host hs hy hz ht hd hw =>
    refine hz.heeds hs hy ?_ (hcalm rfl ?_)
    · rw [hstep]
      exact (hd.unpolled (hz.currentState hs hy)).trans (wait_unpolled hw)
    · rw [hd.frame,hz.frame,hy.frame]

/-- An iteration polls an interrupt at most, and then does as the profile says. -/
theorem step_heeds (m : Machine) (h : Host σ β) (x : Execution (Observed σ) (Nat × β)) :
    Heeds m h x :=
  (step_iteration m h.observed x).heeds

theorem delivered_some (hs : m.currentState? x.session = some s) :
    m.delivered h x = (m.heard h x).map fun i => (s,i) := by
  rw [delivered,hs]

theorem delivered_nil (hh : m.heard h x = []) : m.delivered h x = [] := by
  rw [delivered,hh]
  cases m.currentState? x.session <;> rfl

theorem map_delivered (m : Machine) (h : Host σ β) (x : Execution (Observed σ) (Nat × β)) :
    (m.delivered h x).map Prod.snd = m.heard h x := by
  cases step_heeds m h x with
  | quiet hh hc => rw [delivered_nil hh,hh,List.map_nil]
  | polled hs hh he => rw [delivered_some hs,hh,List.map_singleton,List.map_singleton]

theorem polled_trace (m : Machine) (h : Host σ β) (n : Nat)
    (x : Execution (Observed σ) (Nat × β)) :
    ((m.trace h n x).filterMap fun e => e.call?.bind Call.polled?) =
      (m.deliveries h n x).map Prod.snd := by
  induction n with
  | zero => rfl
  | succ n ih => rw [trace,List.filterMap_append,ih,deliveries,List.map_append,map_delivered,heard]

theorem polled_after (m : Machine) (h : Host σ β) (n : Nat)
    (x : Execution (Observed σ) (Nat × β)) :
    (m.after h.observed n x).host.calls.filterMap Call.polled? =
      x.host.calls.filterMap Call.polled? ++ (m.deliveries h n x).map Prod.snd := by
  rw [← call?_trace,List.filterMap_append,List.filterMap_filterMap,polled_trace]

theorem polled_finish (status : RunStatus) (x : Execution (Observed σ) (Nat × β)) :
    (x.finish h.observed status).2.calls.filterMap Call.polled? =
      x.host.calls.filterMap Call.polled? := by
  have hg : Grows (fun c => c.polled? = none) x.host (x.cancel h.observed).host :=
    cancel_adds (fun _ => rfl) x
  obtain ⟨new,he,hn⟩ := hg.hears
  rw [finish,he,List.filterMap_append,hn,List.append_nil]

section

variable (kinds : InterruptType → Bool)

def deliveredOf (deliveries : List (StateSpec × Interrupt)) : Nat :=
  deliveries.countP fun d => kinds d.2.type

def ignoredOf (deliveries : List (StateSpec × Interrupt)) : Nat :=
  deliveries.countP fun d => kinds d.2.type && d.1.disregards d.2.type

def redirectionsOf (history : List StateChange) : Nat :=
  history.countP fun c => c.cause.interrupt?.any kinds

theorem redirectionsOf_append (first last : List StateChange) :
    redirectionsOf kinds (first ++ last) = redirectionsOf kinds first + redirectionsOf kinds last :=
  List.countP_append

theorem Calm.redirectionsOf (hc : Calm m h x) :
    redirectionsOf kinds (m.step h.observed x).2.history = redirectionsOf kinds x.history := by
  obtain ⟨changes,he,hn⟩ := hc.changes
  have hzero : Machine.redirectionsOf kinds changes = 0 := by
    apply List.countP_eq_zero.mpr
    intro c hm
    simp [hn c hm]
  rw [he,redirectionsOf_append,hzero,Nat.add_zero]

/-- What an iteration is delivered, it ignores, or it follows, or it ends with. -/
theorem step_accounts (m : Machine) (h : Host σ β) (x : Execution (Observed σ) (Nat × β)) :
    redirectionsOf kinds x.history + deliveredOf kinds (m.delivered h x) =
      redirectionsOf kinds (m.step h.observed x).2.history + ignoredOf kinds (m.delivered h x) +
        ((m.step h.observed x).1.interrupt?.any kinds).toNat := by
  cases step_heeds m h x with
  | quiet hh hc => rw [delivered_nil hh,hc.redirectionsOf,hc.flow]; rfl
  | @polled s i hs hh he =>
    rw [delivered_some hs,hh,List.map_singleton]
    cases he with
    | @redirects target time hr hf hc hp =>
      have hone : redirectionsOf kinds [⟨s.id,target,.interrupt i.type,time,x.session.ticksInState⟩] =
          deliveredOf kinds [(s,i)] := by
        simp [redirectionsOf,deliveredOf,List.countP_cons,ChangeCause.interrupt?]
      have hnone : ignoredOf kinds [(s,i)] = 0 := by
        simp [ignoredOf,hr.not_disregards]
      rw [hf,hc,redirectionsOf_append,hone,hnone]
      rfl
    | passes hd hy hl hs hc =>
      have hall : ignoredOf kinds [(s,i)] = deliveredOf kinds [(s,i)] := by
        simp [ignoredOf,deliveredOf,List.countP_cons,hd]
      rw [hc.redirectionsOf,hc.flow,hall]
      rfl
    | suspends hr hd hf hc hp =>
      have hnone : ignoredOf kinds [(s,i)] = 0 := by simp [ignoredOf,hd]
      rw [hf,hc,hnone]
      cases hk : kinds i.type <;> simp [deliveredOf,Flow.interrupt?,RunStatus.interrupt?,hk]

theorem accounts_next {n : Nat}
    (hn : redirectionsOf kinds x.history + deliveredOf kinds (m.deliveries h n x) =
      redirectionsOf kinds (m.after h.observed n x).history +
        ignoredOf kinds (m.deliveries h n x)) :
    redirectionsOf kinds x.history + deliveredOf kinds (m.deliveries h (n+1) x) =
      redirectionsOf kinds (m.after h.observed (n+1) x).history +
        ignoredOf kinds (m.deliveries h (n+1) x) +
          ((m.step h.observed (m.after h.observed n x)).1.interrupt?.any kinds).toNat := by
  have hstep := step_accounts kinds m h (m.after h.observed n x)
  have hd : deliveredOf kinds (m.deliveries h (n+1) x) = deliveredOf kinds (m.deliveries h n x) +
      deliveredOf kinds (m.delivered h (m.after h.observed n x)) := List.countP_append
  have hi : ignoredOf kinds (m.deliveries h (n+1) x) = ignoredOf kinds (m.deliveries h n x) +
      ignoredOf kinds (m.delivered h (m.after h.observed n x)) := List.countP_append
  rw [hd,hi,after]
  omega

/-- As long as a run goes on, what it is delivered is either ignored or followed. -/
theorem lasts_accounts {n : Nat} (hl : m.Lasts h.observed n x) :
    redirectionsOf kinds x.history + deliveredOf kinds (m.deliveries h n x) =
      redirectionsOf kinds (m.after h.observed n x).history +
        ignoredOf kinds (m.deliveries h n x) := by
  induction n with
  | zero => rfl
  | succ n ih =>
    have hnext := accounts_next kinds (ih (lasts_mono (Nat.le_succ n) hl))
    rw [hl n (Nat.lt_succ_self n)] at hnext
    exact hnext

end

/-- No interrupt is dropped. An iteration that polls one follows the first handler of its state to a
state that resolves, or ignores it if that handler says so, or ends the run. So the interrupts of a
run, of any kinds, are as many as the changes that they cause, those that are ignored, and the one that
ends the run if there is one. -/
theorem run_heedsInterrupts (m : Machine) (h : Host σ β) :
    (∀ x i, .call (.poll (some i)) ∈ m.happenings h x →
      ∃ s, m.currentState? x.session = some s ∧ m.heard h x = [i] ∧ Effect m h x s i) ∧
    ∀ session host o r, m.run h.observed session (.start host) = some (o,r) →
      ∃ n, let x := m.begin h.observed session (.start host)
        m.Lasts h.observed n x ∧ (m.step h.observed (m.after h.observed n x)).1 = .exit o.status ∧
          r.calls.filterMap Call.polled? = (m.deliveries h (n+1) x).map Prod.snd ∧
          ∀ kinds : InterruptType → Bool,
            ((r.calls.filterMap Call.polled?).countP fun i => kinds i.type) =
              redirectionsOf kinds o.history + ignoredOf kinds (m.deliveries h (n+1) x) +
                (o.status.interrupt?.any kinds).toNat := by
  refine ⟨?_,?_⟩
  · intro x i hm
    have hi := mem_heard.mpr hm
    cases step_heeds m h x with
    | quiet hh hc =>
      rw [hh] at hi
      cases hi
    | polled hs hh he =>
      rw [hh] at hi
      obtain rfl := List.mem_singleton.mp hi
      exact ⟨_,hs,hh,he⟩
  · intro session host o r hr
    obtain ⟨n,status,hl,he,hf⟩ := loop_eq_some_iff.mp hr
    cases hf
    have hcalls := (polled_finish (h := h) status _).trans
      (polled_after m h (n+1) (m.begin h.observed session (.start host)))
    refine ⟨n,hl,he,hcalls,?_⟩
    intro kinds
    have haccounts := accounts_next kinds (lasts_accounts kinds hl)
    have hpolled : (((m.deliveries h (n+1) (m.begin h.observed session (.start host))).map
        Prod.snd).countP fun i => kinds i.type) =
          deliveredOf kinds (m.deliveries h (n+1) (m.begin h.observed session (.start host))) :=
      List.countP_map
    rw [he] at haccounts
    have hsum := hpolled.trans ((Nat.zero_add _).symm.trans haccounts)
    exact (congrArg (List.countP fun i => kinds i.type) hcalls).trans hsum

/-- The lookout is in a fight, is killed, and is called. -/
def ambush : Replay :=
  { Replay.start { HostScript.empty with
      maxTicks := 3
      behaviors := NameMap.insert ∅ "watch" ⟨none,none,[],[]⟩ } with
    interrupts := [⟨0,.combat⟩,⟨0,.death⟩,⟨0,.chatCommand⟩] }

theorem run_heedsInterrupts_lookout :
    let start := lookout.begin Replay.host.observed none (.start ambush)
    (∃ s, lookout.currentState? (lookout.after Replay.host.observed 1 start).session = some s ∧
      Effect lookout Replay.host (lookout.after Replay.host.observed 1 start) s ⟨.death⟩) ∧
    ∃ o r n, lookout.run Replay.host.observed none (.start ambush) = some (o,r) ∧
      o.status = .suspended (.interrupt .chatCommand) ∧
      r.calls.filterMap Call.polled? = [⟨.combat⟩,⟨.death⟩,⟨.chatCommand⟩] ∧
      3 = redirectionsOf (fun _ => true) o.history +
        ignoredOf (fun _ => true) (lookout.deliveries Replay.host (n+1) start) + 1 := by
  intro start
  obtain ⟨heffect,hruns⟩ := run_heedsInterrupts lookout Replay.host
  refine ⟨?_,?_⟩
  · have hm : ⟨.death⟩ ∈ lookout.heard Replay.host (lookout.after Replay.host.observed 1 start) := by
      decide +kernel
    obtain ⟨s,hs,-,he⟩ := heffect _ _ (mem_heard.mp hm)
    exact ⟨s,hs,he⟩
  · obtain ⟨o,r,hr,hstatus,hpolled⟩ : ∃ o r,
        lookout.run Replay.host.observed none (.start ambush) = some (o,r) ∧
          o.status = .suspended (.interrupt .chatCommand) ∧
            r.calls.filterMap Call.polled? = [⟨.combat⟩,⟨.death⟩,⟨.chatCommand⟩] :=
      ⟨_,_,run_of_lasts lookout Replay.host.observed none (.start ambush) 2
        (.suspended (.interrupt .chatCommand)) (by decide +kernel) (by decide +kernel),rfl,
        by decide +kernel⟩
    obtain ⟨n,-,-,-,haccount⟩ := hruns none ambush o r hr
    have hsum := haccount fun _ => true
    rw [hpolled,hstatus] at hsum
    exact ⟨o,r,n,hr,hstatus,hpolled,hsum⟩

end Machine

end BehaviorMachine
