import BehaviorMachine.Proofs.Run.Resolution

/-!
# Protocols of hosts

A host takes part in a run as a server whose calls have a fixed order: at most one behavior is live,
it is stepped as soon as it is resolved, and it is given up once. `Protocol` says what a host has to
keep under calls in that order; then it keeps it in every run (`after_keeps`), and no run leaves a
live behavior behind (`Iteration.exit_quiet`).
-/
namespace BehaviorMachine

variable {σ β : Type}

/-- What a host keeps: while no behavior is live, right after it has resolved one, and while one is
live. -/
structure Protocol (h : Host σ β) where
  quiet : σ → Prop
  fresh : β → σ → Prop
  live : β → σ → Prop
  refuse : ∀ {name params token s t}, quiet s → h.resolve name params token s = (none,t) → quiet t
  resolve : ∀ {name params token s b t}, quiet s →
    h.resolve name params token s = (some b,t) → fresh b t
  wait_quiet : ∀ {ticks s}, quiet s → quiet (h.wait ticks s).2
  wait_live : ∀ {ticks b s}, live b s → live b (h.wait ticks s).2
  poll_quiet : ∀ {s}, quiet s → quiet (h.poll s).2
  poll_live : ∀ {b s}, live b s → live b (h.poll s).2
  step_running : ∀ {context b s spec values b' t values'}, fresh b s ∨ live b s →
    (h.step context b s).run spec values = ((.running,b',t),values') → live b' t
  step_ended : ∀ {context b s spec values result b' t values'}, fresh b s ∨ live b s →
    (h.step context b s).run spec values = ((result,b',t),values') → result ≠ .running → quiet t
  pause : ∀ {b s}, live b s → quiet (h.pause b s).2
  cancel : ∀ {b s}, live b s → quiet (h.cancel b s)

namespace Protocol

open Machine

variable {h : Host σ β} (P : Protocol h)

/-- The host is where the live behavior of an execution says. -/
def Keeps (x : Execution σ β) : Prop :=
  match x.active with
  | none => P.quiet x.host
  | some b => P.live b x.host

theorem keeps_none {x : Execution σ β} (ha : x.active = none) : P.Keeps x ↔ P.quiet x.host := by
  rw [Keeps,ha]

theorem keeps_some {x : Execution σ β} {b : β} (ha : x.active = some b) :
    P.Keeps x ↔ P.live b x.host := by
  rw [Keeps,ha]

theorem keeps_wait {x : Execution σ β} {ticks : UInt32} {granted : Bool} {host : σ}
    (hx : P.Keeps x) (hw : h.wait ticks x.host = (granted,host)) : P.Keeps { x with host } := by
  have hh : (h.wait ticks x.host).2 = host := by rw [hw]
  subst hh
  rcases x with ⟨s,session,_|b,changes,since⟩
  · exact P.wait_quiet hx
  · exact P.wait_live hx

theorem keeps_poll {x : Execution σ β} {answer : Option Interrupt} {host : σ}
    (hx : P.Keeps x) (hp : h.poll x.host = (answer,host)) : P.Keeps { x with host } := by
  have hh : (h.poll x.host).2 = host := by rw [hp]
  subst hh
  rcases x with ⟨s,session,_|b,changes,since⟩
  · exact P.poll_quiet hx
  · exact P.poll_live hx

theorem quiet_cancel {x : Execution σ β} (hx : P.Keeps x) : P.quiet (x.cancel h).host := by
  rcases x with ⟨s,session,_|b,changes,since⟩
  · exact hx
  · exact P.cancel hx

theorem quiet_pause {x : Execution σ β} (hx : P.Keeps x) : P.quiet (x.pause h).host := by
  rcases x with ⟨s,session,_|b,changes,since⟩
  · exact hx
  · exact P.pause hx

theorem keeps_pause {x : Execution σ β} (hx : P.Keeps x) : P.Keeps (x.pause h) := by
  have ha : (x.pause h).active = none := by rw [pause_frame]
  exact (P.keeps_none ha).mpr (P.quiet_pause hx)

theorem keeps_enter {x : Execution σ β} (source target : StateId) (cause : ChangeCause)
    (now : Timestamp) (hx : P.Keeps x) : P.Keeps (x.enter h source target cause now) :=
  (P.keeps_none (enter_active h source target cause now x)).mpr (P.quiet_cancel hx)

theorem keeps_ready {m : Machine} {x y : Execution σ β} (hx : P.Keeps x) (hy : Ready m h x y) :
    P.Keeps y := by
  cases hy with
  | within hb => exact hx
  | yielded hb hw => exact P.keeps_wait hx hw

theorem keeps_undisturbed {m : Machine} {s : StateSpec} {x y : Execution σ β} (hx : P.Keeps x)
    (hy : Undisturbed m h s x y) : P.Keeps y := by
  cases hy with
  | quiet hp => exact P.keeps_poll hx hp
  | ignored hp hr => exact P.keeps_poll hx hp

theorem keeps_advance {s : StateSpec} {params : BehaviorParams} {b : β} {x : Execution σ β}
    (hb : P.fresh b x.host ∨ P.live b x.host) : P.Keeps (advance h s params b x) := by
  rw [advance]
  rcases hs : (h.step ⟨s.id,params,x.session.ticksInState⟩ b x.host).run s x.session.portValues
    with ⟨⟨_|_|e,b',host⟩,values⟩
  · exact P.step_running hb hs
  · exact P.step_ended hb hs (by simp)
  · exact P.step_ended hb hs (by simp)

theorem keeps_driven {m : Machine} {s : StateSpec} {x y : Execution σ β} {ticks : UInt32}
    (hx : P.Keeps x) (hd : Driven m h s x ticks y) : P.Keeps y := by
  cases hd with
  | completed hc => exact hx
  | unresolved hc ha hr =>
    have hq := P.refuse ((P.keeps_none ha).mp hx) hr
    exact (P.keeps_none (by exact ha)).mpr hq
  | resolved hc ha hr => exact P.keeps_advance (.inl (P.resolve ((P.keeps_none ha).mp hx) hr))
  | live hc ha => exact P.keeps_advance (.inr ((P.keeps_some ha).mp hx))

theorem keeps_iteration {m : Machine} {x y : Execution σ β} {flow : Flow} (hx : P.Keeps x)
    (hi : Iteration m h x flow y) : P.Keeps y := by
  cases hi with
  | idle hs => exact hx
  | terminated hs hr => exact hx
  | yieldDenied hs hb hw =>
    apply P.keeps_pause
    exact P.keeps_wait hx hw
  | redirected hs hy hp hr =>
    apply P.keeps_enter
    exact P.keeps_poll (P.keeps_ready hx hy) hp
  | interrupted hs hy hp hr =>
    apply P.keeps_pause
    exact P.keeps_poll (P.keeps_ready hx hy) hp
  | fired hs hy hz ht =>
    apply P.keeps_enter
    exact P.keeps_undisturbed (P.keeps_ready hx hy) hz
  | denied hs hy hz ht hd hw =>
    apply P.keeps_pause
    exact P.keeps_wait (P.keeps_driven (P.keeps_undisturbed (P.keeps_ready hx hy) hz) hd) hw
  | continued hs hy hz ht hd hw =>
    exact P.keeps_wait (P.keeps_driven (P.keeps_undisturbed (P.keeps_ready hx hy) hz) hd) hw

/-- A host keeps its protocol in every run. -/
theorem after_keeps (m : Machine) {x : Execution σ β} (hx : P.Keeps x) (n : Nat) :
    P.Keeps (m.after h n x) :=
  after_induction hx (fun y hy => P.keeps_iteration hy (step_iteration m h y)) n

end Protocol

namespace Machine

/-- A behavior is live in a state that resolves only. -/
def Grounded (m : Machine) (x : Execution σ β) : Prop :=
  x.active = none ∨ (m.currentState? x.session).isSome

theorem Grounded.step {m : Machine} {x : Execution σ β} (hx : m.Grounded x) (h : Host σ β) :
    m.Grounded (m.step h x).2 := by
  rcases hx with ha | hs
  · cases hc : m.currentState? x.session with
    | none =>
      rw [step_unresolved h hc]
      exact .inl ha
    | some s => exact .inr (step_resolves (by rw [hc]; rfl))
  · exact .inr (step_resolves hs)

theorem Grounded.after {m : Machine} {x : Execution σ β} (hx : m.Grounded x) (h : Host σ β)
    (n : Nat) : m.Grounded (m.after h n x) :=
  after_induction hx (fun _ hy => hy.step h) n

/-- The end of a run leaves no live behavior. -/
theorem Iteration.exit_quiet {m : Machine} {h : Host σ β} {x y : Execution σ β}
    {status : RunStatus} (hi : Iteration m h x (.exit status) y) (hx : m.Grounded x) :
    y.active = none := by
  cases hi with
  | idle hs => exact hx.resolve_right (by simp [currentState?,hs])
  | terminated hs hr => exact hx.resolve_right (by simp [currentState?,hs,hr])
  | yieldDenied hs hb hw => rw [pause_frame]
  | interrupted hs hy hp hr => rw [pause_frame]
  | denied hs hy hz ht hd hw => rw [pause_frame]

theorem finish_quiet {x : Execution σ β} (h : Host σ β) (status : RunStatus)
    (ha : x.active = none) : x.finish h status = (⟨status,x.session,x.history⟩,x.host) := by
  rw [Execution.finish,Execution.cancel,ha]

/-- The outcome of a run is read off after its last iteration, since there is nothing left to cancel. -/
theorem run_last {m : Machine} {h : Host σ β} {session : Option SessionState} {host : σ}
    {o : RunOutcome} {r : σ} (hr : m.run h session host = some (o,r)) :
    ∃ n y, m.Lasts h n (m.begin h session host) ∧
      m.step h (m.after h n (m.begin h session host)) = (.exit o.status,y) ∧
      o.session = y.session ∧ o.history = y.history ∧ r = y.host := by
  obtain ⟨n,status,hl,he,hf⟩ := loop_eq_some_iff.mp hr
  have ha := (iteration_of_flow he).exit_quiet (Grounded.after (.inl rfl) h n)
  rw [after,finish_quiet h status ha] at hf
  cases hf
  exact ⟨n,_,hl,Prod.ext he rfl,rfl,rfl,rfl⟩

end Machine

end BehaviorMachine
