import BehaviorMachine.Proofs.Run.Course

/-!
# Observed runs

An observed host notes every call that a run makes, with a number for each behavior that it resolves,
and with the writes of each step. Nothing depends on the notes: a run on the observed host is the run
on the host itself (`loop_observed`).
-/
namespace BehaviorMachine

variable {σ β α γ : Type}

/-- A write to an output port by name, and whether there was such a port. -/
structure PortWrite where
  name : String
  value : ParamValue
  written : Bool
  deriving DecidableEq

namespace PortProgram

theorem run_map (f : α → γ) (s : StateSpec) (p : PortProgram α) (values : PortValues) :
    (p.map f).run s values = (f (p.run s values).1,(p.run s values).2) := by
  induction p generalizing values with
  | done result => rfl
  | write name value next ih =>
    simp only [map,run]
    cases s.write? values name value with
    | none => exact ih false values
    | some written => exact ih true written
  | read name next ih =>
    simp only [map,run]
    exact ih _ values

def writes (s : StateSpec) : PortProgram α → PortValues → List PortWrite
  | .done _, _ => []
  | .write name value next, values =>
    match s.write? values name value with
    | some written => ⟨name,value,true⟩ :: (next true).writes s written
    | none => ⟨name,value,false⟩ :: (next false).writes s values
  | .read name next, values => (next (s.read? values name)).writes s values

/-- Hand the writes of a program over with its result. -/
def noting (f : List PortWrite → α → γ) : List PortWrite → PortProgram α → PortProgram γ
  | noted, .done result => .done (f noted result)
  | noted, .write name value next =>
    .write name value fun written => noting f (noted ++ [⟨name,value,written⟩]) (next written)
  | noted, .read name next => .read name fun value => noting f noted (next value)

theorem run_noting (f : List PortWrite → α → γ) (s : StateSpec) (p : PortProgram α)
    (noted : List PortWrite) (values : PortValues) :
    (noting f noted p).run s values =
      (f (noted ++ p.writes s values) (p.run s values).1,(p.run s values).2) := by
  induction p generalizing noted values with
  | done result => simp only [noting,run,writes,List.append_nil]
  | write name value next ih =>
    simp only [noting,run,writes]
    cases s.write? values name value with
    | none => simp only [ih,List.append_assoc,List.singleton_append]
    | some written => simp only [ih,List.append_assoc,List.singleton_append]
  | read name next ih => simp only [noting,run,writes,ih]

end PortProgram

/-- A call to a host with its answer. Resolved behaviors are numbered from zero. -/
inductive Call where
  | resolve (name : BehaviorName) (params : BehaviorParams) (token : Option ResumeToken)
    (found : Option Nat)
  | wait (ticks : UInt32) (granted : Bool)
  | poll (answer : Option Interrupt)
  | step (number : Nat) (context : StepContext) (writes : List PortWrite) (result : StepResult)
  | pause (number : Nat) (token : Option ResumeToken)
  | cancel (number : Nat)

/-- A host's state with the calls made so far. -/
structure Observed (σ : Type) where
  state : σ
  calls : List Call
  /-- How many behaviors have been resolved. -/
  resolved : Nat

namespace Observed

def start (s : σ) : Observed σ := ⟨s,[],0⟩

def note (r : Observed σ) (call : Call) (s : σ) : Observed σ :=
  { r with state := s, calls := r.calls ++ [call] }

end Observed

namespace Host

def observed (h : Host σ β) : Host (Observed σ) (Nat × β) where
  resolve name params token r :=
    match h.resolve name params token r.state with
    | (none,s) => (none,r.note (.resolve name params token none) s)
    | (some b,s) =>
      (some (r.resolved,b),{ r.note (.resolve name params token (some r.resolved)) s with
        resolved := r.resolved+1 })
  wait ticks r :=
    let (granted,s) := h.wait ticks r.state
    (granted,r.note (.wait ticks granted) s)
  poll r :=
    let (answer,s) := h.poll r.state
    (answer,r.note (.poll answer) s)
  world r := h.world r.state
  now r := h.now r.state
  step context b r :=
    (h.step context b.2 r.state).noting (fun writes (result,b',s) =>
      (result,(b.1,b'),r.note (.step b.1 context writes result) s)) []
  pause b r :=
    let (token,s) := h.pause b.2 r.state
    (token,r.note (.pause b.1 token) s)
  cancel b r := r.note (.cancel b.1) (h.cancel b.2 r.state)

end Host

namespace Execution

def unobserved (x : Execution (Observed σ) (Nat × β)) : Execution σ β :=
  { x with host := x.host.state, active := x.active.map Prod.snd }

theorem unobserved_pause (h : Host σ β) (x : Execution (Observed σ) (Nat × β)) :
    (x.pause h.observed).unobserved = x.unobserved.pause h := by
  rcases x with ⟨r,session,_|⟨i,b⟩,changes,since⟩ <;> rfl

theorem unobserved_enter (h : Host σ β) (source target : StateId) (cause : ChangeCause)
    (now : Timestamp) (x : Execution (Observed σ) (Nat × β)) :
    (x.enter h.observed source target cause now).unobserved =
      x.unobserved.enter h source target cause now := by
  rcases x with ⟨r,session,_|⟨i,b⟩,changes,since⟩ <;> rfl

theorem unobserved_finish (h : Host σ β) (status : RunStatus)
    (x : Execution (Observed σ) (Nat × β)) :
    ((x.finish h.observed status).1,(x.finish h.observed status).2.state) =
      x.unobserved.finish h status := by
  rcases x with ⟨r,session,_|⟨i,b⟩,changes,since⟩ <;> rfl

end Execution

namespace Machine

open Execution

theorem unobserved_advance (h : Host σ β) (s : StateSpec) (params : BehaviorParams) (i : Nat) (b : β)
    (x : Execution (Observed σ) (Nat × β)) :
    (advance h.observed s params (i,b) x).unobserved = advance h s params b x.unobserved := by
  simp only [advance,Host.observed,PortProgram.run_noting,unobserved]
  rcases (h.step ⟨s.id,params,x.session.ticksInState⟩ b x.host.state).run s x.session.portValues
    with ⟨⟨_|_|e,b',host⟩,values⟩ <;> rfl

theorem Ready.unobserved {m : Machine} {h : Host σ β} {x y : Execution (Observed σ) (Nat × β)}
    (hy : Ready m h.observed x y) : Ready m h x.unobserved y.unobserved := by
  cases hy with
  | within hb => exact .within hb
  | yielded hb hw =>
    simp only [Host.observed,Prod.mk.injEq] at hw
    obtain ⟨hg,rfl⟩ := hw
    exact .yielded hb (Prod.ext hg rfl)

theorem Undisturbed.unobserved {m : Machine} {h : Host σ β} {s : StateSpec}
    {x y : Execution (Observed σ) (Nat × β)} (hy : Undisturbed m h.observed s x y) :
    Undisturbed m h s x.unobserved y.unobserved := by
  cases hy with
  | quiet hp =>
    simp only [Host.observed,Prod.mk.injEq] at hp
    obtain ⟨hn,rfl⟩ := hp
    exact .quiet (Prod.ext hn rfl)
  | ignored hp hr =>
    simp only [Host.observed,Prod.mk.injEq] at hp
    obtain ⟨hn,rfl⟩ := hp
    exact .ignored (Prod.ext hn rfl) hr

theorem Driven.unobserved {m : Machine} {h : Host σ β} {s : StateSpec}
    {x y : Execution (Observed σ) (Nat × β)} {ticks : UInt32}
    (hd : Driven m h.observed s x ticks y) : Driven m h s x.unobserved ticks y.unobserved := by
  have hn (ha : x.active = none) : x.unobserved.active = none := by
    rw [Execution.unobserved,ha,Option.map_none]
  cases hd with
  | completed hc => exact .completed hc
  | unresolved hc ha hr =>
    rcases he : h.resolve s.behaviorName (m.profile.effectiveParams s x.session.portValues)
      x.session.resumeToken x.host.state with ⟨_|b,host⟩
    · simp only [Host.observed,he,Prod.mk.injEq,true_and] at hr
      subst hr
      exact .unresolved hc (hn ha) he
    · simp only [Host.observed,he,Prod.mk.injEq,reduceCtorEq,false_and] at hr
  | resolved hc ha hr =>
    rcases he : h.resolve s.behaviorName (m.profile.effectiveParams s x.session.portValues)
      x.session.resumeToken x.host.state with ⟨_|b,host⟩
    · simp only [Host.observed,he,Prod.mk.injEq,reduceCtorEq,false_and] at hr
    · simp only [Host.observed,he,Prod.mk.injEq,Option.some.injEq] at hr
      obtain ⟨rfl,rfl⟩ := hr
      rw [unobserved_advance]
      exact .resolved hc (hn ha) he
  | live hc ha =>
    rw [unobserved_advance]
    exact .live hc (by rw [Execution.unobserved,ha,Option.map_some])

theorem Iteration.unobserved {m : Machine} {h : Host σ β}
    {x y : Execution (Observed σ) (Nat × β)} {flow : Flow}
    (hi : Iteration m h.observed x flow y) : Iteration m h x.unobserved flow y.unobserved := by
  cases hi with
  | idle hs => exact .idle hs
  | terminated hs hr => exact .terminated hs hr
  | yieldDenied hs hb hw =>
    rw [unobserved_pause]
    simp only [Host.observed,Prod.mk.injEq] at hw
    obtain ⟨hg,rfl⟩ := hw
    exact .yieldDenied hs hb (Prod.ext hg rfl)
  | @redirected _ y _ _ _ hs hy hp hr =>
    rw [unobserved_enter]
    simp only [Host.observed,Prod.mk.injEq] at hp
    obtain ⟨hi,rfl⟩ := hp
    exact .redirected (y := y.unobserved) hs hy.unobserved (Prod.ext hi rfl) hr
  | @interrupted _ y _ _ hs hy hp hr =>
    rw [unobserved_pause]
    simp only [Host.observed,Prod.mk.injEq] at hp
    obtain ⟨hi,rfl⟩ := hp
    exact .interrupted (y := y.unobserved) hs hy.unobserved (Prod.ext hi rfl) hr
  | fired hs hy hz ht =>
    rw [unobserved_enter]
    exact .fired hs hy.unobserved hz.unobserved ht
  | @denied _ _ _ w _ _ hs hy hz ht hd hw =>
    rw [unobserved_pause]
    simp only [Host.observed,Prod.mk.injEq] at hw
    obtain ⟨hg,rfl⟩ := hw
    exact .denied (w := w.unobserved) hs hy.unobserved hz.unobserved ht hd.unobserved (Prod.ext hg rfl)
  | @continued _ _ _ w _ _ hs hy hz ht hd hw =>
    simp only [Host.observed,Prod.mk.injEq] at hw
    obtain ⟨hg,rfl⟩ := hw
    exact .continued (w := w.unobserved) hs hy.unobserved hz.unobserved ht hd.unobserved (Prod.ext hg rfl)

theorem step_unobserved (m : Machine) (h : Host σ β) (x : Execution (Observed σ) (Nat × β)) :
    m.step h x.unobserved = ((m.step h.observed x).1,(m.step h.observed x).2.unobserved) :=
  (step_iteration m h.observed x).unobserved.step_eq

/-- The notes of a host do not change the outcome of a run. -/
theorem loop_observed (m : Machine) (h : Host σ β) (x : Execution (Observed σ) (Nat × β)) :
    m.loop h x.unobserved = (m.loop h.observed x).map fun r => (r.1,r.2.state) :=
  loop_map (step_unobserved m h) (fun x status => (unobserved_finish h status x).symm) x

theorem begin_observed (m : Machine) (h : Host σ β) (session : Option SessionState) (host : σ) :
    (m.begin h.observed session (.start host)).unobserved = m.begin h session host := by
  cases session <;> rfl

theorem run_observed (m : Machine) (h : Host σ β) (session : Option SessionState) (host : σ) :
    m.run h session host =
      (m.run h.observed session (.start host)).map fun r => (r.1,r.2.state) := by
  rw [run,run,← loop_observed,begin_observed]

end Machine

end BehaviorMachine
