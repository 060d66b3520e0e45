import BehaviorMachine.Proofs.Run.Course

/-!
# Profiles that run alike

A run reads a profile through the state that it is in: its behavior, parameters and ports, the
reactions to interrupts and the transition that fires. Two profiles from which it reads the same are
run in the same way, up to the digest that the session keeps.
-/
namespace BehaviorMachine

variable {σ β α : Type} {p q : Profile} {budgets : Budgets}

/-- A run reads the same from a state of the first profile and from a state of the second. -/
structure StateSpec.Alike (p q : Profile) (s t : StateSpec) : Prop where
  id : t.id = s.id
  behaviorName : t.behaviorName = s.behaviorName
  ports : t.ports = s.ports
  reaction : ∀ type, q.reaction t type = p.reaction s type
  params : ∀ values, q.effectiveParams t values = p.effectiveParams s values
  firing : ∀ world session now, q.firing? t world session now = p.firing? s world session now

/-- The profiles have states of the same identifiers, and a run reads the same from them. -/
structure Profile.Alike (p q : Profile) : Prop where
  initial : q.initialStateId = p.initialStateId
  states : ∀ id, Option.Rel (StateSpec.Alike p q) (p.state? id) (q.state? id)

theorem Profile.Alike.state?_none (ha : p.Alike q) {id : StateId} (hs : p.state? id = none) :
    q.state? id = none := by
  have hr := ha.states id
  rw [hs] at hr
  cases hq : q.state? id with
  | none => rfl
  | some t =>
    rw [hq] at hr
    cases hr

theorem Profile.Alike.state?_some (ha : p.Alike q) {id : StateId} {s : StateSpec}
    (hs : p.state? id = some s) : ∃ t, q.state? id = some t ∧ StateSpec.Alike p q s t := by
  have hr := ha.states id
  rw [hs] at hr
  cases hq : q.state? id with
  | none =>
    rw [hq] at hr
    cases hr
  | some t =>
    rw [hq] at hr
    cases hr with
    | some hst => exact ⟨t,rfl,hst⟩

theorem PortProgram.run_ports {s t : StateSpec} (hid : t.id = s.id) (hports : t.ports = s.ports)
    (program : PortProgram α) (values : PortValues) :
    program.run t values = program.run s values := by
  have hwrite (values : PortValues) (name : String) (value : ParamValue) :
      t.write? values name value = s.write? values name value := by
    simp only [StateSpec.write?,StateSpec.outputNamed?,hid,hports]
  have hread (values : PortValues) (name : String) : t.read? values name = s.read? values name := by
    simp only [StateSpec.read?,StateSpec.outputNamed?,hid,hports]
  induction program generalizing values with
  | done result => rfl
  | write name value next ih => simp only [run,hwrite,ih]
  | read name next ih => simp only [run,hread,ih]

def SessionState.withDigest (s : SessionState) (digest : Option HashDigest) : SessionState :=
  { s with profileHash := digest }

def RunOutcome.withDigest (o : RunOutcome) (digest : Option HashDigest) : RunOutcome :=
  { o with session := o.session.withDigest digest }

def Execution.withDigest (x : Execution σ β) (digest : Option HashDigest) : Execution σ β :=
  { x with session := x.session.withDigest digest }

namespace Execution

variable (h : Host σ β) (d : Option HashDigest) (x : Execution σ β)

theorem pause_withDigest : (x.withDigest d).pause h = (x.pause h).withDigest d := by
  rcases x with ⟨host,session,_|b,changes,since⟩ <;> rfl

theorem enter_withDigest (source target : StateId) (cause : ChangeCause) (now : Timestamp) :
    (x.withDigest d).enter h source target cause now =
      (x.enter h source target cause now).withDigest d := by
  rcases x with ⟨host,session,_|b,changes,since⟩ <;> rfl

theorem finish_withDigest (status : RunStatus) : (x.withDigest d).finish h status =
    ((x.finish h status).1.withDigest d,(x.finish h status).2) := by
  rcases x with ⟨host,session,_|b,changes,since⟩ <;> rfl

end Execution

namespace Machine

variable {h : Host σ β} {d : Option HashDigest} {x y : Execution σ β} {s t : StateSpec}

theorem advance_withDigest (hid : t.id = s.id) (hports : t.ports = s.ports)
    (params : BehaviorParams) (b : β) :
    advance h t params b (x.withDigest d) = (advance h s params b x).withDigest d := by
  have hrun : ((h.step ⟨t.id,params,x.session.ticksInState⟩ b x.host).run t x.session.portValues) =
      ((h.step ⟨s.id,params,x.session.ticksInState⟩ b x.host).run s x.session.portValues) := by
    rw [PortProgram.run_ports hid hports,hid]
  simp only [advance,Execution.withDigest,SessionState.withDigest,hrun]
  rcases (h.step ⟨s.id,params,x.session.ticksInState⟩ b x.host).run s x.session.portValues
    with ⟨⟨_|_|e,b',host⟩,values⟩ <;> rfl

theorem Ready.alike (hy : Ready ⟨p,budgets⟩ h x y) :
    Ready ⟨q,budgets⟩ h (x.withDigest d) (y.withDigest d) := by
  cases hy with
  | within hb => exact .within hb
  | yielded hb hw => exact .yielded (x := x.withDigest d) hb hw

theorem Undisturbed.alike (hst : StateSpec.Alike p q s t) (hy : Undisturbed ⟨p,budgets⟩ h s x y) :
    Undisturbed ⟨q,budgets⟩ h t (x.withDigest d) (y.withDigest d) := by
  cases hy with
  | quiet hp => exact .quiet (x := x.withDigest d) hp
  | ignored hp hr => exact .ignored (x := x.withDigest d) hp ((hst.reaction _).trans hr)

theorem Driven.alike {ticks : UInt32} (hst : StateSpec.Alike p q s t)
    (hd : Driven ⟨p,budgets⟩ h s x ticks y) :
    Driven ⟨q,budgets⟩ h t (x.withDigest d) ticks (y.withDigest d) := by
  have hparams : q.effectiveParams t (x.withDigest d).session.portValues =
      p.effectiveParams s x.session.portValues := hst.params _
  cases hd with
  | completed hc => exact .completed hc
  | unresolved hc ha hr =>
    refine .unresolved (x := x.withDigest d) hc ha ?_
    rw [hst.behaviorName,hparams]
    exact hr
  | @resolved b host hc ha hr =>
    rw [← advance_withDigest hst.id hst.ports,← hparams]
    refine .resolved (x := x.withDigest d) hc ha ?_
    rw [hst.behaviorName,hparams]
    exact hr
  | live hc ha =>
    rw [← advance_withDigest hst.id hst.ports,← hparams]
    exact .live (x := x.withDigest d) hc ha

theorem currentState?_alike (ha : p.Alike q)
    (hs : currentState? ⟨p,budgets⟩ x.session = some s) :
    ∃ t, currentState? ⟨q,budgets⟩ (x.withDigest d).session = some t ∧
      StateSpec.Alike p q s t := by
  obtain ⟨hid,hs⟩ := currentState?_some hs
  obtain ⟨t,ht,hst⟩ := ha.state?_some hs
  have hid : (x.withDigest d).session.currentStateId = some s.id := hid
  refine ⟨t,?_,hst⟩
  rw [currentState?,hid,Option.bind_some]
  exact ht

theorem firing?_alike (hst : StateSpec.Alike p q s t) (world : Option WorldSnapshot)
    (now : Timestamp) : q.firing? t world (x.withDigest d).session now =
      p.firing? s world x.session now := by
  rw [hst.firing]
  exact Profile.firing?_congr rfl rfl p s world now

/-- What an iteration does with one profile, it does with the other. -/
theorem Iteration.alike (ha : p.Alike q) (d : Option HashDigest) {flow : Flow}
    (hi : Iteration ⟨p,budgets⟩ h x flow y) :
    Iteration ⟨q,budgets⟩ h (x.withDigest d) flow (y.withDigest d) := by
  cases hi with
  | idle hs => exact .idle hs
  | terminated hs hr => exact .terminated (x := x.withDigest d) hs (ha.state?_none hr)
  | yieldDenied hs hb hw =>
    obtain ⟨t,ht,hst⟩ := currentState?_alike (d := d) ha hs
    rw [← Execution.pause_withDigest]
    exact .yieldDenied (x := x.withDigest d) ht hb hw
  | @redirected s y i target host hs hy hp hr =>
    obtain ⟨t,ht,hst⟩ := currentState?_alike (d := d) ha hs
    rw [← Execution.enter_withDigest,← hst.id]
    exact .redirected (y := y.withDigest d) ht hy.alike hp ((hst.reaction _).trans hr)
  | @interrupted s y i host hs hy hp hr =>
    obtain ⟨t,ht,hst⟩ := currentState?_alike (d := d) ha hs
    rw [← Execution.pause_withDigest]
    exact .interrupted (y := y.withDigest d) ht hy.alike hp ((hst.reaction _).trans hr)
  | @fired s y z transition hs hy hz hf =>
    obtain ⟨t,ht,hst⟩ := currentState?_alike (d := d) ha hs
    rw [← Execution.enter_withDigest,← hst.id]
    exact .fired (z := z.withDigest d) ht hy.alike (hz.alike hst)
      ((firing?_alike hst _ _).trans hf)
  | @denied s y z w ticks host hs hy hz hf hd hw =>
    obtain ⟨t,ht,hst⟩ := currentState?_alike (d := d) ha hs
    rw [← Execution.pause_withDigest]
    exact .denied (z := z.withDigest d) (w := w.withDigest d) ht hy.alike (hz.alike hst)
      ((firing?_alike hst _ _).trans hf) (hd.alike hst) hw
  | @continued s y z w ticks host hs hy hz hf hd hw =>
    obtain ⟨t,ht,hst⟩ := currentState?_alike (d := d) ha hs
    exact .continued (z := z.withDigest d) (w := w.withDigest d) ht hy.alike (hz.alike hst)
      ((firing?_alike hst _ _).trans hf) (hd.alike hst) hw

theorem step_alike (ha : p.Alike q) (h : Host σ β) (d : Option HashDigest) (x : Execution σ β) :
    step ⟨q,budgets⟩ h (x.withDigest d) =
      ((step ⟨p,budgets⟩ h x).1,(step ⟨p,budgets⟩ h x).2.withDigest d) :=
  ((step_iteration ⟨p,budgets⟩ h x).alike ha d).step_eq

def digest (m : Machine) (session : Option SessionState) : Option HashDigest :=
  (session.bind SessionState.profileHash).or (some m.profile.hash)

theorem begin_alike (ha : p.Alike q) (h : Host σ β) (session : Option SessionState) (host : σ) :
    begin ⟨q,budgets⟩ h session host =
      (begin ⟨p,budgets⟩ h session host).withDigest (digest ⟨q,budgets⟩ session) := by
  cases session with
  | none =>
    rw [begin,freshSession,ha.initial]
    rfl
  | some session => rfl

theorem after_alike (ha : p.Alike q) (h : Host σ β) (session : Option SessionState) (host : σ)
    (n : Nat) : after ⟨q,budgets⟩ h n (begin ⟨q,budgets⟩ h session host) =
      (after ⟨p,budgets⟩ h n (begin ⟨p,budgets⟩ h session host)).withDigest
        (digest ⟨q,budgets⟩ session) := by
  rw [begin_alike ha]
  exact after_map (step_alike ha h _) n _

/-- The runs of profiles that are alike have the same outcome but for the digest, and leave the host
in the same state. -/
theorem run_alike (ha : p.Alike q) (h : Host σ β) (session : Option SessionState) (host : σ) :
    run ⟨q,budgets⟩ h session host = (run ⟨p,budgets⟩ h session host).map fun r =>
      (r.1.withDigest (digest ⟨q,budgets⟩ session),r.2) := by
  rw [run,begin_alike ha]
  exact loop_map (step_alike ha h _) (fun x status => Execution.finish_withDigest h _ x status) _

end Machine

end BehaviorMachine
