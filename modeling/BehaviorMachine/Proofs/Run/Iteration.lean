import BehaviorMachine.Run.Loop
/-!
# Iterations of a run

An iteration ends in one of eight ways. `Iteration` lists them with all that an iteration does on
the way. There are no others (`step_iteration`), and no two of them apply at once
(`Iteration.step_eq`), so that invariants go by cases and simulations by rules.
-/
namespace BehaviorMachine

theorem Condition.holds_congr {s s' : SessionState}
    (hc : s'.subBehaviorComplete = s.subBehaviorComplete) (he : s'.enteredAt = s.enteredAt)
    (c : Condition) (world : Option WorldSnapshot) (now : Timestamp) :
    c.holds world s' now = c.holds world s now := by
  cases world with
  | none => rfl
  | some w => cases c <;> simp only [holds,hc,he]

theorem Profile.firing?_congr {s s' : SessionState}
    (hc : s'.subBehaviorComplete = s.subBehaviorComplete) (he : s'.enteredAt = s.enteredAt)
    (p : Profile) (spec : StateSpec) (world : Option WorldSnapshot) (now : Timestamp) :
    p.firing? spec world s' now = p.firing? spec world s now := by
  simp only [firing?,Condition.holds_congr hc he]

namespace Machine

open Execution

variable {σ β : Type}

def currentState? (m : Machine) (session : SessionState) : Option StateSpec :=
  session.currentStateId.bind m.profile.state?

theorem state?_id {p : Profile} {id : StateId} {s : StateSpec} (h : p.state? id = some s) :
    s.id = id := by
  have hp := List.find?_some h
  exact of_decide_eq_true hp

theorem currentState?_some {m : Machine} {session : SessionState} {s : StateSpec}
    (h : m.currentState? session = some s) :
    session.currentStateId = some s.id ∧ m.profile.state? s.id = some s := by
  obtain ⟨id,hid,hs⟩ := Option.bind_eq_some_iff.mp h
  have he := state?_id hs
  subst he
  exact ⟨hid,hs⟩

/-- An iteration yields first if the budget of state changes is spent. -/
inductive Ready (m : Machine) (h : Host σ β) (x : Execution σ β) : Execution σ β → Prop where
  | within (hb : ¬ m.budgets.maxTransitionsPerTick ≤ x.changesSinceWait) : Ready m h x x
  | yielded {host : σ} (hb : m.budgets.maxTransitionsPerTick ≤ x.changesSinceWait)
      (hw : h.wait m.budgets.yieldTicks x.host = (true,host)) :
      Ready m h x { x with host, changesSinceWait := 0 }

/-- No interrupt is pending in a state, or the one that is gets ignored. -/
inductive Undisturbed (m : Machine) (h : Host σ β) (s : StateSpec) (x : Execution σ β) :
    Execution σ β → Prop where
  | quiet {host : σ} (hp : h.poll x.host = (none,host)) : Undisturbed m h s x { x with host }
  | ignored {i : Interrupt} {host : σ} (hp : h.poll x.host = (some i,host))
      (hr : m.profile.reaction s i.type = .ignore) : Undisturbed m h s x { x with host }

/-- What is done for the behavior of a state, and the ticks to wait then. -/
inductive Driven (m : Machine) (h : Host σ β) (s : StateSpec) (x : Execution σ β) :
    UInt32 → Execution σ β → Prop where
  | completed (hc : x.session.subBehaviorComplete = true) :
      Driven m h s x m.budgets.idleWaitTicks x
  | unresolved {host : σ} (hc : x.session.subBehaviorComplete = false) (ha : x.active = none)
      (hr : h.resolve s.behaviorName (m.profile.effectiveParams s x.session.portValues)
        x.session.resumeToken x.host = (none,host)) :
      Driven m h s x m.budgets.retryWaitTicks { x with host }
  | resolved {b : β} {host : σ} (hc : x.session.subBehaviorComplete = false) (ha : x.active = none)
      (hr : h.resolve s.behaviorName (m.profile.effectiveParams s x.session.portValues)
        x.session.resumeToken x.host = (some b,host)) :
      Driven m h s x m.budgets.yieldTicks
        (advance h s (m.profile.effectiveParams s x.session.portValues) b
          { x with host, session := { x.session with resumeToken := none } })
  | live {b : β} (hc : x.session.subBehaviorComplete = false) (ha : x.active = some b) :
      Driven m h s x m.budgets.yieldTicks
        (advance h s (m.profile.effectiveParams s x.session.portValues) b x)

/-- The ways in which an iteration ends. -/
inductive Iteration (m : Machine) (h : Host σ β) (x : Execution σ β) :
    Flow → Execution σ β → Prop where
  | idle (hs : x.session.currentStateId = none) : Iteration m h x (.exit .idle) x
  | terminated {id : StateId} (hs : x.session.currentStateId = some id)
      (hr : m.profile.state? id = none) : Iteration m h x (.exit (.terminated id)) x
  | yieldDenied {s : StateSpec} {host : σ} (hs : m.currentState? x.session = some s)
      (hb : m.budgets.maxTransitionsPerTick ≤ x.changesSinceWait)
      (hw : h.wait m.budgets.yieldTicks x.host = (false,host)) :
      Iteration m h x (.exit (.suspended .hostDenied))
        (Execution.pause h { x with host, changesSinceWait := 0 })
  | redirected {s : StateSpec} {y : Execution σ β} {i : Interrupt} {target : StateId} {host : σ}
      (hs : m.currentState? x.session = some s) (hy : Ready m h x y)
      (hp : h.poll y.host = (some i,host)) (hr : m.profile.reaction s i.type = .enter target) :
      Iteration m h x .again
        (Execution.enter h s.id target (.interrupt i.type) (h.now host) { y with host })
  | interrupted {s : StateSpec} {y : Execution σ β} {i : Interrupt} {host : σ}
      (hs : m.currentState? x.session = some s) (hy : Ready m h x y)
      (hp : h.poll y.host = (some i,host)) (hr : m.profile.reaction s i.type = .pause) :
      Iteration m h x (.exit (.suspended (.interrupt i.type))) (Execution.pause h { y with host })
  | fired {s : StateSpec} {y z : Execution σ β} {t : Transition}
      (hs : m.currentState? x.session = some s) (hy : Ready m h x y) (hz : Undisturbed m h s y z)
      (ht : m.profile.firing? s (h.world z.host) z.session (h.now z.host) = some t) :
      Iteration m h x .again
        (z.enter h s.id t.toStateId (.transition t.id) (h.now z.host))
  | denied {s : StateSpec} {y z w : Execution σ β} {ticks : UInt32} {host : σ}
      (hs : m.currentState? x.session = some s) (hy : Ready m h x y) (hz : Undisturbed m h s y z)
      (ht : m.profile.firing? s (h.world z.host) z.session (h.now z.host) = none)
      (hd : Driven m h s z ticks w) (hw : h.wait ticks w.host = (false,host)) :
      Iteration m h x (.exit (.suspended .hostDenied))
        (Execution.pause h { w with host, changesSinceWait := 0 })
  | continued {s : StateSpec} {y z w : Execution σ β} {ticks : UInt32} {host : σ}
      (hs : m.currentState? x.session = some s) (hy : Ready m h x y) (hz : Undisturbed m h s y z)
      (ht : m.profile.firing? s (h.world z.host) z.session (h.now z.host) = none)
      (hd : Driven m h s z ticks w) (hw : h.wait ticks w.host = (true,host)) :
      Iteration m h x .again
        { w with
          host
          changesSinceWait := 0
          session :=
            { w.session with ticksInState := addSaturating w.session.ticksInState 1 } }

theorem Ready.frame {m : Machine} {h : Host σ β} {x y : Execution σ β} (hy : Ready m h x y) :
    y = { x with host := y.host, changesSinceWait := y.changesSinceWait } := by
  cases hy <;> rfl

theorem Undisturbed.frame {m : Machine} {h : Host σ β} {s : StateSpec} {x y : Execution σ β}
    (hy : Undisturbed m h s x y) : y = { x with host := y.host } := by
  cases hy <;> rfl

theorem Undisturbed.currentState {m : Machine} {h : Host σ β} {s : StateSpec}
    {x y z : Execution σ β} (hs : m.currentState? x.session = some s) (hy : Ready m h x y)
    (hz : Undisturbed m h s y z) : m.currentState? z.session = some s := by
  rw [hz.frame,hy.frame]
  exact hs

/-- An iteration gets as far as the transitions out of its state, and looks at their conditions. -/
inductive Considers (m : Machine) (h : Host σ β) (x : Execution σ β) (s : StateSpec) :
    Execution σ β → Prop where
  | intro {y z : Execution σ β} (hs : m.currentState? x.session = some s) (hy : Ready m h x y)
      (hz : Undisturbed m h s y z) : Considers m h x s z

theorem Considers.session {m : Machine} {h : Host σ β} {s : StateSpec} {x z : Execution σ β}
    (hz : Considers m h x s z) : z.session = x.session := by
  obtain ⟨hs,hy,hu⟩ := hz
  rw [hu.frame,hy.frame]

/-- Within its budget and without a pending interrupt, an iteration gets to the transitions. -/
theorem considers_quiet {m : Machine} {h : Host σ β} {x : Execution σ β}
    (hs : (m.currentState? x.session).isSome)
    (hb : ¬ m.budgets.maxTransitionsPerTick ≤ x.changesSinceWait) (hp : (h.poll x.host).1 = none) :
    ∃ s, Considers m h x s { x with host := (h.poll x.host).2 } := by
  obtain ⟨s,hs⟩ := Option.isSome_iff_exists.mp hs
  exact ⟨s,hs,.within hb,.quiet (Prod.ext hp rfl)⟩

theorem advance_frame (h : Host σ β) (s : StateSpec) (params : BehaviorParams) (b : β)
    (x : Execution σ β) : advance h s params b x =
      { x with
        host := (advance h s params b x).host
        active := (advance h s params b x).active
        session := { x.session with
          portValues := (advance h s params b x).session.portValues
          subBehaviorComplete := (advance h s params b x).session.subBehaviorComplete } } := by
  rw [advance]
  rcases (h.step ⟨s.id,params,x.session.ticksInState⟩ b x.host).run s x.session.portValues
    with ⟨⟨_|_|e,b',host⟩,values⟩ <;> rfl

theorem Driven.frame {m : Machine} {h : Host σ β} {s : StateSpec} {x y : Execution σ β}
    {ticks : UInt32} (hd : Driven m h s x ticks y) : y =
      { x with
        host := y.host
        active := y.active
        session := { x.session with
          portValues := y.session.portValues
          subBehaviorComplete := y.session.subBehaviorComplete
          resumeToken := y.session.resumeToken } } := by
  cases hd with
  | completed hc => rfl
  | unresolved hc ha hr => rfl
  | resolved hc ha hr => rw [advance_frame]
  | live hc ha => rw [advance_frame]

theorem pause_frame (h : Host σ β) (x : Execution σ β) : x.pause h =
    { x with
      host := (x.pause h).host
      active := none
      session := { x.session with resumeToken := (x.pause h).session.resumeToken } } := by
  rcases x with ⟨host,session,_|b,changes,since⟩ <;> rfl

theorem enter_eq (h : Host σ β) (source target : StateId) (cause : ChangeCause)
    (now : Timestamp) (x : Execution σ β) : x.enter h source target cause now =
      { host := (x.cancel h).host
        session := x.session.enter target now
        active := none
        changes := ⟨source,target,cause,now,x.session.ticksInState⟩ :: x.changes
        changesSinceWait := addSaturating32 x.changesSinceWait 1 } := by
  rcases x with ⟨host,session,_|b,changes,since⟩ <;> rfl

theorem enter_session (h : Host σ β) (source target : StateId) (cause : ChangeCause)
    (now : Timestamp) (x : Execution σ β) :
    (x.enter h source target cause now).session = x.session.enter target now := by
  rw [enter_eq]

theorem enter_active (h : Host σ β) (source target : StateId) (cause : ChangeCause)
    (now : Timestamp) (x : Execution σ β) :
    (x.enter h source target cause now).active = none := by
  rw [enter_eq]

theorem enter_changes (h : Host σ β) (source target : StateId) (cause : ChangeCause)
    (now : Timestamp) (x : Execution σ β) : (x.enter h source target cause now).changes =
      ⟨source,target,cause,now,x.session.ticksInState⟩ :: x.changes := by
  rw [enter_eq]

theorem wait_eq {h : Host σ β} {ticks : UInt32} {x : Execution σ β} {granted : Bool} {host : σ}
    (hw : h.wait ticks x.host = (granted,host)) :
    Execution.wait h ticks x = (granted,{ x with host }) := by
  rw [Execution.wait,hw]

theorem obtain_live (h : Host σ β) (s : StateSpec) (params : BehaviorParams) {x : Execution σ β}
    {b : β} (ha : x.active = some b) : obtain h s params x = (some b,x) := by
  rw [obtain,ha]

theorem obtain_resolve {h : Host σ β} {s : StateSpec} {params : BehaviorParams}
    {x : Execution σ β} {b : Option β} {host : σ} (ha : x.active = none)
    (hr : h.resolve s.behaviorName params x.session.resumeToken x.host = (b,host)) :
    obtain h s params x = (b,{ x with
      host, session := { x.session with
        resumeToken := if b.isSome then none else x.session.resumeToken } }) := by
  rw [obtain,ha]
  cases b <;> simp only [hr] <;> rfl

theorem drive_driven (m : Machine) (h : Host σ β) (s : StateSpec) (x : Execution σ β)
    (hc : x.session.subBehaviorComplete = false) :
    Driven m h s x (m.drive h s x).1 (m.drive h s x).2 := by
  rw [drive]
  cases ha : x.active with
  | some b =>
    rw [obtain_live h s _ ha]
    exact .live hc ha
  | none =>
    rcases hr : h.resolve s.behaviorName (m.profile.effectiveParams s x.session.portValues)
      x.session.resumeToken x.host with ⟨_|b,host⟩
    · rw [obtain_resolve ha hr]
      exact .unresolved hc ha hr
    · rw [obtain_resolve ha hr]
      exact .resolved hc ha hr

theorem exists_driven (m : Machine) (h : Host σ β) (s : StateSpec) (x : Execution σ β) :
    ∃ ticks y, Driven m h s x ticks y := by
  by_cases hc : x.session.subBehaviorComplete = true
  · exact ⟨_,_,.completed hc⟩
  · exact ⟨_,_,drive_driven m h s x (by simpa using hc)⟩

theorem Driven.drive_eq {m : Machine} {h : Host σ β} {s : StateSpec} {x y : Execution σ β}
    {ticks : UInt32} (hd : Driven m h s x ticks y) :
    (if x.session.subBehaviorComplete then (m.budgets.idleWaitTicks,x) else m.drive h s x) =
      (ticks,y) := by
  cases hd with
  | completed hc => rw [if_pos hc]
  | unresolved hc ha hr => rw [if_neg (by simp [hc]),drive,obtain_resolve ha hr]; rfl
  | resolved hc ha hr => rw [if_neg (by simp [hc]),drive,obtain_resolve ha hr]; rfl
  | live hc ha => rw [if_neg (by simp [hc]),drive,obtain_live h s _ ha]

theorem work_iteration {m : Machine} {h : Host σ β} {s : StateSpec} {x y z : Execution σ β}
    (hs : m.currentState? x.session = some s) (hy : Ready m h x y) (hz : Undisturbed m h s y z)
    (ht : m.profile.firing? s (h.world z.host) z.session (h.now z.host) = none) :
    Iteration m h x (m.work h s z).1 (m.work h s z).2 := by
  obtain ⟨ticks,w,hd⟩ := exists_driven m h s z
  rw [work,hd.drive_eq]
  dsimp only
  rcases hg : h.wait ticks w.host with ⟨_|_,host⟩
  · rw [wait_eq (x := { w with changesSinceWait := 0 }) hg]
    exact .denied (w := w) hs hy hz ht hd hg
  · rw [wait_eq (x := { w with changesSinceWait := 0 }) hg]
    exact .continued (w := w) hs hy hz ht hd hg

theorem transit_iteration {m : Machine} {h : Host σ β} {s : StateSpec} {x y z : Execution σ β}
    (hs : m.currentState? x.session = some s) (hy : Ready m h x y) (hz : Undisturbed m h s y z) :
    Iteration m h x (m.transit h s z).1 (m.transit h s z).2 := by
  rw [transit]
  cases ht : m.profile.firing? s (h.world z.host) z.session (h.now z.host) with
  | none => exact work_iteration hs hy hz ht
  | some t => exact .fired hs hy hz ht

theorem react_iteration {m : Machine} {h : Host σ β} {s : StateSpec} {x y : Execution σ β}
    (hs : m.currentState? x.session = some s) (hy : Ready m h x y) :
    Iteration m h x (m.react h s y).1 (m.react h s y).2 := by
  rw [react]
  rcases hp : h.poll y.host with ⟨_|i,host⟩
  · exact transit_iteration hs hy (.quiet hp)
  · cases hr : m.profile.reaction s i.type with
    | enter target =>
      simp only [hr]
      exact .redirected hs hy hp hr
    | pause =>
      simp only [hr]
      exact .interrupted hs hy hp hr
    | ignore =>
      simp only [hr]
      exact transit_iteration hs hy (.ignored hp hr)

/-- Every iteration ends in one of the listed ways. -/
theorem step_iteration (m : Machine) (h : Host σ β) (x : Execution σ β) :
    Iteration m h x (m.step h x).1 (m.step h x).2 := by
  rw [step]
  cases hs : x.session.currentStateId with
  | none => exact .idle hs
  | some id =>
    cases hr : m.profile.state? id with
    | none =>
      simp only [hr]
      exact .terminated hs hr
    | some s =>
      have hc : m.currentState? x.session = some s := by
        rw [currentState?,hs,Option.bind_some,hr]
      simp only [hr]
      rw [visit]
      split
      · next hb =>
        rcases hw : h.wait m.budgets.yieldTicks x.host with ⟨_|_,host⟩
        · rw [wait_eq (x := { x with changesSinceWait := 0 }) hw]
          exact .yieldDenied hc hb hw
        · rw [wait_eq (x := { x with changesSinceWait := 0 }) hw]
          exact react_iteration hc (.yielded hb hw)
      · next hb => exact react_iteration hc (.within hb)

theorem iteration_of_flow {m : Machine} {h : Host σ β} {x : Execution σ β} {flow : Flow}
    (hf : (m.step h x).1 = flow) : Iteration m h x flow (m.step h x).2 := by
  rw [← hf]
  exact step_iteration m h x

theorem Undisturbed.react_eq {m : Machine} {h : Host σ β} {s : StateSpec} {x y : Execution σ β}
    (hu : Undisturbed m h s x y) : m.react h s x = m.transit h s y := by
  cases hu with
  | quiet hp => rw [react,hp]
  | ignored hp hr => simp only [react,hp,hr]

theorem Ready.visit_eq {m : Machine} {h : Host σ β} {s : StateSpec} {x y : Execution σ β}
    (hy : Ready m h x y) : m.visit h s x = m.react h s y := by
  cases hy with
  | within hb => rw [visit,if_neg hb]
  | yielded hb hw => rw [visit,if_pos hb,wait_eq (x := { x with changesSinceWait := 0 }) hw]

theorem step_visit {m : Machine} {h : Host σ β} {x : Execution σ β} {s : StateSpec}
    (hs : m.currentState? x.session = some s) : m.step h x = m.visit h s x := by
  obtain ⟨hid,hr⟩ := currentState?_some hs
  simp only [step,hid,hr]

/-- The ways in which iterations end exclude each other. -/
theorem Iteration.step_eq {m : Machine} {h : Host σ β} {x y : Execution σ β} {flow : Flow}
    (hi : Iteration m h x flow y) : m.step h x = (flow,y) := by
  cases hi with
  | idle hs => rw [step,hs]
  | terminated hs hr => simp only [step,hs,hr]
  | yieldDenied hs hb hw =>
    rw [step_visit hs,visit,if_pos hb,wait_eq (x := { x with changesSinceWait := 0 }) hw]
    rfl
  | redirected hs hy hp hr =>
    rw [step_visit hs,hy.visit_eq]
    simp only [react,hp,hr]
  | interrupted hs hy hp hr =>
    rw [step_visit hs,hy.visit_eq]
    simp only [react,hp,hr]
    rfl
  | fired hs hy hz ht => rw [step_visit hs,hy.visit_eq,hz.react_eq,transit,ht]
  | @denied _ _ _ w _ _ hs hy hz ht hd hw =>
    rw [step_visit hs,hy.visit_eq,hz.react_eq,transit,ht]
    simp only [work,hd.drive_eq]
    rw [wait_eq (x := { w with changesSinceWait := 0 }) hw]
    rfl
  | @continued _ _ _ w _ _ hs hy hz ht hd hw =>
    rw [step_visit hs,hy.visit_eq,hz.react_eq,transit,ht]
    simp only [work,hd.drive_eq]
    rw [wait_eq (x := { w with changesSinceWait := 0 }) hw]

end Machine

end BehaviorMachine
