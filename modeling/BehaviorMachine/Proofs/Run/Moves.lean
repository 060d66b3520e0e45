import BehaviorMachine.Proofs.Run.Iteration

/-!
# Moves of a run

An iteration stays in its state, or it enters another one on grounds that the profile gives: a
transition that fires, or the first handler of an interrupt. The state that it enters resolves
(`Iteration.moves`).
-/
namespace BehaviorMachine

variable {σ β : Type}

/-- Where a session stands: in a state, since some time. -/
structure Position where
  state : Option StateId
  since : Timestamp
  deriving DecidableEq

def SessionState.position (s : SessionState) : Position := ⟨s.currentStateId,s.enteredAt⟩

namespace Profile

variable {p : Profile} {s : StateSpec}

theorem reaction_handler {type : InterruptType} {target : StateId}
    (hr : p.reaction s type = .enter target) : type ≠ .unrecognized ∧ (p.state? target).isSome ∧
      ∃ handler, s.handler? type = some handler ∧ handler.action = .transition ∧
        handler.targetStateId = some target := by
  rw [reaction] at hr
  split at hr
  · cases hr
  · next hn =>
    split at hr
    · cases hr
    · next handler hh =>
      split at hr
      · cases hr
      · next ha ht =>
        split at hr
        · next hs =>
          cases hr
          exact ⟨hn,hs,handler,hh,ha,ht⟩
        · cases hr
      · cases hr

theorem mem_outgoing {state : StateId} {t : Transition} :
    t ∈ p.outgoing state ↔ t ∈ p.transitions ∧ t.fromStateId = state := by
  rw [outgoing,List.mem_mergeSort,List.mem_filter,decide_eq_true_iff]

theorem firing?_some {world : Option WorldSnapshot} {session : SessionState} {now : Timestamp}
    {t : Transition} (ht : p.firing? s world session now = some t) :
    t ∈ p.transitions ∧ t.fromStateId = s.id ∧ (p.state? t.toStateId).isSome ∧
      t.condition.holds world session now = true := by
  have hp := List.find?_some ht
  have hm := mem_outgoing.mp (List.mem_of_find?_eq_some ht)
  rw [Bool.and_eq_true] at hp
  exact ⟨hm.1,hm.2,hp.1,hp.2⟩

end Profile

namespace Machine

/-- The grounds on which an iteration changes the state. -/
inductive Warranted (m : Machine) (h : Host σ β) (x : Execution σ β) (c : StateChange) : Prop where
  /-- A transition fires, in the world and at the time that the host shows. -/
  | transition {s : StateSpec} {y z : Execution σ β} {t : Transition}
      (hs : m.currentState? x.session = some s) (hy : Ready m h x y) (hz : Undisturbed m h s y z)
      (ht : t ∈ m.profile.transitions) (hcause : c.cause = .transition t.id)
      (hsource : t.fromStateId = c.source) (htarget : t.toStateId = c.target)
      (hr : (m.profile.state? c.target).isSome) (htime : h.now z.host = c.time)
      (hc : t.condition.holds (h.world z.host) x.session c.time = true)
  /-- The host delivers an interrupt, whose first handler in the state that is left is followed. -/
  | interrupt {s : StateSpec} {y : Execution σ β} {i : Interrupt} {host : σ}
      {handler : InterruptHandler}
      (hs : m.currentState? x.session = some s) (hy : Ready m h x y)
      (hp : h.poll y.host = (some i,host)) (hcause : c.cause = .interrupt i.type)
      (hn : i.type ≠ .unrecognized) (hsource : s.id = c.source)
      (hh : s.handler? i.type = some handler) (ha : handler.action = .transition)
      (htarget : handler.targetStateId = some c.target) (hr : (m.profile.state? c.target).isSome)
      (htime : h.now host = c.time)

theorem Warranted.resolves {m : Machine} {h : Host σ β} {x : Execution σ β} {c : StateChange}
    (hw : m.Warranted h x c) : (m.profile.state? c.target).isSome := by
  cases hw with
  | transition hs hy hz ht hcause hsource htarget hr htime hc => exact hr
  | interrupt hs hy hp hcause hn hsource hh ha htarget hr htime => exact hr

/-- An iteration stays where the run is, or enters a state and leaves nothing of the behavior. -/
inductive Moves (m : Machine) (h : Host σ β) (x : Execution σ β) : Flow → Execution σ β → Prop where
  | stays {flow : Flow} {y : Execution σ β} (hc : y.changes = x.changes)
      (hp : y.session.position = x.session.position) : Moves m h x flow y
  | enters {y : Execution σ β} {c : StateChange} (hw : m.Warranted h x c)
      (hs : x.session.currentStateId = some c.source) (hc : y.changes = c :: x.changes)
      (hp : y.session.position = ⟨some c.target,c.time⟩) (ht : y.session.resumeToken = none)
      (ha : y.active = none) : Moves m h x .again y

variable {m : Machine} {h : Host σ β} {x y : Execution σ β} {flow : Flow}

theorem moves_enter {z : Execution σ β} {c : StateChange} (hw : m.Warranted h x c)
    (hs : x.session.currentStateId = some c.source)
    (hticks : c.ticksInState = z.session.ticksInState) (hz : z.changes = x.changes) :
    Moves m h x .again (z.enter h c.source c.target c.cause c.time) := by
  refine .enters hw hs ?_ ?_ ?_ (enter_active ..)
  · rw [enter_changes,hz,← hticks]
  · rw [enter_session]
    rfl
  · rw [enter_session]
    rfl

theorem Iteration.moves (hi : Iteration m h x flow y) : Moves m h x flow y := by
  cases hi with
  | idle hs => exact .stays rfl rfl
  | terminated hs hr => exact .stays rfl rfl
  | yieldDenied hs hb hw =>
    rw [pause_frame]
    exact .stays rfl rfl
  | @redirected s y i target host hs hy hp hr =>
    obtain ⟨hn,htarget,handler,hh,ha,ht⟩ := Profile.reaction_handler hr
    exact moves_enter (c := ⟨s.id,target,.interrupt i.type,h.now host,y.session.ticksInState⟩)
      (.interrupt hs hy hp rfl hn rfl hh ha ht htarget rfl) (currentState?_some hs).1 rfl
      (by rw [hy.frame])
  | interrupted hs hy hp hr =>
    rw [pause_frame,hy.frame]
    exact .stays rfl rfl
  | @fired s y z t hs hy hz ht =>
    obtain ⟨hm,hsource,htarget,hc⟩ := Profile.firing?_some ht
    have hx : z.session = x.session := by rw [hz.frame,hy.frame]
    rw [hx] at hc
    exact moves_enter
      (c := ⟨s.id,t.toStateId,.transition t.id,h.now z.host,z.session.ticksInState⟩)
      (.transition hs hy hz hm rfl hsource rfl htarget rfl hc) (currentState?_some hs).1 rfl
      (by rw [hz.frame,hy.frame])
  | denied hs hy hz ht hd hw =>
    rw [pause_frame,hd.frame,hz.frame,hy.frame]
    exact .stays rfl rfl
  | continued hs hy hz ht hd hw =>
    rw [hd.frame,hz.frame,hy.frame]
    exact .stays rfl rfl

theorem Iteration.exit_changes {status : RunStatus} (hi : Iteration m h x (.exit status) y) :
    y.changes = x.changes := by
  cases hi.moves with
  | stays hc hp => exact hc

theorem Iteration.current (hi : Iteration m h x flow y) :
    y.session.currentStateId = x.session.currentStateId ∨
      ∃ target, y.session.currentStateId = some target ∧ (m.profile.state? target).isSome := by
  cases hi.moves with
  | stays hc hp => exact .inl (congrArg Position.state hp)
  | enters hw hs hc hp ht ha => exact .inr ⟨_,congrArg Position.state hp,hw.resolves⟩

/-- A change of state clears the token and leaves no behavior live. -/
theorem Iteration.cleared (hi : Iteration m h x flow y) (hn : y.changes ≠ x.changes) :
    y.session.resumeToken = none ∧ y.active = none := by
  cases hi.moves with
  | stays hc hp => exact absurd hc hn
  | enters hw hs hc hp ht ha => exact ⟨ht,ha⟩

end Machine

end BehaviorMachine
