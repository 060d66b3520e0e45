import BehaviorMachine.Proofs.Run.Suspension

/-!
# What a run hands over

The session that a run returns has a digest, so a later run takes it as it is
(`resumedSession_eq`). A token in it is the one that the run began with or was returned by a pause.
-/
namespace BehaviorMachine

variable {σ β : Type}

/-- A session with a digest, and with a token of some kind if it has one. -/
structure SessionState.Handover (P : ResumeToken → Prop) (s : SessionState) : Prop where
  token : ∀ t, s.resumeToken = some t → P t
  digest : s.profileHash.isSome

namespace Machine

open Execution

variable {m : Machine} {h : Host σ β} {P : ResumeToken → Prop} {x y : Execution σ β}

theorem handover_pause (hp : ∀ b s t, (h.pause b s).1 = some t → P t)
    (hx : x.session.Handover P) : (x.pause h).session.Handover P := by
  rcases x with ⟨s,session,_|b,changes,since⟩
  · exact hx
  · exact ⟨fun t ht => hp b s t ht,hx.digest⟩

theorem handover_enter (source target : StateId) (cause : ChangeCause) (now : Timestamp)
    (hx : x.session.Handover P) : (x.enter h source target cause now).session.Handover P := by
  rw [enter_session]
  exact ⟨fun t ht => (nomatch ht),hx.digest⟩

theorem handover_driven {s : StateSpec} {ticks : UInt32} (hx : x.session.Handover P)
    (hd : Driven m h s x ticks y) : y.session.Handover P := by
  cases hd with
  | completed hc => exact hx
  | unresolved hc ha hr => exact hx
  | resolved hc ha hr =>
    rw [advance_frame]
    exact ⟨fun t ht => (nomatch ht),hx.digest⟩
  | live hc ha =>
    rw [advance_frame]
    exact ⟨hx.token,hx.digest⟩

theorem handover_iteration {flow : Flow} (hp : ∀ b s t, (h.pause b s).1 = some t → P t)
    (hx : x.session.Handover P) (hi : Iteration m h x flow y) : y.session.Handover P := by
  have hready {y : Execution σ β} (hy : Ready m h x y) : y.session.Handover P := by
    rw [hy.frame]
    exact hx
  have hundisturbed {s : StateSpec} {y z : Execution σ β} (hy : Ready m h x y)
      (hz : Undisturbed m h s y z) : z.session.Handover P := by
    have hy := hready hy
    rw [hz.frame]
    exact hy
  cases hi with
  | idle hs => exact hx
  | terminated hs hr => exact hx
  | yieldDenied hs hb hw =>
    apply handover_pause hp
    exact hx
  | redirected hs hy hq hr =>
    have hy := hready hy
    apply handover_enter
    exact hy
  | interrupted hs hy hq hr =>
    have hy := hready hy
    apply handover_pause hp
    exact hy
  | fired hs hy hz ht =>
    apply handover_enter
    exact hundisturbed hy hz
  | denied hs hy hz ht hd hw =>
    have hw := handover_driven (hundisturbed hy hz) hd
    apply handover_pause hp
    exact hw
  | continued hs hy hz ht hd hw =>
    have hw := handover_driven (hundisturbed hy hz) hd
    exact ⟨hw.token,hw.digest⟩

theorem handover_begin (m : Machine) (h : Host σ β) {session : Option SessionState}
    (hs : ∀ s t, session = some s → s.resumeToken = some t → P t) (host : σ) :
    (m.begin h session host).session.Handover P := by
  refine ⟨?_,begin_digest m h session host⟩
  intro t ht
  cases session with
  | none => cases ht
  | some s => exact hs s t rfl ht

/-- A token in the session that a run returns is the one that the run began with, or a pause returned
it. -/
theorem run_handover {session : Option SessionState} {host : σ} {o : RunOutcome} {host' : σ}
    (hp : ∀ b s t, (h.pause b s).1 = some t → P t)
    (hs : ∀ s t, session = some s → s.resumeToken = some t → P t)
    (hr : m.run h session host = some (o,host')) : o.session.Handover P := by
  obtain ⟨n,status,-,-,hf⟩ := loop_eq_some_iff.mp hr
  have hlast : (m.after h (n+1) (m.begin h session host)).session.Handover P :=
    after_induction (P := fun x => x.session.Handover P) (handover_begin m h hs host)
      (fun y hy => handover_iteration hp hy (step_iteration m h y)) (n+1)
  cases hf
  exact hlast

end Machine

end BehaviorMachine
