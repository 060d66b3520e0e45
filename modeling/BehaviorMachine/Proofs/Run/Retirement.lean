import BehaviorMachine.Proofs.Run.Calls
import BehaviorMachine.Proofs.Run.Protocol

/-!
# How behaviors are given up

An iteration gives up the live behavior at its end only: it pauses it if the run is suspended, cancels
it if another state is entered, and keeps it otherwise (`Iteration.retires`). Up to there it makes no
call of either kind (`Spares.grows`).
-/
namespace BehaviorMachine

variable {σ β : Type}

namespace Call

def Sparing : Call → Prop
  | .pause .. => False
  | .cancel .. => False
  | _ => True

theorem Idle.sparing {c : Call} (hc : c.Idle) : c.Sparing := by
  cases c with
  | wait => trivial
  | poll => trivial
  | _ => exact hc.elim

end Call

namespace Machine

open Execution Observed

variable {m : Machine} {h : Host σ β}

/-- An iteration up to the point where it gives up the live behavior or keeps it. -/
inductive Spares (m : Machine) (h : Host σ β) (x : Execution σ β) : Execution σ β → Prop where
  | nothing : Spares m h x x
  | waited {ticks : UInt32} {granted : Bool} {host : σ}
      (hw : h.wait ticks x.host = (granted,host)) :
      Spares m h x { x with host, changesSinceWait := 0 }
  | polled {y : Execution σ β} {answer : Option Interrupt} {host : σ} (hy : Ready m h x y)
      (hp : h.poll y.host = (answer,host)) : Spares m h x { y with host }
  | undisturbed {s : StateSpec} {y z : Execution σ β} (hy : Ready m h x y)
      (hz : Undisturbed m h s y z) : Spares m h x z
  | driven {s : StateSpec} {y z w : Execution σ β} {ticks ticks' : UInt32} {granted : Bool} {host : σ}
      (hs : m.currentState? x.session = some s) (hy : Ready m h x y) (hz : Undisturbed m h s y z)
      (hd : Driven m h s z ticks w) (hw : h.wait ticks' w.host = (granted,host)) :
      Spares m h x { w with host, changesSinceWait := 0 }

theorem Spares.changes {x w : Execution σ β} (hw : Spares m h x w) : w.changes = x.changes := by
  cases hw with
  | nothing => rfl
  | waited hw => rfl
  | polled hy hp => rw [hy.frame]
  | undisturbed hy hz => rw [hz.frame,hy.frame]
  | driven hs hy hz hd hw => rw [hd.frame,hz.frame,hy.frame]

theorem Spares.grows {x w : Execution (Observed σ) (Nat × β)} (hw : Spares m h.observed x w) :
    Grows Call.Sparing x.host w.host := by
  have hidle {r r' : Observed σ} (hg : Grows Call.Idle r r') : Grows Call.Sparing r r' :=
    hg.mono fun _ => Call.Idle.sparing
  cases hw with
  | nothing => exact .refl _ _
  | waited hw => exact hidle (wait_grows hw)
  | polled hy hp => exact hidle (hy.grows.trans (poll_grows hp))
  | undisturbed hy hz => exact hidle (hy.grows.trans hz.grows)
  | driven hs hy hz hd hw =>
    have hdrive : ∀ s values c, IsDrive m.profile s values c → c.Sparing := by
      intro s values c hc
      cases hc <;> trivial
    exact (hidle (hy.grows.trans hz.grows)).trans
      ((hd.adds hdrive (hz.currentState hs hy)).trans (hidle (wait_grows hw)))

theorem Spares.keeps {P : Protocol h} {x w : Execution σ β} (hw : Spares m h x w)
    (hx : P.Keeps x) : P.Keeps w := by
  cases hw with
  | nothing => exact hx
  | waited hw => exact P.keeps_wait hx hw
  | polled hy hp => exact P.keeps_poll (P.keeps_ready hx hy) hp
  | undisturbed hy hz => exact P.keeps_undisturbed (P.keeps_ready hx hy) hz
  | driven hs hy hz hd hw =>
    exact P.keeps_wait (P.keeps_driven (P.keeps_undisturbed (P.keeps_ready hx hy) hz) hd) hw

/-- What becomes of the live behavior at the end of an iteration. -/
inductive Retires (h : Host σ β) (w : Execution (Observed σ) (Nat × β)) :
    Flow → Execution (Observed σ) (Nat × β) → Prop where
  | kept {flow : Flow} {y : Execution (Observed σ) (Nat × β)}
      (hf : ∀ reason, flow ≠ .exit (.suspended reason)) (hn : y.changes = w.changes)
      (hc : y.host.calls = w.host.calls) (ha : y.active = w.active)
      (ht : y.session.resumeToken = w.session.resumeToken) : Retires h w flow y
  /-- A suspension pauses it, and the session takes the token that it returns. -/
  | paused {reason : SuspendReason} {y : Execution (Observed σ) (Nat × β)} {k : Nat} {b : β}
      (hb : w.active = some (k,b)) (hn : y.changes = w.changes)
      (hc : y.host.calls = w.host.calls ++ [.pause k (h.pause b w.host.state).1])
      (ha : y.active = none) (ht : y.session.resumeToken = (h.pause b w.host.state).1) :
      Retires h w (.exit (.suspended reason)) y
  /-- A suspension without one makes no call. -/
  | suspended {reason : SuspendReason} {y : Execution (Observed σ) (Nat × β)}
      (hb : w.active = none) (hn : y.changes = w.changes) (hc : y.host.calls = w.host.calls)
      (ha : y.active = none) (ht : y.session.resumeToken = w.session.resumeToken) :
      Retires h w (.exit (.suspended reason)) y
  /-- A change of state cancels it, if there is one. -/
  | left {y : Execution (Observed σ) (Nat × β)} {change : StateChange}
      (hn : y.changes = change :: w.changes)
      (hc : y.host.calls = w.host.calls ++ (w.active.map fun b => Call.cancel b.1).toList)
      (ha : y.active = none) (ht : y.session.resumeToken = none) : Retires h w .again y

theorem retires_pause (reason : SuspendReason) (w : Execution (Observed σ) (Nat × β)) :
    Retires h w (.exit (.suspended reason)) (w.pause h.observed) := by
  rcases w with ⟨r,session,_|⟨k,b⟩,changes,since⟩
  · exact .suspended rfl rfl rfl rfl rfl
  · exact .paused rfl rfl rfl rfl rfl

theorem retires_enter (source target : StateId) (cause : ChangeCause) (now : Timestamp)
    (w : Execution (Observed σ) (Nat × β)) :
    Retires h w .again (w.enter h.observed source target cause now) := by
  rw [enter_eq]
  exact .left rfl (cancel_calls w) rfl rfl

theorem retires_kept {flow : Flow} (hf : ∀ reason, flow ≠ .exit (.suspended reason))
    (w : Execution (Observed σ) (Nat × β)) : Retires h w flow w :=
  .kept hf rfl rfl rfl rfl

/-- An iteration spares the live behavior up to its end. -/
theorem Iteration.retires {x y : Execution (Observed σ) (Nat × β)} {flow : Flow}
    (hi : Iteration m h.observed x flow y) : ∃ w, Spares m h.observed x w ∧ Retires h w flow y := by
  cases hi with
  | idle hs => exact ⟨_,.nothing,retires_kept (by simp) x⟩
  | terminated hs hr => exact ⟨_,.nothing,retires_kept (by simp) x⟩
  | yieldDenied hs hb hw => exact ⟨_,.waited hw,retires_pause _ _⟩
  | redirected hs hy hp hr => exact ⟨_,.polled hy hp,retires_enter _ _ _ _ _⟩
  | interrupted hs hy hp hr => exact ⟨_,.polled hy hp,retires_pause _ _⟩
  | fired hs hy hz ht => exact ⟨_,.undisturbed hy hz,retires_enter _ _ _ _ _⟩
  | denied hs hy hz ht hd hw => exact ⟨_,.driven hs hy hz hd hw,retires_pause _ _⟩
  | continued hs hy hz ht hd hw =>
    exact ⟨_,.driven hs hy hz hd hw,.kept (by simp) rfl rfl rfl rfl⟩

end Machine

end BehaviorMachine
