import BehaviorMachine.Proofs.Profile.WellFormed
import BehaviorMachine.Proofs.Run.Observation

/-!
# Runs never walk into a dangling state

Both ways into a state, a transition and the handler of an interrupt, look the state up first. Once
the current state resolves it does so for good, and a run ends without being suspended only if it
could not start.
-/
namespace BehaviorMachine

variable {σ β : Type}

namespace RunStatus

def ofUnresolved (session : SessionState) : RunStatus :=
  match session.currentStateId with
  | none => .idle
  | some id => .terminated id

def IsSuspended (status : RunStatus) : Prop := ∃ reason, status = .suspended reason

end RunStatus

namespace Machine

theorem step_resolves {m : Machine} {h : Host σ β} {x : Execution σ β}
    (hx : (m.currentState? x.session).isSome) :
    (m.currentState? (m.step h x).2.session).isSome := by
  rw [currentState?] at hx ⊢
  rcases (step_iteration m h x).current with hc | ⟨target,hc,ht⟩
  · rw [hc]
    exact hx
  · rw [hc]
    exact ht

theorem after_resolves {m : Machine} {h : Host σ β} {x : Execution σ β}
    (hx : (m.currentState? x.session).isSome) (n : Nat) :
    (m.currentState? (m.after h n x).session).isSome :=
  after_induction (P := fun y => (m.currentState? y.session).isSome) hx
    (fun _ hy => step_resolves hy) n

theorem Iteration.suspended {m : Machine} {h : Host σ β} {x y : Execution σ β} {status : RunStatus}
    (hi : Iteration m h x (.exit status) y) (hx : (m.currentState? x.session).isSome) :
    status.IsSuspended := by
  cases hi with
  | idle hs => simp [currentState?,hs] at hx
  | terminated hs hr => simp [currentState?,hs,hr] at hx
  | yieldDenied hs hb hw => exact ⟨_,rfl⟩
  | interrupted hs hy hp hr => exact ⟨_,rfl⟩
  | denied hs hy hz ht hd hw => exact ⟨_,rfl⟩

theorem loop_suspended {m : Machine} {h : Host σ β} {x : Execution σ β} {r : RunOutcome × σ}
    (hx : (m.currentState? x.session).isSome) (hr : m.loop h x = some r) :
    r.1.status.IsSuspended ∧ (m.currentState? r.1.session).isSome := by
  obtain ⟨n,status,hl,he,rfl⟩ := loop_eq_some_iff.mp hr
  exact ⟨(iteration_of_flow he).suspended (after_resolves hx n),after_resolves hx (n+1)⟩

theorem step_unresolved {m : Machine} {x : Execution σ β} (h : Host σ β)
    (hx : m.currentState? x.session = none) :
    m.step h x = (.exit (.ofUnresolved x.session),x) := by
  rw [RunStatus.ofUnresolved]
  rw [currentState?] at hx
  cases hs : x.session.currentStateId with
  | none => exact (Iteration.idle hs).step_eq
  | some id =>
    rw [hs] at hx
    exact (Iteration.terminated hs hx).step_eq

theorem run_unresolved {m : Machine} {h : Host σ β} {session : Option SessionState} {host : σ}
    (hx : m.currentState? (m.begin h session host).session = none) :
    m.run h session host = some (⟨.ofUnresolved (m.begin h session host).session,
      (m.begin h session host).session,[]⟩,host) := by
  rw [run,loop,step_unresolved h hx]
  rfl

theorem unresolved_of_run {m : Machine} {h : Host σ β} {session : Option SessionState}
    {host host' : σ} {o : RunOutcome} (hr : m.run h session host = some (o,host'))
    (ho : ¬ o.status.IsSuspended) :
    m.currentState? (m.begin h session host).session = none ∧
      o.status = .ofUnresolved (m.begin h session host).session := by
  cases hc : m.currentState? (m.begin h session host).session with
  | some s => exact absurd (loop_suspended (by rw [hc]; rfl) hr).1 ho
  | none =>
    rw [run_unresolved hc] at hr
    cases hr
    exact ⟨rfl,rfl⟩

theorem run_idle_iff (m : Machine) (h : Host σ β) (session : Option SessionState) (host : σ) :
    (∃ o host', m.run h session host = some (o,host') ∧ o.status = .idle) ↔
      (m.begin h session host).session.currentStateId = none := by
  constructor
  · intro hi
    obtain ⟨o,host',hr,hi⟩ := hi
    have hs : ¬ o.status.IsSuspended := by simp [hi,RunStatus.IsSuspended]
    obtain ⟨-,ho⟩ := unresolved_of_run hr hs
    rw [hi,RunStatus.ofUnresolved] at ho
    split at ho
    · assumption
    · cases ho
  · intro hn
    have hc : m.currentState? (m.begin h session host).session = none := by
      rw [currentState?,hn]
      rfl
    exact ⟨_,_,run_unresolved hc,by rw [RunStatus.ofUnresolved,hn]⟩

theorem run_terminated_iff (m : Machine) (h : Host σ β) (session : Option SessionState) (host : σ)
    (id : StateId) :
    (∃ o host', m.run h session host = some (o,host') ∧ o.status = .terminated id) ↔
      (m.begin h session host).session.currentStateId = some id ∧ m.profile.state? id = none := by
  constructor
  · intro hi
    obtain ⟨o,host',hr,hi⟩ := hi
    have hs : ¬ o.status.IsSuspended := by simp [hi,RunStatus.IsSuspended]
    obtain ⟨hc,ho⟩ := unresolved_of_run hr hs
    rw [hi,RunStatus.ofUnresolved] at ho
    split at ho
    · cases ho
    · next id' hid =>
      cases ho
      rw [currentState?,hid] at hc
      exact ⟨hid,hc⟩
  · intro hi
    obtain ⟨hid,hr⟩ := hi
    have hc : m.currentState? (m.begin h session host).session = none := by
      rw [currentState?,hid]
      exact hr
    exact ⟨_,_,run_unresolved hc,by rw [RunStatus.ofUnresolved,hid]⟩

end Machine

/-- Sessions that the runs of a profile leave, each of them fresh or resuming an earlier one. Budgets
and hosts may differ from run to run. -/
inductive Profile.Leaves (p : Profile) : SessionState → Prop where
  | fresh {σ β : Type} {m : Machine} {h : Host σ β} {host host' : σ} {o : RunOutcome}
      (hm : m.profile = p) (hr : m.run h none host = some (o,host')) : Leaves p o.session
  | resumed {σ β : Type} {m : Machine} {h : Host σ β} {session : SessionState} {host host' : σ}
      {o : RunOutcome} (hs : Leaves p session) (hm : m.profile = p)
      (hr : m.run h (some session) host = some (o,host')) : Leaves p o.session

namespace Machine

theorem fresh_resolves {m : Machine} (hv : m.profile.validate = .ok ()) (h : Host σ β) (host : σ) :
    (m.currentState? (m.begin h none host).session).isSome := by
  obtain ⟨initial,hi,hr⟩ := (Profile.validate_eq_ok.mp hv).initial
  have hc : (m.begin h none host).session.currentStateId = some initial := hi
  rw [currentState?,hc]
  exact hr

theorem leaves_resolves {p : Profile} (hv : p.validate = .ok ()) {session : SessionState}
    (hl : p.Leaves session) {m : Machine} (hm : m.profile = p) :
    (m.currentState? session).isSome := by
  induction hl with
  | @fresh σ β m' h host host' o hm' hr =>
    subst hm'
    have ho := (loop_suspended (fresh_resolves hv h host) hr).2
    rwa [currentState?,hm]
  | @resumed σ β m' h session host host' o _ hm' hr ih =>
    subst hm'
    rw [currentState?,hm] at ih
    have ho := (loop_suspended (x := m'.begin h (some session) host) ih hr).2
    rwa [currentState?,hm]

/-- Once the current state of a run resolves it does so for good, and the run can only be suspended.
A run is idle or terminated exactly if its session has no current state or one that does not resolve,
and then it does nothing: the session is returned with the digest filled in, and the host is not
called. Runs of a valid profile are always suspended, however often they are resumed. -/
theorem run_neverDangles (m : Machine) (h : Host σ β) :
    (∀ x : Execution σ β, (m.currentState? x.session).isSome →
      ∀ n, (m.currentState? (m.after h n x).session).isSome) ∧
    (∀ session host, let start := (m.begin h session host).session
      ((m.currentState? start).isSome → ∀ o host', m.run h session host = some (o,host') →
        o.status.IsSuspended) ∧
      ((∃ o host', m.run h session host = some (o,host') ∧ o.status = .idle) ↔
        start.currentStateId = none) ∧
      (∀ id, (∃ o host', m.run h session host = some (o,host') ∧ o.status = .terminated id) ↔
        start.currentStateId = some id ∧ m.profile.state? id = none) ∧
      (m.currentState? start = none →
        m.run h.observed session (.start host) =
          some (⟨.ofUnresolved start,start,[]⟩,.start host) ∧
        ∀ world, m.run { h with world } session host =
          some (⟨.ofUnresolved start,start,[]⟩,host))) ∧
    (∀ session host, (m.begin h (some session) host).session =
      { session with profileHash := session.profileHash.or (some m.profile.hash) }) ∧
    (m.profile.validate = .ok () →
      (∀ host o host', m.run h none host = some (o,host') → o.status.IsSuspended) ∧
      ∀ session, m.profile.Leaves session → ∀ host o host',
        m.run h (some session) host = some (o,host') → o.status.IsSuspended) := by
  refine ⟨fun x hx n => after_resolves hx n,?_,fun session host => rfl,?_⟩
  · intro session host start
    refine ⟨fun hs o host' hr => (loop_suspended hs hr).1,run_idle_iff m h session host,
      run_terminated_iff m h session host,?_⟩
    intro hc
    constructor
    · cases session <;> exact run_unresolved (h := h.observed) hc
    · intro world
      cases session <;> exact run_unresolved (h := { h with world }) hc
  · intro hv
    refine ⟨fun host o host' hr => (loop_suspended (fresh_resolves hv h host) hr).1,?_⟩
    intro session hl host o host' hr
    have hs : (m.currentState? session).isSome := leaves_resolves hv hl rfl
    exact (loop_suspended (x := m.begin h (some session) host) hs hr).1

open Replay in
theorem run_neverDangles_sentry :
    (∃ o r o' r', sentry.run Replay.host none guardhouse = some (o,r) ∧ o.status.IsSuspended ∧
      sentry.run Replay.host (some o.session) guardhouse = some (o',r') ∧ o'.status.IsSuspended) ∧
    (∃ o r, sentry.run Replay.host (some (.start none (.logical 0))) guardhouse = some (o,r) ∧
      o.status = .idle) ∧
    ∃ o r, sentry.run Replay.host (some (.start (some ⟨"leave"⟩) (.logical 0))) guardhouse =
      some (o,r) ∧ o.status = .terminated ⟨"leave"⟩ := by
  obtain ⟨-,hrun,-,hvalid⟩ := run_neverDangles sentry Replay.host
  obtain ⟨hfresh,hleft⟩ := hvalid rfl
  refine ⟨?_,?_,?_⟩
  · have hr := run_of_lasts sentry Replay.host none guardhouse 4 (.suspended .hostDenied)
      (by decide +kernel) (by decide +kernel)
    have hr' := run_of_lasts sentry Replay.host
      (some (sentry.after Replay.host 5 (sentry.begin Replay.host none guardhouse)).session)
      guardhouse 4 (.suspended .hostDenied) (by decide +kernel) (by decide +kernel)
    exact ⟨_,_,_,_,hr,hfresh guardhouse _ _ hr,hr',
      hleft _ (.fresh rfl hr) guardhouse _ _ hr'⟩
  · exact (hrun (some (.start none (.logical 0))) guardhouse).2.1.mpr rfl
  · exact ((hrun (some (.start (some ⟨"leave"⟩) (.logical 0))) guardhouse).2.2.1 ⟨"leave"⟩).mpr
      ⟨rfl,by decide +kernel⟩

end Machine

end BehaviorMachine
