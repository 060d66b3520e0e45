import BehaviorMachine.Proofs.Host.Replay
import BehaviorMachine.Proofs.Run.Ledger
import BehaviorMachine.Proofs.Run.Retirement

/-!
# Runs keep the life cycle of behaviors

The calls of a run are a ledger, and so are the events that a scripted host records. Behaviors are
resolved and stepped only while the behavior of the current state has not completed.
-/
namespace BehaviorMachine

variable {σ β : Type}

namespace Call

/-- What a call does to a behavior. -/
def deed? : Call → Option (Deed Nat)
  | .resolve _ _ _ none => some .refused
  | .resolve _ _ _ (some k) => some (.resolved k)
  | .step k _ _ result => some (.stepped k (decide (result ≠ .running)))
  | .pause k _ => some (.paused k)
  | .cancel k => some (.cancelled k)
  | .wait _ _ => none
  | .poll _ => none

end Call

namespace Observed

def deeds (r : Observed σ) : List (Deed Nat) := r.calls.filterMap Call.deed?

def Numbered (r : Observed σ) : Prop := r.calls.filterMap Call.found? = List.range r.resolved

theorem deeds_note (r : Observed σ) (c : Call) (s : σ) :
    (r.note c s).deeds = r.deeds ++ c.deed?.toList := by
  rw [deeds,note,List.filterMap_append,deeds]
  cases hd : c.deed? <;> simp [hd]

theorem numbered_note {r : Observed σ} (hr : r.Numbered) {c : Call} (hc : c.found? = none) (s : σ) :
    (r.note c s).Numbered := by
  rw [Numbered,note,List.filterMap_append,hr]
  simp [hc]

end Observed

def Host.ledger (h : Host σ β) : Ledger h.observed Nat where
  log := Observed.deeds
  key := Prod.fst
  sound := Observed.Numbered
  known _ := True
  refuse := by
    intro name params token r t hs hr
    simp only [Host.observed] at hr
    split at hr
    · cases hr
      exact ⟨Observed.numbered_note hs rfl _,.inr (Observed.deeds_note r _ _)⟩
    · cases hr
  resolve := by
    intro name params token r b t hs hr
    simp only [Host.observed] at hr
    split at hr
    · cases hr
    · cases hr
      refine ⟨?_,trivial,Observed.deeds_note r (.resolve name params token (some r.resolved)) r.state⟩
      rw [Observed.Numbered] at hs ⊢
      simp only [Observed.note,List.filterMap_append,hs,List.range_succ]
      rfl
  wait := by
    intro ticks r hs
    refine ⟨Observed.numbered_note hs rfl _,?_⟩
    exact (Observed.deeds_note r _ _).trans (List.append_nil _)
  poll := by
    intro r hs
    refine ⟨Observed.numbered_note hs rfl _,?_⟩
    exact (Observed.deeds_note r _ _).trans (List.append_nil _)
  step := by
    intro context b r spec values result b' t values' hs hb hr
    simp only [Host.observed,PortProgram.run_noting] at hr
    cases hr
    exact ⟨Observed.numbered_note hs rfl _,trivial,rfl,Observed.deeds_note r _ _⟩
  pause := by
    intro b r hs hb
    exact ⟨Observed.numbered_note hs rfl _,Observed.deeds_note r _ _⟩
  cancel := by
    intro b r hs hb
    exact ⟨Observed.numbered_note hs rfl _,Observed.deeds_note r _ _⟩

theorem Host.ledger_start (h : Host σ β) (host : σ) :
    h.ledger.sound (.start host) ∧ h.ledger.log (.start host) = [] :=
  ⟨rfl,rfl⟩

/-- What an event tells about a behavior. Whether a step ended it is read off its script. -/
def HostEvent.deed (behaviors : NameMap BehaviorScript) : HostEvent → Deed BehaviorName
  | .resolved name _ => .resolved name
  | .stepped _ name steps params => .stepped name ((behaviors.get? name.text).any fun script =>
      decide ((⟨name,script,steps⟩ : ScriptedBehavior).answer params ≠ .running))
  | .paused name _ => .paused name
  | .cancelled name _ => .cancelled name

namespace Replay

def ledger (behaviors : NameMap BehaviorScript) : Ledger Replay.host BehaviorName where
  log r := r.events.map (HostEvent.deed behaviors)
  key := ScriptedBehavior.name
  sound r := r.behaviors = behaviors
  known b := behaviors.get? b.name.text = some b.script
  refuse := by
    intro name params token r t hs hr
    simp only [Replay.host,Replay.resolve] at hr
    split at hr
    · cases hr
      exact ⟨hs,.inl rfl⟩
    · cases hr
  resolve := by
    intro name params token r b t hs hr
    simp only [Replay.host,Replay.resolve] at hr
    split at hr
    · cases hr
    · next script hg =>
      cases hr
      exact ⟨hs,hs ▸ hg,by rw [events_record,List.map_append]; rfl⟩
  wait := by
    intro ticks r hs
    simp only [Replay.host]
    rw [wait_frame]
    exact ⟨hs,rfl⟩
  poll := by
    intro r hs
    simp only [Replay.host]
    rw [poll_frame]
    exact ⟨hs,rfl⟩
  step := by
    intro context b r spec values result b' t values' hs hb hr
    have hrun := run_step context b r spec values
    rw [show Replay.step context b r = Replay.host.step context b r from rfl,hr] at hrun
    cases hrun
    refine ⟨hs,hb,rfl,?_⟩
    rw [events_record,List.map_append,List.map_singleton,HostEvent.deed,hb]
    rfl
  pause := by
    intro b r hs hb
    exact ⟨hs,by simp only [Replay.host,Replay.pause,events_record,List.map_append]; rfl⟩
  cancel := by
    intro b r hs hb
    exact ⟨hs,by simp only [Replay.host,Replay.cancel,events_record,List.map_append]; rfl⟩

end Replay

namespace Machine

open Observed

theorem Iteration.complete {m : Machine} {h : Host σ β} {x y : Execution σ β} {flow : Flow}
    (hi : Iteration m h x flow y) (hc : x.session.subBehaviorComplete = true)
    (hn : y.changes = x.changes) : y.session.subBehaviorComplete = true := by
  have hdriven {s : StateSpec} {y z w : Execution σ β} {ticks : UInt32} (hy : Ready m h x y)
      (hz : Undisturbed m h s y z) (hd : Driven m h s z ticks w) :
      w.session.subBehaviorComplete = true := by
    have hcz : z.session.subBehaviorComplete = true := by
      rw [hz.frame,hy.frame]
      exact hc
    cases hd with
    | completed hw => exact hw
    | unresolved hw ha hr => exact hcz
    | resolved hw ha hr => rw [hcz] at hw; cases hw
    | live hw ha => rw [hcz] at hw; cases hw
  cases hi with
  | idle hs => exact hc
  | terminated hs hr => exact hc
  | yieldDenied hs hb hw =>
    rw [pause_frame]
    exact hc
  | redirected hs hy hp hr =>
    rw [enter_changes,hy.frame] at hn
    exact absurd hn (List.cons_ne_self _ _)
  | interrupted hs hy hp hr =>
    rw [pause_frame,hy.frame]
    exact hc
  | fired hs hy hz ht =>
    rw [enter_changes,hz.frame,hy.frame] at hn
    exact absurd hn (List.cons_ne_self _ _)
  | denied hs hy hz ht hd hw =>
    have hcw := hdriven hy hz hd
    rw [pause_frame]
    exact hcw
  | continued hs hy hz ht hd hw =>
    have hcw := hdriven hy hz hd
    exact hcw

theorem after_complete {m : Machine} {h : Host σ β} {n : Nat} {x : Execution σ β}
    (hc : x.session.subBehaviorComplete = true) (hn : (m.after h n x).changes = x.changes) :
    (m.after h n x).session.subBehaviorComplete = true := by
  induction n with
  | zero => exact hc
  | succ n ih =>
    have hb := changes_of_after hn
    exact (step_iteration m h (m.after h n x)).complete (ih hb) (hn.trans hb.symm)

/-- No behavior is resolved or stepped from its completion up to the next change of state. -/
theorem after_passive {m : Machine} {h : Host σ β} {n : Nat} {x : Execution (Observed σ) (Nat × β)}
    (hc : x.session.subBehaviorComplete = true)
    (hn : (m.after h.observed n x).changes = x.changes) :
    Grows Call.Passive x.host (m.after h.observed (n+1) x).host := by
  have hstep {k : Nat} (hk : (m.after h.observed k x).changes = x.changes) :
      Grows Call.Passive (m.after h.observed k x).host (m.after h.observed (k+1) x).host :=
    (step_iteration m h.observed (m.after h.observed k x)).works.passive (after_complete hc hk)
  induction n with
  | zero => exact hstep hn
  | succ n ih => exact (ih (changes_of_after hn)).trans (hstep hn)

end Machine

/-- A session is suspended and resumed without a change of state, on whatever hosts and budgets, while
the runs make some calls. -/
inductive Profile.Stays (p : Profile) (session : SessionState) : SessionState → List Call → Prop where
  | refl : Stays p session session []
  | resumed {σ β : Type} {m : Machine} {h : Host σ β} {session' : SessionState} {calls : List Call}
      {host : σ} {o : RunOutcome} {r : Observed σ} (hs : Stays p session session' calls)
      (hm : m.profile = p) (hr : m.run h.observed (some session') (.start host) = some (o,r))
      (ho : o.history = []) : Stays p session o.session (calls ++ r.calls)

namespace Machine

open Observed

variable {m : Machine} {h : Host σ β}

theorem run_complete {session : SessionState} {host : σ} {o : RunOutcome} {r : Observed σ}
    (hr : m.run h.observed (some session) (.start host) = some (o,r)) (ho : o.history = [])
    (hc : session.subBehaviorComplete = true) :
    o.session.subBehaviorComplete = true ∧ ∀ c ∈ r.calls, c.Passive := by
  obtain ⟨n,status,hl,he,hf⟩ := loop_eq_some_iff.mp hr
  cases hf
  have hn : (m.after h.observed (n+1) (m.begin h.observed (some session) (.start host))).changes =
      [] := List.reverse_eq_nil_iff.mp ho
  have hb := changes_of_after (x := m.begin h.observed (some session) (.start host)) hn
  refine ⟨after_complete (x := m.begin h.observed (some session) (.start host)) hc hn,?_⟩
  obtain ⟨new,he,hp⟩ := (after_passive (x := m.begin h.observed (some session) (.start host))
    hc hb).trans (cancel_grows _)
  intro c hm
  rw [show (m.begin h.observed (some session) (.start host)).host.calls = [] from rfl,
    List.nil_append] at he
  exact hp c (he ▸ hm)

theorem stays_complete {p : Profile} {session session' : SessionState} {calls : List Call}
    (hs : p.Stays session session' calls) (hc : session.subBehaviorComplete = true) :
    session'.subBehaviorComplete = true ∧ ∀ c ∈ calls, c.Passive := by
  induction hs with
  | refl => exact ⟨hc,by simp⟩
  | resumed hs hm hr ho ih =>
    obtain ⟨ho,hp⟩ := run_complete hr ho ih.1
    refine ⟨ho,?_⟩
    intro c hc
    rcases List.mem_append.mp hc with hc | hc
    · exact ih.2 c hc
    · exact hp c hc

theorem retires_orderly {x : Execution (Observed σ) (Nat × β)} (hx : h.ledger.protocol.Keeps x) :
    ∃ w, Grows Call.Sparing x.host w.host ∧ w.changes = x.changes ∧
      Orderly w.host.deeds (w.active.map Prod.fst) ∧
      Retires h w (m.step h.observed x).1 (m.step h.observed x).2 := by
  obtain ⟨w,hw,hr⟩ := (step_iteration m h.observed x).retires
  exact ⟨w,hw.grows,hw.changes,h.ledger.keeps_orderly (hw.keeps hx),hr⟩

theorem after_ledger (m : Machine) (h : Host σ β) (session : Option SessionState) (host : σ) (n : Nat) :
    h.ledger.protocol.Keeps (m.after h.observed n (m.begin h.observed session (.start host))) := by
  obtain ⟨hs,hl⟩ := h.ledger_start host
  exact h.ledger.protocol.after_keeps m (h.ledger.keeps_begin m session hs hl) n

/-- Behaviors live one after the other, whatever host, session and number of iterations: what is done
to them is orderly, and an iteration steps what it resolves. Only the end of an iteration gives the
live behavior up, by one pause if it suspends the run and by one cancellation if it changes the state;
where a caller stops early, its finish cancels it, and at the end of a run there is none. A completed
behavior is left alone up to the next change of state, however often its run is resumed. -/
theorem run_livesLinear (m : Machine) (h : Host σ β) :
    (∀ session host n, let x := m.after h.observed n (m.begin h.observed session (.start host))
      Orderly x.host.deeds (x.active.map Prod.fst) ∧
      (x.host.calls.filterMap Call.found?).Nodup ∧
      m.Works x (m.step h.observed x).2.host ∧
      (∃ w, Grows Call.Sparing x.host w.host ∧ w.changes = x.changes ∧
        Orderly w.host.deeds (w.active.map Prod.fst) ∧
        Retires h w (m.step h.observed x).1 (m.step h.observed x).2) ∧
      (∀ status, Lives (x.finish h.observed status).2.deeds ∧
        (x.finish h.observed status).2.calls =
          x.host.calls ++ (x.active.map fun b => Call.cancel b.1).toList) ∧
      ∀ status y, m.step h.observed x = (.exit status,y) →
        y.active = none ∧ (y.finish h.observed status).2 = y.host) ∧
    (∀ x : Execution (Observed σ) (Nat × β), x.session.subBehaviorComplete = true →
      ∀ n, (m.after h.observed n x).changes = x.changes →
        (m.after h.observed n x).session.subBehaviorComplete = true ∧
        Grows Call.Passive x.host (m.after h.observed (n+1) x).host) ∧
    (∀ session session' calls, m.profile.Stays session session' calls →
      session.subBehaviorComplete = true →
        session'.subBehaviorComplete = true ∧ ∀ c ∈ calls, c.Passive) ∧
    (∀ session host o r, m.run h.observed session (.start host) = some (o,r) → Lives r.deeds) ∧
    ∀ session host o r, host.recorded = [] → m.run Replay.host session host = some (o,r) →
      Lives (r.events.map (HostEvent.deed host.behaviors)) := by
  have hlives {σ β κ : Type} {h : Host σ β} (L : Ledger h κ) {session : Option SessionState}
      {host : σ} (hs : L.sound host) (hl : L.log host = []) {r : RunOutcome × σ}
      (hr : m.run h session host = some r) : Lives (L.log r.2) := by
    obtain ⟨n,status,_,_,rfl⟩ := loop_eq_some_iff.mp hr
    exact (L.protocol.quiet_cancel (L.protocol.after_keeps m (L.keeps_begin m session hs hl) _)).2
  refine ⟨?_,?_,fun session session' calls hs hc => stays_complete hs hc,
    fun session host o r hr =>
      hlives h.ledger (h.ledger_start host).1 (h.ledger_start host).2 hr,?_⟩
  · intro session host n x
    have hk : h.ledger.protocol.Keeps x := after_ledger m h session host n
    refine ⟨h.ledger.keeps_orderly hk,?_,(step_iteration m h.observed x).works,retires_orderly hk,
      fun status => ⟨(h.ledger.protocol.quiet_cancel hk).2,cancel_calls x⟩,?_⟩
    · have hn : x.host.Numbered := h.ledger.keeps_sound hk
      rw [hn]
      exact List.nodup_range
    · intro status y hy
      have hg : m.Grounded x := Grounded.after (.inl rfl) h.observed n
      have hi := step_iteration m h.observed x
      rw [hy] at hi
      have ha := hi.exit_quiet hg
      exact ⟨ha,by rw [finish_quiet h.observed status ha]⟩
  · intro x hc n hn
    exact ⟨after_complete hc hn,after_passive hc hn⟩
  · intro session host o r hh hr
    have hs : (Replay.ledger host.behaviors).sound host := rfl
    have hl : (Replay.ledger host.behaviors).log host = [] := by
      simp [Replay.ledger,Replay.events,hh]
    exact hlives (Replay.ledger host.behaviors) hs hl hr

open Replay in
theorem run_livesLinear_sentry :
    (∃ o r, sentry.run Replay.host.observed none (.start guardhouse) = some (o,r) ∧
      Lives r.deeds) ∧
    (∃ o r, sentry.run Replay.host none guardhouse = some (o,r) ∧
      Lives (r.events.map (HostEvent.deed guardhouse.behaviors))) ∧
    ∃ o r, sentry.run Replay.host.observed (some (.atRest true none)) (.start guardhouse) =
        some (o,r) ∧
      o.session.subBehaviorComplete = true ∧ ∀ c ∈ r.calls, c.Passive := by
  obtain ⟨-,-,hstays,hlives,hevents⟩ := run_livesLinear sentry Replay.host
  refine ⟨?_,?_,?_⟩
  · have hr := run_of_lasts sentry Replay.host.observed none (.start guardhouse) 4
      (.suspended .hostDenied) (by decide +kernel) (by decide +kernel)
    exact ⟨_,_,hr,hlives none guardhouse _ _ hr⟩
  · have hr := run_of_lasts sentry Replay.host none guardhouse 4
      (.suspended .hostDenied) (by decide +kernel) (by decide +kernel)
    exact ⟨_,_,hr,hevents none guardhouse _ _ rfl hr⟩
  · have hr := run_of_lasts sentry Replay.host.observed (some (.atRest true none))
      (.start guardhouse) 4 (.suspended .hostDenied) (by decide +kernel) (by decide +kernel)
    exact ⟨_,_,hr,hstays (.atRest true none) _ _ (.resumed .refl rfl hr (by decide +kernel)) rfl⟩

end Machine

end BehaviorMachine
