import BehaviorMachine.Proofs.Run.Lifecycle

/-!
# The token of a suspended behavior

A run that begins with a token carries it in its session until it is handed over to the first behavior
that is resolved, or until the state changes. Then the token is spent, and only a pause at the end of
the run puts another one in its place.
-/
namespace BehaviorMachine

variable {σ β : Type}

namespace Call

def token? : Call → Option (Option ResumeToken)
  | .resolve _ _ token _ => some token
  | _ => none

def paused? : Call → Option (Option ResumeToken)
  | .pause _ token => some token
  | _ => none

/-- The call neither pauses a behavior nor hands a token over. -/
def Plain (c : Call) : Prop := c.found? = none ∧ c.paused? = none

theorem Idle.plain {c : Call} (hc : c.Idle) : c.Plain := by
  cases c with
  | wait => exact ⟨rfl,rfl⟩
  | poll => exact ⟨rfl,rfl⟩
  | _ => exact hc.elim

theorem Sparing.paused? {c : Call} (hc : c.Sparing) : c.paused? = none := by
  cases c with
  | pause => exact hc.elim
  | _ => rfl

theorem Passive.token? {c : Call} (hc : c.Passive) : c.token? = none := by
  cases c with
  | resolve => exact hc.elim
  | _ => rfl

end Call

namespace Observed

def Delivered (r : Observed σ) : Prop := ∃ c ∈ r.calls, c.found? ≠ none

instance (r : Observed σ) : Decidable r.Delivered :=
  inferInstanceAs (Decidable (∃ c ∈ r.calls, c.found? ≠ none))

def Unpaused (r : Observed σ) : Prop := ∀ c ∈ r.calls, c.paused? = none

/-- The token that the last call returned if it was a pause. -/
def lastToken (r : Observed σ) : Option ResumeToken := (r.calls.getLast?.bind Call.paused?).join

theorem Grows.delivered_iff {r r' : Observed σ} (hg : Grows Call.Plain r r') :
    r'.Delivered ↔ r.Delivered := by
  obtain ⟨new,he,hp⟩ := hg
  rw [Delivered,Delivered,he]
  constructor
  · intro hx
    obtain ⟨c,hc,hf⟩ := hx
    rcases List.mem_append.mp hc with hc | hc
    · exact ⟨c,hc,hf⟩
    · exact absurd (hp c hc).1 hf
  · intro hx
    obtain ⟨c,hc,hf⟩ := hx
    exact ⟨c,List.mem_append_left _ hc,hf⟩

theorem Unpaused.append {r q : Observed σ} {new : List Call} (hr : r.Unpaused)
    (he : q.calls = r.calls ++ new) (hn : ∀ c ∈ new, c.paused? = none) : q.Unpaused := by
  intro c hc
  rw [he] at hc
  rcases List.mem_append.mp hc with hc | hc
  · exact hr c hc
  · exact hn c hc

theorem Unpaused.grows {r r' : Observed σ} (hr : r.Unpaused) (hg : Grows Call.Sparing r r') :
    r'.Unpaused := by
  obtain ⟨new,he,hs⟩ := hg
  exact hr.append he fun c hc => (hs c hc).paused?

theorem Unpaused.lastToken {r : Observed σ} (hr : r.Unpaused) : r.lastToken = none := by
  rw [Observed.lastToken]
  cases hl : r.calls.getLast? with
  | none => rfl
  | some c => rw [Option.bind_some,hr c (List.mem_of_getLast? hl)]; rfl

end Observed

namespace Execution

/-- The token that the run began with is used up: a behavior has been resolved, or the state has
changed. -/
def Spent (x : Execution (Observed σ) (Nat × β)) : Prop := x.changes ≠ [] ∨ x.host.Delivered

end Execution

namespace Machine

open Execution Observed

variable {m : Machine} {h : Host σ β} {T : ResumeToken}

/-- The run has not been paused, and its session holds the token exactly until it is spent. -/
structure Carries (T : ResumeToken) (x : Execution (Observed σ) (Nat × β)) : Prop where
  unpaused : x.host.Unpaused
  spent : x.Spent → x.session.resumeToken = none
  unspent : ¬ x.Spent → x.session.resumeToken = some T ∧ x.active = none ∧
    x.session.subBehaviorComplete = false

theorem Carries.begin {session : SessionState} (ht : session.resumeToken = some T)
    (hc : session.subBehaviorComplete = false) (host : σ) :
    Carries T (m.begin h.observed (some session) (.start host)) where
  unpaused := by simp [Unpaused,Machine.begin,Observed.start]
  spent hs := by simp [Spent,Delivered,Machine.begin,Observed.start] at hs
  unspent _ := ⟨ht,rfl,hc⟩

theorem Carries.plain {x y : Execution (Observed σ) (Nat × β)} (hx : Carries T x)
    (hg : Grows Call.Plain x.host y.host) (hn : y.changes = x.changes) (ha : y.active = x.active)
    (ht : y.session.resumeToken = x.session.resumeToken)
    (hc : y.session.subBehaviorComplete = x.session.subBehaviorComplete) : Carries T y := by
  have hs : y.Spent ↔ x.Spent := by rw [Spent,Spent,hn,hg.delivered_iff]
  obtain ⟨new,he,hp⟩ := hg
  refine ⟨hx.unpaused.append he fun c hc => (hp c hc).2,?_,?_⟩
  · intro hy
    rw [ht]
    exact hx.spent (hs.mp hy)
  · intro hy
    rw [ht,ha,hc]
    exact hx.unspent fun hh => hy (hs.mpr hh)

theorem Carries.ready {x y : Execution (Observed σ) (Nat × β)} (hx : Carries T x)
    (hy : Ready m h.observed x y) : Carries T y := by
  have hg := hy.grows.mono fun _ => Call.Idle.plain
  rw [hy.frame] at hg ⊢
  exact hx.plain hg rfl rfl rfl rfl

theorem Carries.undisturbed {s : StateSpec} {x y : Execution (Observed σ) (Nat × β)}
    (hx : Carries T x) (hy : Undisturbed m h.observed s x y) : Carries T y := by
  have hg := hy.grows.mono fun _ => Call.Idle.plain
  rw [hy.frame] at hg ⊢
  exact hx.plain hg rfl rfl rfl rfl

theorem carries_spent {x : Execution (Observed σ) (Nat × β)} (hu : x.host.Unpaused) (hs : x.Spent)
    (ht : x.session.resumeToken = none) : Carries T x :=
  ⟨hu,fun _ => ht,fun hn => absurd hs hn⟩

theorem Carries.driven {s : StateSpec} {x y : Execution (Observed σ) (Nat × β)} {ticks : UInt32}
    (hx : Carries T x) (hd : Driven m h.observed s x ticks y) : Carries T y := by
  cases hd with
  | completed hc => exact hx
  | unresolved hc ha hr =>
    exact hx.plain ⟨_,resolve_calls hr,by simp [Call.Plain,Call.found?,Call.paused?]⟩ rfl rfl rfl rfl
  | @resolved b host hc ha hr =>
    obtain ⟨writes,result,he⟩ := advance_calls (h := h) s
      (m.profile.effectiveParams s x.session.portValues) b
      { x with host, session := { x.session with resumeToken := none } }
    rw [resolve_calls hr,List.append_assoc] at he
    refine carries_spent (hx.unpaused.append he ?_) (.inr ?_) (by rw [advance_frame])
    · simp [Call.paused?]
    · rw [Delivered,he]
      exact ⟨_,List.mem_append_right _ (List.mem_cons_self ..),by simp [Call.found?]⟩
  | @live b hc ha =>
    obtain ⟨writes,result,he⟩ := advance_calls (h := h) s
      (m.profile.effectiveParams s x.session.portValues) b x
    have hs : x.Spent := by
      refine Classical.byContradiction fun hn => ?_
      have hnone := (hx.unspent hn).2.1
      rw [ha] at hnone
      cases hnone
    refine carries_spent (hx.unpaused.append he (by simp [Call.paused?])) ?_ ?_
    · rcases hs with hs | ⟨c,hm,hf⟩
      · left
        rw [advance_frame]
        exact hs
      · right
        rw [Delivered,he]
        exact ⟨c,List.mem_append_left _ hm,hf⟩
    · rw [advance_frame]
      exact hx.spent hs

theorem Carries.enter {x : Execution (Observed σ) (Nat × β)} (hx : Carries T x)
    (source target : StateId) (cause : ChangeCause) (now : Timestamp) :
    Carries T (x.enter h.observed source target cause now) := by
  refine carries_spent ?_ (.inl (by rw [enter_changes]; exact List.cons_ne_nil _ _))
    (by rw [enter_session]; rfl)
  rcases x with ⟨r,session,_|b,changes,since⟩
  · exact hx.unpaused
  · exact hx.unpaused.append (q := r.note (.cancel b.1) _) rfl (by simp [Call.paused?])

theorem Carries.wait {x : Execution (Observed σ) (Nat × β)} (hx : Carries T x) {ticks : UInt32}
    {granted : Bool} {host : Observed σ} (hw : h.observed.wait ticks x.host = (granted,host))
    (since : UInt32) : Carries T { x with host, changesSinceWait := since } :=
  hx.plain ((wait_grows hw).mono fun _ => Call.Idle.plain) rfl rfl rfl rfl

theorem Carries.poll {x : Execution (Observed σ) (Nat × β)} (hx : Carries T x)
    {answer : Option Interrupt} {host : Observed σ} (hp : h.observed.poll x.host = (answer,host)) :
    Carries T { x with host } :=
  hx.plain ((poll_grows hp).mono fun _ => Call.Idle.plain) rfl rfl rfl rfl

/-- The token is carried on, or the run ends in a pause. -/
theorem Carries.iteration {x y : Execution (Observed σ) (Nat × β)} {flow : Flow}
    (hx : Carries T x) (hi : Iteration m h.observed x flow y) :
    Carries T y ∨ flow ≠ .again ∧ ∃ w, Carries T w ∧ y = w.pause h.observed := by
  cases hi with
  | idle hs => exact .inl hx
  | terminated hs hr => exact .inl hx
  | yieldDenied hs hb hw => exact .inr ⟨by simp,_,hx.wait hw 0,rfl⟩
  | redirected hs hy hp hr => exact .inl (((hx.ready hy).poll hp).enter _ _ _ _)
  | interrupted hs hy hp hr => exact .inr ⟨by simp,_,(hx.ready hy).poll hp,rfl⟩
  | fired hs hy hz ht => exact .inl (((hx.ready hy).undisturbed hz).enter _ _ _ _)
  | denied hs hy hz ht hd hw =>
    have hw' := (((hx.ready hy).undisturbed hz).driven hd).wait hw 0
    exact .inr ⟨by simp,_,hw',rfl⟩
  | continued hs hy hz ht hd hw =>
    have hw' := (((hx.ready hy).undisturbed hz).driven hd).wait hw 0
    exact .inl (hw'.plain (.refl _ _) rfl rfl rfl rfl)

theorem lasts_carries {n : Nat} {x : Execution (Observed σ) (Nat × β)} (hx : Carries T x)
    (hl : m.Lasts h.observed n x) : Carries T (m.after h.observed n x) := by
  induction n with
  | zero => exact hx
  | succ n ih =>
    rcases (ih (lasts_mono (Nat.le_succ n) hl)).iteration (step_iteration m h.observed _)
      with hy | ⟨hf,_⟩
    · exact hy
    · exact absurd (hl n (Nat.lt_succ_self n)) hf

/-- At the end of a run its session holds the token if it has not been spent, and otherwise what a
pause has just returned. -/
structure Returns (T : ResumeToken) (x : Execution (Observed σ) (Nat × β)) : Prop where
  unspent : ¬ x.Spent → x.session.resumeToken = some T
  spent : x.Spent → x.session.resumeToken = x.host.lastToken
  unpaused : ∀ c ∈ x.host.calls.dropLast, c.paused? = none

theorem Carries.returns {x : Execution (Observed σ) (Nat × β)} (hx : Carries T x) : Returns T x where
  unspent hs := (hx.unspent hs).1
  spent hs := (hx.spent hs).trans hx.unpaused.lastToken.symm
  unpaused c hc := hx.unpaused c (List.dropLast_subset _ hc)

theorem Carries.pause {x : Execution (Observed σ) (Nat × β)} (hx : Carries T x) :
    Returns T (x.pause h.observed) := by
  rcases x with ⟨r,session,_|b,changes,since⟩
  · exact hx.returns
  · have hs : Spent (⟨r,session,some b,changes,since⟩ : Execution (Observed σ) (Nat × β)) := by
      refine Classical.byContradiction fun hn => ?_
      cases (hx.unspent hn).2.1
    refine ⟨fun hn => absurd ?_ hn,fun _ => ?_,?_⟩
    · rcases hs with hs | ⟨c,hm,hf⟩
      · exact .inl hs
      · exact .inr ⟨c,List.mem_append_left _ hm,hf⟩
    · simp [Execution.pause,Host.observed,Observed.note,lastToken,Call.paused?]
    · simp only [Execution.pause,Host.observed,Observed.note,List.dropLast_concat]
      exact hx.unpaused

/-- Tokens passed on in an iteration: at most one, and it is the one of the session. -/
theorem Works.tokens {x : Execution (Observed σ) (Nat × β)} {r : Observed σ} (hw : m.Works x r) :
    ∃ new, r.calls = x.host.calls ++ new ∧ (new.filterMap Call.token? = [] ∨
      new.filterMap Call.token? = [x.session.resumeToken]) := by
  obtain ⟨first,effort,last,he,hf,hw,hl⟩ := hw
  have hn {calls : List Call} (hc : ∀ c ∈ calls, c.Passive) : calls.filterMap Call.token? = [] :=
    List.filterMap_eq_nil_iff.mpr fun c hm => (hc c hm).token?
  refine ⟨_,he,?_⟩
  rw [List.filterMap_append,List.filterMap_append,hn hf,hn hl,List.nil_append,List.append_nil]
  cases hw with
  | rest => exact .inl rfl
  | refused hs hc ha => exact .inr rfl
  | resolved hs hc ha => exact .inr rfl
  | stepped hs hc ha => exact .inl rfl

/-- Where a behavior is live, neither a token waits for one nor has one completed; where one has
completed, none is live and no token waits. -/
structure Settled (x : Execution σ β) : Prop where
  live : x.active ≠ none → x.session.resumeToken = none ∧ x.session.subBehaviorComplete = false
  complete : x.session.subBehaviorComplete = true → x.session.resumeToken = none ∧ x.active = none

theorem Settled.congr {x y : Execution σ β} (hx : Settled x) (ha : y.active = x.active)
    (ht : y.session.resumeToken = x.session.resumeToken)
    (hc : y.session.subBehaviorComplete = x.session.subBehaviorComplete) : Settled y := by
  refine ⟨?_,?_⟩
  · rw [ha,ht,hc]
    exact hx.live
  · rw [ha,ht,hc]
    exact hx.complete

theorem settled_advance {h : Host σ β} {s : StateSpec} {params : BehaviorParams} {b : β}
    {x : Execution σ β} (ht : x.session.resumeToken = none)
    (hc : x.session.subBehaviorComplete = false) : Settled (advance h s params b x) := by
  rw [advance]
  rcases (h.step ⟨s.id,params,x.session.ticksInState⟩ b x.host).run s x.session.portValues
    with ⟨⟨_|_|e,b',host⟩,values⟩
  · exact ⟨fun _ => ⟨ht,hc⟩,fun hh => by rw [hc] at hh; cases hh⟩
  · exact ⟨fun hn => absurd rfl hn,fun _ => ⟨ht,rfl⟩⟩
  · exact ⟨fun hn => absurd rfl hn,fun _ => ⟨ht,rfl⟩⟩

theorem Settled.driven {m : Machine} {h : Host σ β} {s : StateSpec} {x y : Execution σ β}
    {ticks : UInt32} (hx : Settled x) (hd : Driven m h s x ticks y) : Settled y := by
  cases hd with
  | completed hc => exact hx
  | unresolved hc ha hr => exact hx.congr rfl rfl rfl
  | resolved hc ha hr => exact settled_advance rfl hc
  | live hc ha => exact settled_advance (hx.live (by simp [ha])).1 hc

theorem Settled.pause {x : Execution σ β} (hx : Settled x) (h : Host σ β) :
    Settled (x.pause h) := by
  refine ⟨fun hn => absurd (by rw [pause_frame]) hn,fun hc => ?_⟩
  rw [pause_frame] at hc
  have ha := (hx.complete hc).2
  rw [Execution.pause,ha]
  exact ⟨(hx.complete hc).1,ha⟩

theorem Settled.enter {x : Execution σ β} (h : Host σ β) (source target : StateId)
    (cause : ChangeCause) (now : Timestamp) : Settled (x.enter h source target cause now) := by
  refine ⟨fun hn => absurd (enter_active h source target cause now x) hn,fun hc => ?_⟩
  rw [enter_session] at hc
  cases hc

theorem Settled.iteration {m : Machine} {h : Host σ β} {x y : Execution σ β} {flow : Flow}
    (hx : Settled x) (hi : Iteration m h x flow y) : Settled y := by
  have hready {y : Execution σ β} (hy : Ready m h x y) : Settled y := by
    rw [hy.frame]
    exact hx.congr rfl rfl rfl
  have hundisturbed {s : StateSpec} {y z : Execution σ β} (hy : Ready m h x y)
      (hz : Undisturbed m h s y z) : Settled z := by
    rw [hz.frame]
    exact (hready hy).congr rfl rfl rfl
  cases hi with
  | idle hs => exact hx
  | terminated hs hr => exact hx
  | yieldDenied hs hb hw =>
    apply Settled.pause
    exact hx.congr rfl rfl rfl
  | redirected hs hy hp hr => exact .enter h _ _ _ _
  | interrupted hs hy hp hr =>
    apply Settled.pause
    exact (hready hy).congr rfl rfl rfl
  | fired hs hy hz ht => exact .enter h _ _ _ _
  | denied hs hy hz ht hd hw =>
    apply Settled.pause
    exact ((hundisturbed hy hz).driven hd).congr rfl rfl rfl
  | continued hs hy hz ht hd hw => exact ((hundisturbed hy hz).driven hd).congr rfl rfl rfl

theorem run_returns {session : SessionState} {host : σ} {o : RunOutcome} {r : Observed σ}
    (ht : session.resumeToken = some T) (hc : session.subBehaviorComplete = false)
    (hr : m.run h.observed (some session) (.start host) = some (o,r)) :
    ∃ y : Execution (Observed σ) (Nat × β), Returns T y ∧
      o.session = y.session ∧ o.history = y.history ∧ r = y.host := by
  obtain ⟨n,y,hl,he,hsession,hhistory,hhost⟩ := run_last hr
  have hi := step_iteration m h.observed (m.after h.observed n
    (m.begin h.observed (some session) (.start host)))
  rw [he] at hi
  refine ⟨y,?_,hsession,hhistory,hhost⟩
  -- the last iteration leaves the token where it was, or pauses the behavior that has it
  rcases (lasts_carries (Carries.begin ht hc host) hl).iteration hi with hy | ⟨_,w,hw,rfl⟩
  · exact hy.returns
  · exact hw.pause

theorem Retires.unpaused {w y : Execution (Observed σ) (Nat × β)} (hr : Retires h w .again y)
    (hw : w.host.Unpaused) : y.host.Unpaused := by
  cases hr with
  | kept hf hn hc ha ht =>
    rw [Unpaused,hc]
    exact hw
  | left hn hc ha ht =>
    refine hw.append hc fun c hm => ?_
    obtain ⟨b,-,rfl⟩ := Option.map_eq_some_iff.mp (Option.mem_toList.mp hm)
    rfl

theorem lasts_unpaused {n : Nat} {x : Execution (Observed σ) (Nat × β)} (hx : x.host.Unpaused)
    (hl : m.Lasts h.observed n x) : (m.after h.observed n x).host.Unpaused := by
  induction n with
  | zero => exact hx
  | succ n ih =>
    have hn := ih (lasts_mono (Nat.le_succ n) hl)
    obtain ⟨w,hw,hr⟩ := (iteration_of_flow (hl n (Nat.lt_succ_self n))).retires
    exact hr.unpaused (hn.grows hw.grows)

theorem run_retires {session : Option SessionState} {host : σ} {o : RunOutcome} {r : Observed σ}
    (hr : m.run h.observed session (.start host) = some (o,r)) :
    ∃ n w y, m.Lasts h.observed n (m.begin h.observed session (.start host)) ∧
      m.step h.observed (m.after h.observed n (m.begin h.observed session (.start host))) =
        (.exit o.status,y) ∧
      Grows Call.Sparing (m.after h.observed n (m.begin h.observed session (.start host))).host
        w.host ∧
      Orderly w.host.deeds (w.active.map Prod.fst) ∧ (∀ c ∈ w.host.calls, c.paused? = none) ∧
      Retires h w (.exit o.status) y ∧ o.session = y.session ∧ r = y.host := by
  obtain ⟨n,y,hl,he,hsession,-,hhost⟩ := run_last hr
  have hstart : (m.begin h.observed session (.start host)).host.Unpaused := by
    simp [Unpaused,Machine.begin,Observed.start]
  obtain ⟨w,hg,-,ho,hretires⟩ := retires_orderly (after_ledger m h session host n)
  rw [he] at hretires
  exact ⟨n,w,y,hl,he,hg,ho,(lasts_unpaused hstart hl).grows hg,hretires,hsession,hhost⟩

/-- A run that begins with a token holds it until it is spent, and passes nothing but it on. From then
on it passes no token on, and its session has none until a pause, if any, ends the run and returns
one. The run pauses the behavior that is live when it is suspended, as its last call, and its session
holds the token that this pause returned; where none is live, it calls nothing and changes no token.
A change of state clears the token. From a fresh session on, a token never waits beside a live or a
completed behavior. -/
theorem run_keepsToken (m : Machine) (h : Host σ β) :
    (∀ session host T, session.resumeToken = some T → session.subBehaviorComplete = false →
      let start := m.begin h.observed (some session) (.start host)
      (∀ n, m.Lasts h.observed n start →
        let x := m.after h.observed n start
        (¬ x.Spent → x.session.resumeToken = some T ∧ x.active = none) ∧
        (x.Spent → x.session.resumeToken = none) ∧
        ∃ new, (m.step h.observed x).2.host.calls = x.host.calls ++ new ∧
          (new.filterMap Call.token? = [] ∨
            new.filterMap Call.token? = [x.session.resumeToken])) ∧
      ∀ o r, m.run h.observed (some session) (.start host) = some (o,r) →
        (o.history = [] ∧ ¬ r.Delivered → o.session.resumeToken = some T) ∧
        (o.history ≠ [] ∨ r.Delivered → o.session.resumeToken = r.lastToken) ∧
        ∀ c ∈ r.calls.dropLast, c.paused? = none) ∧
    (∀ session host o r, m.run h.observed session (.start host) = some (o,r) →
      let start := m.begin h.observed session (.start host)
      ∃ n w y, m.Lasts h.observed n start ∧
        m.step h.observed (m.after h.observed n start) = (.exit o.status,y) ∧
        Grows Call.Sparing (m.after h.observed n start).host w.host ∧
        Orderly w.host.deeds (w.active.map Prod.fst) ∧ (∀ c ∈ w.host.calls, c.paused? = none) ∧
        Retires h w (.exit o.status) y ∧ o.session = y.session ∧ r = y.host) ∧
    (∀ x : Execution σ β, (m.step h x).2.changes ≠ x.changes →
      (m.step h x).2.session.resumeToken = none ∧ (m.step h x).2.active = none) ∧
    ∀ host n, let x := m.after h n (m.begin h none host)
      (x.active ≠ none →
        x.session.resumeToken = none ∧ x.session.subBehaviorComplete = false) ∧
      (x.session.subBehaviorComplete = true →
        x.session.resumeToken = none ∧ x.active = none) := by
  refine ⟨?_,fun session host o r => run_retires,
    fun x hn => (step_iteration m h x).cleared hn,?_⟩
  · intro session host T ht hc start
    have hstart : Carries T start := Carries.begin ht hc host
    refine ⟨?_,?_⟩
    · intro n hl x
      have hx : Carries T x := lasts_carries hstart hl
      exact ⟨fun hn => ⟨(hx.unspent hn).1,(hx.unspent hn).2.1⟩,hx.spent,
        (step_iteration m h.observed x).works.tokens⟩
    · intro o r hr
      obtain ⟨y,hy,hsession,hhistory,rfl⟩ := run_returns ht hc hr
      have hs : y.Spent ↔ o.history ≠ [] ∨ y.host.Delivered := by
        rw [Execution.Spent,hhistory,Execution.history,ne_eq,ne_eq,List.reverse_eq_nil_iff]
      rw [hsession]
      refine ⟨?_,?_,hy.unpaused⟩
      · intro hn
        obtain ⟨hh,hd⟩ := hn
        exact hy.unspent fun hn => (hs.mp hn).elim (fun hn => hn hh) hd
      · intro hh
        exact hy.spent (hs.mpr hh)
  · intro host n
    have hx : Settled (m.after h n (m.begin h none host)) :=
      after_induction (P := Settled) ⟨fun hn => absurd rfl hn,fun _ => ⟨rfl,rfl⟩⟩
        (fun y hy => hy.iteration (step_iteration m h y)) n
    exact ⟨hx.live,hx.complete⟩

open Replay in
theorem run_keepsToken_sentry :
    (∃ o r, sentry.run Replay.host.observed (some (.atRest false (some (.ofStep 7))))
        (.start guardhouse) = some (o,r) ∧
      r.Delivered ∧ o.session.resumeToken = r.lastToken) ∧
    (∃ o r, sentry.run Replay.host.observed (some (.atRest false (some (.ofStep 7))))
        (.start { guardhouse with behaviors := ∅ }) = some (o,r) ∧
      ¬ r.Delivered ∧ o.session.resumeToken = some (.ofStep 7)) ∧
    (sentry.step Replay.host (sentry.after Replay.host 2
      (sentry.begin Replay.host none guardhouse))).2.session.resumeToken = none := by
  obtain ⟨hheld,-,hcleared,-⟩ := run_keepsToken sentry Replay.host
  refine ⟨?_,?_,?_⟩
  · have hr := run_of_lasts sentry Replay.host.observed (some (.atRest false (some (.ofStep 7))))
      (.start guardhouse) 4 (.suspended .hostDenied) (by decide +kernel) (by decide +kernel)
    refine ⟨_,_,hr,?_,((hheld _ guardhouse (.ofStep 7) rfl rfl).2 _ _ hr).2.1 (.inr ?_)⟩ <;>
      decide +kernel
  · have hr := run_of_lasts sentry Replay.host.observed (some (.atRest false (some (.ofStep 7))))
      (.start { guardhouse with behaviors := ∅ }) 4 (.suspended .hostDenied)
      (by decide +kernel) (by decide +kernel)
    refine ⟨_,_,hr,?_,((hheld _ _ (.ofStep 7) rfl rfl).2 _ _ hr).1 ⟨?_,?_⟩⟩ <;> decide +kernel
  · exact (hcleared _ (by decide +kernel)).1

end Machine

end BehaviorMachine
