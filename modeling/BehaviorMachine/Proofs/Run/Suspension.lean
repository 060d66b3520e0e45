import BehaviorMachine.Proofs.Run.Denial
import BehaviorMachine.Proofs.Run.Restoration

/-!
# Suspending a run and resuming it goes unnoticed

A run and a chain in which some of its waits are denied are followed side by side. Where the run has a
live behavior, the chain has one with the same future or its token; only the ticks of the current
state drift apart, and the tally of the chain knows by how many.
-/
namespace BehaviorMachine

variable {σ β : Type}

namespace Machine

open Execution

variable {h : Host σ β} {F : Restoration h} {m : Machine} {deny : Nat → Bool} {t : Tally}

/-- The live behaviors of a run and a chain in a state, with the tokens of their sessions. -/
inductive Linked (F : Restoration h) (state? : Option StateSpec) (b? c? : Option β)
    (token token' : Option ResumeToken) : Prop where
  | idle (hb : b? = none) (hc : c? = none) (ht : token' = token)
  | live {s : StateSpec} {b c : β} (hs : state? = some s) (hf : F.same s.behaviorName b c)
      (hb : b? = some b) (hc : c? = some c) (ht : token = none) (ht' : token' = none)
  /-- The chain has just been resumed. -/
  | parked {s : StateSpec} {b c : β} (hs : state? = some s) (hf : F.same s.behaviorName b c)
      (hb : b? = some b) (hc : c? = none) (ht : token = none) (ht' : token' = F.token c)

/-- A run and a chain are at the same point but for their live behaviors, in related states of the
host. -/
structure Abreast (R : σ → σ → Prop) (t : Tally) (x : Execution σ β)
    (y : Execution (Denying σ) β) : Prop where
  host : R x.host y.host.state
  granted : y.host.granted = none
  session : y.session = { x.session with
    ticksInState := y.session.ticksInState, resumeToken := y.session.resumeToken }
  ticks : x.session.ticksInState = raised y.session.ticksInState (t.due y.history)
  digest : x.session.profileHash.isSome
  history : x.history = t.history ++ credit t.owed y.history
  since : y.changesSinceWait = x.changesSinceWait

structure Matches (F : Restoration h) (m : Machine) (t : Tally) (x : Execution σ β)
    (y : Execution (Denying σ) β) : Prop extends Abreast F.alike t x y where
  linked : Linked F (m.currentState? x.session) x.active y.active x.session.resumeToken
    y.session.resumeToken

/-- A run and a chain have come to the same end. -/
structure Concluded (F : Restoration h) (t : Tally) (x : Execution σ β)
    (y : Execution (Denying σ) β) : Prop extends Abreast F.ended t x y where
  active : x.active = none
  active' : y.active = none
  token : y.session.resumeToken = x.session.resumeToken

theorem Abreast.current {R : σ → σ → Prop} {x : Execution σ β} {y : Execution (Denying σ) β}
    (ha : Abreast R t x y) : m.currentState? y.session = m.currentState? x.session := by
  rw [currentState?,ha.session,currentState?]

theorem Abreast.ended {x : Execution σ β} {y : Execution (Denying σ) β}
    (ha : Abreast F.alike t x y) : Abreast F.ended t x y :=
  ⟨F.ended_alike ha.host,ha.granted,ha.session,ha.ticks,ha.digest,ha.history,ha.since⟩

theorem Matches.hosted {x : Execution σ β} {y : Execution (Denying σ) β} (hm : Matches F m t x y)
    {host state : σ} (ha : F.alike host state) :
    Matches F m t { x with host } { y with host := { y.host with state } } :=
  ⟨⟨ha,hm.granted,hm.session,hm.ticks,hm.digest,hm.history,hm.since⟩,hm.linked⟩

theorem Matches.waited {x : Execution σ β} {y : Execution (Denying σ) β} (hm : Matches F m t x y)
    {host : σ} {d : Denying σ} (ha : F.alike host d.state) (hg : d.granted = none) :
    Matches F m t { x with host, changesSinceWait := 0 }
      { y with host := d, changesSinceWait := 0 } :=
  ⟨⟨ha,hg,hm.session,hm.ticks,hm.digest,hm.history,rfl⟩,hm.linked⟩

theorem Matches.pause {x : Execution σ β} {y : Execution (Denying σ) β} (hm : Matches F m t x y)
    (deny : Nat → Bool) : Concluded F t (x.pause h) (y.pause (h.denying deny)) := by
  cases hm.linked with
  | idle hb hc ht =>
    rw [Execution.pause,hb,Execution.pause,hc]
    exact ⟨hm.ended,hb,hc,ht⟩
  | @live s b c hs hf hb hc ht ht' =>
    obtain ⟨hp,hq,he⟩ := F.pause hm.host hf
    simp only [Execution.pause,hb,hc,Host.denying]
    refine ⟨⟨he,hm.granted,?_,hm.ticks,hm.digest,hm.history,hm.since⟩,rfl,rfl,hq.trans hp.symm⟩
    rw [hm.session]
  | @parked s b c hs hf hb hc ht ht' =>
    obtain ⟨hp,-⟩ := F.pause hm.host hf
    simp only [Execution.pause,hb,hc]
    exact ⟨⟨F.pause_parked hm.host hf,hm.granted,hm.session,hm.ticks,hm.digest,hm.history,hm.since⟩,
      rfl,hc,ht'.trans hp.symm⟩

theorem Matches.cancel {x : Execution σ β} {y : Execution (Denying σ) β} (hm : Matches F m t x y)
    (deny : Nat → Bool) : F.alike (x.cancel h).host (y.cancel (h.denying deny)).host.state ∧
      (y.cancel (h.denying deny)).host.granted = none := by
  cases hm.linked with
  | idle hb hc ht =>
    rw [Execution.cancel,hb,Execution.cancel,hc]
    exact ⟨hm.host,hm.granted⟩
  | live hs hf hb hc ht ht' =>
    simp only [Execution.cancel,hb,hc,Host.denying]
    exact ⟨F.cancel hm.host hf,hm.granted⟩
  | parked hs hf hb hc ht ht' =>
    simp only [Execution.cancel,hb,hc]
    exact ⟨F.cancel_parked hm.host hf,hm.granted⟩

theorem Matches.enter {x : Execution σ β} {y : Execution (Denying σ) β} (hm : Matches F m t x y)
    (source target : StateId) (cause : ChangeCause) (now : Timestamp) :
    Matches F m t (x.enter h source target cause now)
      (y.enter (h.denying deny) source target cause now) := by
  obtain ⟨ha,hg⟩ := hm.cancel deny
  rw [enter_eq,enter_eq]
  refine ⟨⟨ha,hg,?_,?_,hm.digest,?_,?_⟩,.idle rfl rfl rfl⟩
  · rw [hm.session]
    rfl
  · rw [Execution.history,List.reverse_cons,Tally.due_append]
    exact (raised_zero 0).symm
  · have hx := hm.history
    rw [Execution.history] at hx ⊢
    rw [Execution.history] at hx ⊢
    rw [List.reverse_cons,List.reverse_cons,Tally.credit_append,hx,List.append_assoc]
    simp only [hm.ticks,Execution.history]
  · exact congrArg (addSaturating32 · 1) hm.since

theorem Abreast.advance {x : Execution σ β} {y : Execution (Denying σ) β} (ha : Abreast F.alike t x y)
    {s : StateSpec} {b c : β} (hs : m.currentState? x.session = some s)
    (hf : F.same s.behaviorName b c) (ht : x.session.resumeToken = none)
    (ht' : y.session.resumeToken = none) (params : BehaviorParams) :
    Matches F m t (advance h s params b x) (advance (h.denying deny) s params c y) := by
  have hv : y.session.portValues = x.session.portValues := by rw [ha.session]
  obtain ⟨_,result,b',c',s',t',values',hp,hq,hf',ha'⟩ := F.step ha.host hf s.id params
    x.session.ticksInState y.session.ticksInState s x.session.portValues
  have hrunning := congrArg (fun z : SessionState => { z with portValues := values' }) ha.session
  have hended := congrArg (fun z : SessionState =>
    { z with portValues := values', subBehaviorComplete := true }) ha.session
  simp only [Machine.advance,Host.denying,PortProgram.run_map,hv,hp,hq]
  cases result with
  | running =>
    exact ⟨⟨ha',ha.granted,hrunning,ha.ticks,ha.digest,ha.history,ha.since⟩,
      .live hs (hf' rfl) rfl rfl ht ht'⟩
  | completed =>
    exact ⟨⟨ha',ha.granted,hended,ha.ticks,ha.digest,ha.history,ha.since⟩,
      .idle rfl rfl (ht'.trans ht.symm)⟩
  | failed e =>
    exact ⟨⟨ha',ha.granted,hended,ha.ticks,ha.digest,ha.history,ha.since⟩,
      .idle rfl rfl (ht'.trans ht.symm)⟩

theorem Abreast.taken {x : Execution σ β} {y : Execution (Denying σ) β} (ha : Abreast F.alike t x y)
    {host state : σ} (hh : F.alike host state) (token : Option ResumeToken) :
    Abreast F.alike t { x with host, session := { x.session with resumeToken := token } }
      { y with
        host := { y.host with state }
        session := { y.session with resumeToken := none } } :=
  ⟨hh,ha.granted,congrArg (fun z : SessionState => { z with resumeToken := none }) ha.session,
    ha.ticks,ha.digest,ha.history,ha.since⟩

theorem Matches.driven {x x' : Execution σ β} {y : Execution (Denying σ) β} {s : StateSpec}
    {ticks : UInt32} (hm : Matches F m t x y) (hs : m.currentState? x.session = some s)
    (hd : Driven m h s x ticks x') (deny : Nat → Bool) :
    ∃ y', Driven m (h.denying deny) s y ticks y' ∧ Matches F m t x' y' := by
  have hv : y.session.portValues = x.session.portValues := by rw [hm.session]
  have hcomplete : y.session.subBehaviorComplete = x.session.subBehaviorComplete := by
    rw [hm.session]
  cases hd with
  | completed hc => exact ⟨y,.completed (hcomplete.trans hc),hm⟩
  | unresolved hc ha hr =>
    cases hm.linked with
    | idle hb hc' ht =>
      rw [← ht,← hv] at hr
      obtain ⟨s',hr',halike⟩ := F.refuse hm.host hr
      have hy : (h.denying deny).resolve s.behaviorName
          (m.profile.effectiveParams s y.session.portValues) y.session.resumeToken y.host =
            (none,{ y.host with state := s' }) := by
        simp only [Host.denying,hr']
      exact ⟨_,.unresolved (hcomplete.trans hc) hc' hy,hm.hosted halike⟩
    | live hs hf hb hc' ht ht' => rw [ha] at hb; cases hb
    | parked hs hf hb hc' ht ht' => rw [ha] at hb; cases hb
  | @resolved b host hc ha hr =>
    cases hm.linked with
    | idle hb hc' ht =>
      rw [← ht,← hv] at hr
      obtain ⟨c,s',hr',hf,halike⟩ := F.resolve hm.host hr
      have hy : (h.denying deny).resolve s.behaviorName
          (m.profile.effectiveParams s y.session.portValues) y.session.resumeToken y.host =
            (some c,{ y.host with state := s' }) := by
        simp only [Host.denying,hr']
      rw [← hv]
      exact ⟨_,.resolved (hcomplete.trans hc) hc' hy,
        (hm.taken halike none).advance hs hf rfl rfl _⟩
    | live hs hf hb hc' ht ht' => rw [ha] at hb; cases hb
    | parked hs hf hb hc' ht ht' => rw [ha] at hb; cases hb
  | @live b hc ha =>
    cases hm.linked with
    | idle hb hc' ht => rw [ha] at hb; cases hb
    | @live s' b' c hs' hf hb hc' ht ht' =>
      obtain rfl : b = b' := by rw [ha] at hb; exact Option.some.inj hb
      obtain rfl : s = s' := by rw [hs] at hs'; exact Option.some.inj hs'
      rw [← hv]
      exact ⟨_,.live (hcomplete.trans hc) hc',hm.advance hs hf ht ht' _⟩
    | @parked s' b' c hs' hf hb hc' ht ht' =>
      -- the chain has to resolve anew what the run still holds, and its token restores it
      obtain rfl : b = b' := by rw [ha] at hb; exact Option.some.inj hb
      obtain rfl : s = s' := by rw [hs] at hs'; exact Option.some.inj hs'
      obtain ⟨d,s'',hr,hf',halike⟩ := F.restore hm.host hf
        (m.profile.effectiveParams s y.session.portValues)
      rw [← ht'] at hr
      have hy : (h.denying deny).resolve s.behaviorName
          (m.profile.effectiveParams s y.session.portValues) y.session.resumeToken y.host =
            (some d,{ y.host with state := s'' }) := by
        simp only [Host.denying,hr]
      rw [← hv]
      exact ⟨_,.resolved (hcomplete.trans hc) hc' hy,
        (hm.taken halike x.session.resumeToken).advance hs hf' ht rfl _⟩

theorem wait_granted {s s' : σ} {d : Denying σ} (ha : F.alike s d.state) {ticks : UInt32}
    (hw : h.wait ticks s = (true,s')) (deny : Nat → Bool) :
    ∃ state, F.alike s' state ∧ (h.denying deny).wait ticks d =
      (!deny d.waits,⟨state,d.waits+1,if deny d.waits then some state else none⟩) := by
  obtain ⟨hg,halike⟩ := F.wait ha ticks
  rw [hw] at hg halike
  refine ⟨_,halike,?_⟩
  rcases hd : h.wait ticks d.state with ⟨granted,state⟩
  rw [hd] at hg
  obtain rfl : true = granted := hg
  simp only [Host.denying,hd]

theorem wait_refused {s s' : σ} {d : Denying σ} (ha : F.alike s d.state) {ticks : UInt32}
    (hw : h.wait ticks s = (false,s')) (deny : Nat → Bool) :
    ∃ state, F.alike s' state ∧ (h.denying deny).wait ticks d = (false,{ d with state }) := by
  obtain ⟨hg,halike⟩ := F.wait ha ticks
  rw [hw] at hg halike
  refine ⟨_,halike,?_⟩
  rcases hd : h.wait ticks d.state with ⟨granted,state⟩
  rw [hd] at hg
  obtain rfl : false = granted := hg
  simp only [Host.denying,hd]

theorem poll_alike {s s' : σ} {d : Denying σ} (ha : F.alike s d.state) {answer : Option Interrupt}
    (hp : h.poll s = (answer,s')) (deny : Nat → Bool) :
    ∃ state, F.alike s' state ∧ (h.denying deny).poll d = (answer,{ d with state }) := by
  obtain ⟨hg,halike⟩ := F.poll ha
  rw [hp] at hg halike
  refine ⟨_,halike,?_⟩
  simp only [Host.denying]
  rw [← hg]

theorem Matches.undisturbed {x x' : Execution σ β} {y : Execution (Denying σ) β} {s : StateSpec}
    (hm : Matches F m t x y) (hx : Undisturbed m h s x x') (deny : Nat → Bool) :
    ∃ y', Undisturbed m (h.denying deny) s y y' ∧ Matches F m t x' y' := by
  cases hx with
  | quiet hp =>
    obtain ⟨state,ha,hp'⟩ := poll_alike hm.host hp deny
    exact ⟨_,.quiet hp',hm.hosted ha⟩
  | ignored hp hr =>
    obtain ⟨state,ha,hp'⟩ := poll_alike hm.host hp deny
    exact ⟨_,.ignored hp' hr,hm.hosted ha⟩

theorem Linked.pause {state? : Option StateSpec} {b? : Option β} {token : Option ResumeToken}
    {y : Execution (Denying σ) β} {host : σ}
    (hl : Linked F state? b? y.active token y.session.resumeToken)
    (ha : F.alike host y.host.state) (deny : Nat → Bool) :
    Linked F state? b? none token (y.pause (h.denying deny)).session.resumeToken := by
  cases hl with
  | idle hb hc ht =>
    rw [Execution.pause,hc]
    exact .idle hb rfl ht
  | live hs hf hb hc ht ht' =>
    simp only [Execution.pause,hc,Host.denying]
    exact .parked hs hf hb rfl ht (F.pause ha hf).2.1
  | parked hs hf hb hc ht ht' =>
    rw [Execution.pause,hc]
    exact .parked hs hf hb rfl ht ht'

theorem denying_pause (h : Host σ β) (deny : Nat → Bool) (y : Execution (Denying σ) β) :
    (y.pause (h.denying deny)).host =
      { y.host with state := (y.pause (h.denying deny)).host.state } := by
  rcases y with ⟨d,session,_|c,changes,since⟩ <;> rfl

theorem resumedSession_eq (m : Machine) {session : SessionState}
    (hd : session.profileHash.isSome) : m.resumedSession session = session := by
  obtain ⟨digest,hs⟩ := Option.isSome_iff_exists.mp hd
  rw [resumedSession,hs,Option.some_or,← hs]

theorem begin_digest (m : Machine) (h : Host σ β) (session : Option SessionState) (host : σ) :
    (m.begin h session host).session.profileHash.isSome := by
  cases session with
  | none => rfl
  | some session =>
    simp only [Machine.begin,resumedSession]
    cases session.profileHash <;> rfl

/-- A run of the chain ends in a wait that the run itself is granted. The next one starts at the same
point, and its behavior is parked if it was live. -/
theorem Matches.denied {x : Execution σ β} {y z : Execution (Denying σ) β} (hm : Matches F m t x y)
    {host state : σ} (ha : F.alike host state) {waits : Nat} {status : RunStatus} {lost : Nat}
    (hz : m.step (h.denying deny) z = (.exit status,Execution.pause (h.denying deny)
      { y with host := ⟨state,waits,some state⟩, changesSinceWait := 0 }))
    (hl : (if m.yieldDenied (h.denying deny) z then 0 else 1) = lost) :
    ∃ leg y', m.Leads h deny z [leg] y' ∧ y'.changesSinceWait = 0 ∧ Matches F m (t.add leg)
      { x with
        host
        changesSinceWait := 0
        session := { x.session with ticksInState := raised x.session.ticksInState lost } } y' := by
  -- a name for the paused execution keeps it closed under the rewriting below
  obtain ⟨w,hw⟩ : ∃ w, w = Execution.pause (h.denying deny)
    { y with host := ⟨state,waits,some state⟩, changesSinceWait := 0 } := ⟨_,rfl⟩
  have hlinked : Linked F (m.currentState? x.session) x.active none x.session.resumeToken
      w.session.resumeToken := by
    rw [hw]
    exact hm.linked.pause (y := { y with host := ⟨state,waits,some state⟩, changesSinceWait := 0 })
      ha deny
  have hframe := pause_frame (h.denying deny)
    { y with host := ⟨state,waits,some state⟩, changesSinceWait := 0 }
  have hhost := denying_pause h deny
    { y with host := ⟨state,waits,some state⟩, changesSinceWait := 0 }
  rw [← hw] at hz hframe hhost
  have hactive : w.active = none := by rw [hframe]
  have hgranted : w.host.granted = some state := by rw [hhost]
  have hsession : w.session = { y.session with resumeToken := w.session.resumeToken } :=
    congrArg Execution.session hframe
  have hhistory : w.history = y.history := by
    rw [hframe]
    rfl
  have hdigest : w.session.profileHash.isSome := by
    rw [hsession,hm.session]
    exact hm.digest
  have hlead := leads_resumed hz hactive hgranted
  rw [hl] at hlead
  have hbegin : (m.begin (h.denying deny) (some w.session) ⟨state,w.host.waits,none⟩).session =
      w.session := resumedSession_eq m hdigest
  refine ⟨_,_,hlead,rfl,⟨ha,rfl,?_,?_,hm.digest,?_,rfl⟩,?_⟩
  · rw [hbegin,hsession,hm.session]
  · rw [hbegin,hsession]
    simp only [hm.ticks,raised_raised]
    simp only [Tally.add,hhistory]
    rfl
  · have hx : x.history = t.history ++ credit t.owed w.history := by
      rw [hhistory]
      exact hm.history
    exact hx.trans (List.append_nil _).symm
  · rw [hbegin]
    exact hlinked

theorem Matches.ready {x x' : Execution σ β} {y : Execution (Denying σ) β} {s : StateSpec}
    (hb : 0 < m.budgets.maxTransitionsPerTick) (hm : Matches F m t x y)
    (hs : m.currentState? x.session = some s) (hx : Ready m h x x') (deny : Nat → Bool) :
    ∃ legs z y', m.Leads h deny y legs z ∧ Ready m (h.denying deny) z y' ∧
      m.yieldDenied (h.denying deny) z = false ∧ m.currentState? z.session = some s ∧
      Matches F m (legs.foldl Tally.add t) x' y' := by
  have hsy : m.currentState? y.session = some s := hm.current.trans hs
  cases hx with
  | within hn =>
    rw [← hm.since] at hn
    have hz : m.yieldDenied (h.denying deny) y = false := by simp [yieldDenied,hn]
    exact ⟨[],y,y,.refl m h deny y,.within hn,hz,hsy,hm⟩
  | yielded hn hw =>
    rw [← hm.since] at hn
    obtain ⟨state,ha,hw'⟩ := wait_granted hm.host hw deny
    cases hd : deny y.host.waits with
    | false =>
      rw [hd] at hw'
      have hz : m.yieldDenied (h.denying deny) y = false := by simp [yieldDenied,hw']
      exact ⟨[],y,_,.refl m h deny y,.yielded hn hw',hz,hsy,hm.waited ha rfl⟩
    | true =>
      rw [hd] at hw'
      have hz : m.yieldDenied (h.denying deny) y = true := by simp [yieldDenied,hw',hn]
      obtain ⟨leg,z,hl,hsince,hm'⟩ := hm.denied ha (Iteration.yieldDenied hsy hn hw').step_eq
        (if_pos hz)
      rw [raised_zero] at hm'
      have hnz : ¬ m.budgets.maxTransitionsPerTick ≤ z.changesSinceWait := by
        rw [hsince]
        exact UInt32.not_le.mpr hb
      have hz' : m.yieldDenied (h.denying deny) z = false := by simp [yieldDenied,hnz]
      exact ⟨[leg],z,z,hl,.within hnz,hz',hm'.current.trans hs,hm'⟩

theorem Matches.firing? {x : Execution σ β} {y : Execution (Denying σ) β} (hm : Matches F m t x y)
    (deny : Nat → Bool) (s : StateSpec) :
    m.profile.firing? s ((h.denying deny).world y.host) y.session ((h.denying deny).now y.host) =
      m.profile.firing? s (h.world x.host) x.session (h.now x.host) := by
  have hc : y.session.subBehaviorComplete = x.session.subBehaviorComplete := by rw [hm.session]
  have he : y.session.enteredAt = x.session.enteredAt := by rw [hm.session]
  rw [Profile.firing?_congr hc he,F.world hm.host,F.now hm.host]
  rfl

theorem Matches.ticked {x : Execution σ β} {y : Execution (Denying σ) β} (hm : Matches F m t x y) :
    Matches F m t
      { x with session :=
        { x.session with ticksInState := addSaturating x.session.ticksInState 1 } }
      { y with session :=
        { y.session with ticksInState := addSaturating y.session.ticksInState 1 } } := by
  refine ⟨⟨hm.host,hm.granted,?_,?_,hm.digest,hm.history,hm.since⟩,hm.linked⟩
  · exact congrArg (fun z : SessionState =>
      { z with ticksInState := addSaturating y.session.ticksInState 1 }) hm.session
  · have ht := congrArg (raised · 1) hm.ticks
    simp only [raised_raised,Nat.add_comm _ 1] at ht
    rw [addSaturating_one,addSaturating_one,raised_raised]
    exact ht

theorem Matches.resolves {x : Execution σ β} {y z w : Execution (Denying σ) β} {s : StateSpec}
    (hm : Matches F m t x w) (hy : Ready m (h.denying deny) z y)
    (hw : Undisturbed m (h.denying deny) s y w) (hs : m.currentState? z.session = some s) :
    m.currentState? x.session = some s := by
  have he : w.session = z.session := by rw [hw.frame,hy.frame]
  rw [← hm.current,he]
  exact hs

/-- Where the run goes on the chain follows, although some of its runs may end. -/
theorem Matches.again {x x' : Execution σ β} {y : Execution (Denying σ) β}
    (hb : 0 < m.budgets.maxTransitionsPerTick) (hm : Matches F m t x y)
    (hi : Iteration m h x .again x') (deny : Nat → Bool) :
    ∃ legs y', m.Leads h deny y legs y' ∧ Matches F m (legs.foldl Tally.add t) x' y' := by
  cases hi with
  | redirected hs hx hp hr =>
    obtain ⟨legs,z,y₁,hl,hy,-,hsz,hm₁⟩ := hm.ready hb hs hx deny
    obtain ⟨state,ha,hp'⟩ := poll_alike hm₁.host hp deny
    have hnext := leads_again (Iteration.redirected hsz hy hp' hr).step_eq
    refine ⟨legs ++ [],_,hl.trans hnext,?_⟩
    rw [List.append_nil,F.now ha]
    exact (hm₁.hosted ha).enter _ _ _ _
  | fired hs hx hu ht =>
    obtain ⟨legs,z,y₁,hl,hy,-,hsz,hm₁⟩ := hm.ready hb hs hx deny
    obtain ⟨y₂,hu',hm₂⟩ := hm₁.undisturbed hu deny
    have hnext := leads_again
      (Iteration.fired hsz hy hu' ((hm₂.firing? deny _).trans ht)).step_eq
    refine ⟨legs ++ [],_,hl.trans hnext,?_⟩
    rw [List.append_nil,F.now hm₂.host]
    exact hm₂.enter _ _ _ _
  | @continued s _ _ w _ _ hs hx hu ht hd hw =>
    obtain ⟨legs,z,y₁,hl,hy,hz,hsz,hm₁⟩ := hm.ready hb hs hx deny
    obtain ⟨y₂,hu',hm₂⟩ := hm₁.undisturbed hu deny
    have hf := (hm₂.firing? deny s).trans ht
    have hs₂ := hm₂.resolves hy hu' hsz
    obtain ⟨y₃,hd',hm₃⟩ := hm₂.driven hs₂ hd deny
    obtain ⟨state,ha,hw'⟩ := wait_granted hm₃.host hw deny
    cases hdeny : deny y₃.host.waits with
    | false =>
      rw [hdeny] at hw'
      have hnext := leads_again (Iteration.continued (w := y₃) hsz hy hu' hf hd' hw').step_eq
      refine ⟨legs ++ [],_,hl.trans hnext,?_⟩
      rw [List.append_nil]
      exact (hm₃.waited ha rfl).ticked
    | true =>
      -- the iteration's work is done in both, but the leg ends before it is counted
      rw [hdeny] at hw'
      have hstep := (Iteration.denied (w := y₃) hsz hy hu' hf hd' hw').step_eq
      obtain ⟨leg,y',hl',-,hm'⟩ := hm₃.denied ha hstep (if_neg (by simp [hz]))
      refine ⟨legs ++ [leg],y',hl.trans hl',?_⟩
      rw [List.foldl_append]
      exact hm'

theorem Matches.exit {x x' : Execution σ β} {y : Execution (Denying σ) β} {status : RunStatus}
    (hb : 0 < m.budgets.maxTransitionsPerTick) (hm : Matches F m t x y)
    (hi : Iteration m h x (.exit status) x') (deny : Nat → Bool) :
    ∃ legs z y', m.Leads h deny y legs z ∧ m.step (h.denying deny) z = (.exit status,y') ∧
      Concluded F (legs.foldl Tally.add t) x' y' := by
  have hquiet (hs : m.currentState? x.session = none) : Concluded F t x y := by
    cases hm.linked with
    | idle hb hc ht => exact ⟨hm.ended,hb,hc,ht⟩
    | live hs' hf hb hc ht ht' => rw [hs] at hs'; cases hs'
    | parked hs' hf hb hc ht ht' => rw [hs] at hs'; cases hs'
  have hid : y.session.currentStateId = x.session.currentStateId := by rw [hm.session]
  cases hi with
  | idle hs =>
    have hstep := (Iteration.idle (m := m) (h := h.denying deny) (hid.trans hs)).step_eq
    exact ⟨[],y,y,.refl m h deny y,hstep,hquiet (by rw [currentState?,hs]; rfl)⟩
  | terminated hs hr =>
    have hstep := (Iteration.terminated (h := h.denying deny) (hid.trans hs) hr).step_eq
    exact ⟨[],y,y,.refl m h deny y,hstep,hquiet (by rw [currentState?,hs]; exact hr)⟩
  | yieldDenied hs hn hw =>
    rw [← hm.since] at hn
    obtain ⟨state,ha,hw'⟩ := wait_refused hm.host hw deny
    have hstep := (Iteration.yieldDenied (hm.current.trans hs) hn hw').step_eq
    have hm' := hm.waited (d := { y.host with state }) ha hm.granted
    exact ⟨[],y,_,.refl m h deny y,hstep,hm'.pause deny⟩
  | interrupted hs hx hp hr =>
    obtain ⟨legs,z,y₁,hl,hy,-,hsz,hm₁⟩ := hm.ready hb hs hx deny
    obtain ⟨state,ha,hp'⟩ := poll_alike hm₁.host hp deny
    have hstep := (Iteration.interrupted hsz hy hp' hr).step_eq
    exact ⟨legs,z,_,hl,hstep,(hm₁.hosted ha).pause deny⟩
  | @denied s _ _ w _ _ hs hx hu ht hd hw =>
    obtain ⟨legs,z,y₁,hl,hy,-,hsz,hm₁⟩ := hm.ready hb hs hx deny
    obtain ⟨y₂,hu',hm₂⟩ := hm₁.undisturbed hu deny
    have hf := (hm₂.firing? deny s).trans ht
    obtain ⟨y₃,hd',hm₃⟩ := hm₂.driven (hm₂.resolves hy hu' hsz) hd deny
    obtain ⟨state,ha,hw'⟩ := wait_refused hm₃.host hw deny
    have hstep := (Iteration.denied (w := y₃) hsz hy hu' hf hd' hw').step_eq
    have hm₄ := hm₃.waited (d := { y₃.host with state }) ha hm₃.granted
    exact ⟨legs,z,_,hl,hstep,hm₄.pause deny⟩

theorem Concluded.close {x : Execution σ β} {y : Execution (Denying σ) β} (hc : Concluded F t x y)
    (status : RunStatus) : (⟨status,x.session,x.history⟩ : RunOutcome) =
      t.close ⟨status,y.session,y.history⟩ := by
  have hsession : x.session = { y.session with
      ticksInState := raised y.session.ticksInState (t.due y.history) } := by
    rw [← hc.ticks,hc.session,hc.token]
  rw [Tally.close,← hc.history]
  exact congrArg (RunOutcome.mk status · x.history) hsession

/-- A chain that matches a run which ends does so, too, and its tally is the outcome of the run. -/
theorem Matches.loop (hb : 0 < m.budgets.maxTransitionsPerTick) {x : Execution σ β}
    {y : Execution (Denying σ) β} (hm : Matches F m t x y) {r : RunOutcome × σ}
    (hr : m.loop h x = some r) (deny : Nat → Bool) : ∃ legs o d,
      m.onward h deny y = some (legs,o,d) ∧ r.1 = (legs.foldl Tally.add t).close o ∧
      F.ended r.2 d.state := by
  obtain ⟨n,status,hl,he,rfl⟩ := loop_eq_some_iff.mp hr
  clear hr
  -- by the iterations of the run, within each of which the chain may start over
  induction n generalizing x t y with
  | zero =>
    have hi := iteration_of_flow (x := x) he
    obtain ⟨legs,z,y',hlead,hstep,hc⟩ := hm.exit hb hi deny
    have hlast := onward_last hstep hc.active' hc.granted
    refine ⟨legs,⟨status,y'.session,y'.history⟩,y'.host,?_,?_,?_⟩
    · rw [hlead,hlast,Option.map_some,List.append_nil]
    · rw [after,after,finish_quiet h status hc.active]
      exact hc.close status
    · rw [after,after,finish_quiet h status hc.active]
      exact hc.host
  | succ n ih =>
    obtain ⟨h0,hl'⟩ := lasts_succ_iff.mp hl
    obtain ⟨legs,y',hlead,hm'⟩ := hm.again hb (iteration_of_flow h0) deny
    rw [← after_next] at he ⊢
    obtain ⟨legs',o,d,hon,hclose,hended⟩ := ih hm' hl' he
    refine ⟨legs ++ legs',o,d,?_,?_,hended⟩
    · rw [hlead,hon,Option.map_some]
    · rw [List.foldl_append]
      exact hclose

theorem begin_matches (F : Restoration h) {host : σ} (ha : F.alike host host) (m : Machine)
    (session : Option SessionState) (deny : Nat → Bool) :
    Matches F m .start (m.begin h session host)
      (m.begin (h.denying deny) session ⟨host,0,none⟩) := by
  have hsession : (m.begin (h.denying deny) session ⟨host,0,none⟩).session =
      (m.begin h session host).session := by
    cases session <;> rfl
  refine ⟨⟨ha,rfl,by rw [hsession],?_,begin_digest m h session host,rfl,rfl⟩,
    .idle rfl rfl (by rw [hsession])⟩
  rw [hsession]
  exact (raised_zero _).symm

/-- Whatever waits are denied on the way of a run that ends, the chain of resumed runs ends like it,
with the same state changes, the same steps of behaviors, and the same session. Only the iterations
that a denied wait has cut off are missing from the ticks of their state. -/
theorem chain_followsRun (m : Machine) :
    (∀ {σ β : Type} (h : Host σ β) (F : Restoration h) session host o r,
      0 < m.budgets.maxTransitionsPerTick → F.alike host host →
      m.run h.observed session (.start host) = some (o,r) → ∀ deny, ∃ legs last d,
        m.chain h.observed deny session ⟨.start host,0,none⟩ = some (legs,last,d) ∧
        Unnoticed o legs last ∧ r.steps = d.state.steps ∧ F.ended r.state d.state.state) ∧
    ∀ session host o r, 0 < m.budgets.maxTransitionsPerTick →
      m.run Replay.host.observed session (.start host) = some (o,r) → ∀ deny, ∃ legs last d,
        m.chain Replay.host.observed deny session ⟨.start host,0,none⟩ = some (legs,last,d) ∧
        Unnoticed o legs last ∧ r.steps = d.state.steps ∧
        d.state.state = { r.state with recorded := d.state.state.recorded } := by
  have hchain {σ β : Type} {h : Host σ β} (F : Restoration h) {session : Option SessionState}
      {host : σ} {o : RunOutcome} {r : Observed σ} (hb : 0 < m.budgets.maxTransitionsPerTick)
      (ha : F.alike host host) (hr : m.run h.observed session (.start host) = some (o,r))
      (deny : Nat → Bool) : ∃ legs last d,
        m.chain h.observed deny session ⟨.start host,0,none⟩ = some (legs,last,d) ∧
        Unnoticed o legs last ∧ r.steps = d.state.steps ∧ F.ended r.state d.state.state := by
    have ha' : F.observed.alike (.start host) (.start host) := ⟨ha,rfl⟩
    have hm := begin_matches F.observed ha' m session deny
    obtain ⟨legs,last,d,hon,hclose,hended,hsteps⟩ := hm.loop hb hr deny
    exact ⟨legs,last,d,(chain_onward ..).trans hon,unnoticed_close hclose,hsteps,hended⟩
  refine ⟨fun h F session host o r hb ha hr deny => hchain F hb ha hr deny,?_⟩
  intro session host o r hb hr deny
  have ha : Replay.Alike host.behaviors host host := ⟨rfl,host.recorded,rfl⟩
  obtain ⟨legs,last,d,hc,hu,hsteps,-,events,hd⟩ :=
    hchain (Replay.restoration host.behaviors) hb ha hr deny
  exact ⟨legs,last,d,hc,hu,hsteps,by rw [hd]⟩

open Replay in
theorem chain_followsRun_sentry : ∃ o r legs last d,
    sentry.run Replay.host.observed none (.start guardhouse) = some (o,r) ∧
    sentry.chain Replay.host.observed (fun k => k % 2 = 0) none ⟨.start guardhouse,0,none⟩ =
      some (legs,last,d) ∧
    Unnoticed o legs last ∧ r.steps = d.state.steps ∧
    Alike guardhouse.behaviors r.state d.state.state := by
  have hr := run_of_lasts sentry Replay.host.observed none (.start guardhouse) 4
    (.suspended .hostDenied) (by decide +kernel) (by decide +kernel)
  have ha : Alike guardhouse.behaviors guardhouse guardhouse := ⟨rfl,guardhouse.recorded,rfl⟩
  obtain ⟨legs,last,d,hc,hu,hsteps,hended⟩ := (chain_followsRun sentry).1 Replay.host
    (restoration guardhouse.behaviors) none guardhouse _ _ (by decide) ha hr (fun k => k % 2 = 0)
  exact ⟨_,_,legs,last,d,hr,hc,hu,hsteps,hended⟩

end Machine

/-! Three towers whose behaviors never change, which notice all the same that a run was suspended. -/

/-- What a tower takes note of. -/
inductive Habit where
  | cancelling
  | restoring
  | pausing
  deriving DecidableEq

/-- The ticks granted in a tower, the looks taken for interrupts, and whether its lamp is lit. -/
structure Tower where
  ticks : UInt32
  polls : UInt32
  lit : Bool
  deriving DecidableEq

namespace Tower

def start : Tower := ⟨0,0,false⟩

/-- A host that grants two ticks. It lights its lamp when a behavior is cancelled or restored, or pauses
behaviors with tokens that tell how often it was polled, and interrupts at the second poll. -/
def host (habit : Habit) : Host Tower Unit where
  resolve _ _ token t :=
    (some (),if habit = .restoring ∧ token.isSome then { t with lit := true } else t)
  wait ticks t :=
    if t.ticks + ticks ≤ 2 then (true,{ t with ticks := t.ticks + ticks }) else (false,t)
  poll t :=
    (if habit = .pausing ∧ t.polls = 1 then some ⟨.combat⟩ else none,{ t with polls := t.polls + 1 })
  world t := some ⟨if t.lit then 36 else 0,[],[],[]⟩
  now t := .logical t.ticks.toUInt64
  step _ b t := .done (.running,b,t)
  pause _ t := (some (.ofStep (if habit = .pausing then t.polls else 0)),t)
  cancel _ t := if habit = .cancelling then { t with lit := true } else t

end Tower

/-- A session whose count of iterations cannot rise any more. -/
def SessionState.aged : SessionState :=
  { SessionState.atRest false none with ticksInState := 18446744073709551615 }

namespace Machine

/-- A patrol, who rests after two ticks. A lit lamp calls him away. -/
def patrol : Machine where
  profile := ⟨⟨"patrol"⟩,"patrol",none,some ⟨"walk"⟩,
    [⟨⟨"walk"⟩,"walk",⟨"walk"⟩,∅,[],[],[]⟩,⟨⟨"rest"⟩,"rest",⟨"rest"⟩,∅,[],[],[]⟩,
      ⟨⟨"call"⟩,"call",⟨"call"⟩,∅,[],[],[]⟩],
    [⟨⟨"relief"⟩,⟨"walk"⟩,⟨"rest"⟩,.timer 2,0,none⟩,
      ⟨⟨"alarm"⟩,⟨"rest"⟩,⟨"call"⟩,.inventoryPercentFull .greaterOrEqual (.ofWord false 50),0,none⟩],
    []⟩
  budgets := ⟨1,1,1,64⟩

open Replay in
/-- No step tells a behavior from the one that it was restored to, and yet a chain can be told from the
run: where cancelled behaviors, restored ones or repeated pauses leave a trace, and at the greatest
count of iterations. -/
theorem tower_noticesChain :
    (∀ habit context b t, (Tower.host habit).step context b t = .done (.running,b,t)) ∧
    (∀ habit name params token t, ((Tower.host habit).resolve name params token t).1 = some ()) ∧
    (∃ o t legs last d, patrol.run (Tower.host .cancelling) none .start = some (o,t) ∧
      patrol.chain (Tower.host .cancelling) (· = 1) none ⟨.start,0,none⟩ = some (legs,last,d) ∧
      o.occasions ≠ legs.flatMap (fun leg => leg.outcome.occasions) ++ last.occasions) ∧
    (∃ o t legs last d, patrol.run (Tower.host .restoring) none .start = some (o,t) ∧
      patrol.chain (Tower.host .restoring) (· = 0) none ⟨.start,0,none⟩ = some (legs,last,d) ∧
      o.occasions ≠ legs.flatMap (fun leg => leg.outcome.occasions) ++ last.occasions) ∧
    (∃ o t legs last d, patrol.run (Tower.host .pausing) none .start = some (o,t) ∧
      patrol.chain (Tower.host .pausing) (· = 0) none ⟨.start,0,none⟩ = some (legs,last,d) ∧
      o.session.resumeToken ≠ last.session.resumeToken) ∧
    ∃ s o r legs last d, s.ticksInState = 18446744073709551615 ∧
      sentry.run Replay.host (some s) { guardhouse with maxTicks := 1 } = some (o,r) ∧
      sentry.chain Replay.host (· = 0) (some s) ⟨{ guardhouse with maxTicks := 1 },0,none⟩ =
        some (legs,last,d) ∧
      legs.map Leg.lost = [1] ∧ last.session.ticksInState = o.session.ticksInState := by
  refine ⟨fun _ _ _ _ => rfl,fun _ _ _ _ _ => rfl,?_,?_,?_,?_⟩
  · have hr := run_of_lasts patrol (Tower.host .cancelling) none .start 4 (.suspended .hostDenied)
      (by decide +kernel) (by decide +kernel)
    have hc := chain_of_lasts patrol (Tower.host .cancelling) (· = 1) none ⟨.start,0,none⟩ 1 1
      (.suspended .hostDenied) (.suspended .hostDenied) ⟨2,2,false⟩ (by decide +kernel)
      (by decide +kernel) (by decide +kernel) (by decide +kernel) (by decide +kernel)
      (by decide +kernel)
    exact ⟨_,_,_,_,_,hr,hc,by decide +kernel⟩
  · have hr := run_of_lasts patrol (Tower.host .restoring) none .start 3 (.suspended .hostDenied)
      (by decide +kernel) (by decide +kernel)
    have hc := chain_of_lasts patrol (Tower.host .restoring) (· = 0) none ⟨.start,0,none⟩ 0 3
      (.suspended .hostDenied) (.suspended .hostDenied) ⟨1,1,false⟩ (by decide +kernel)
      (by decide +kernel) (by decide +kernel) (by decide +kernel) (by decide +kernel)
      (by decide +kernel)
    exact ⟨_,_,_,_,_,hr,hc,by decide +kernel⟩
  · have hr := run_of_lasts patrol (Tower.host .pausing) none .start 1
      (.suspended (.interrupt .combat)) (by decide +kernel) (by decide +kernel)
    have hc := chain_of_lasts patrol (Tower.host .pausing) (· = 0) none ⟨.start,0,none⟩ 0 0
      (.suspended .hostDenied) (.suspended (.interrupt .combat)) ⟨1,1,false⟩ (by decide +kernel)
      (by decide +kernel) (by decide +kernel) (by decide +kernel) (by decide +kernel)
      (by decide +kernel)
    refine ⟨_,_,_,_,_,hr,hc,fun ht => ?_⟩
    exact absurd (congrArg (·.bind ResumeToken.step?) ht) (by decide +kernel)
  · have hr := run_of_lasts sentry Replay.host (some .aged) { guardhouse with maxTicks := 1 } 1
      (.suspended .hostDenied) (by decide +kernel) (by decide +kernel)
    have hc := chain_of_lasts sentry Replay.host (· = 0) (some .aged)
      ⟨{ guardhouse with maxTicks := 1 },0,none⟩ 0 0 (.suspended .hostDenied)
      (.suspended .hostDenied) _ (by decide +kernel) (by decide +kernel)
      (Option.some_get (by decide +kernel)).symm (by decide +kernel) (by decide +kernel)
      (Option.isNone_iff_eq_none.mp (by decide +kernel))
    refine ⟨.aged,_,_,_,_,_,rfl,hr,hc,?_,by decide +kernel⟩
    rw [List.map_singleton,lost_exit (show _ = Flow.exit (.suspended .hostDenied) by decide +kernel)]
    decide +kernel

end Machine

end BehaviorMachine
