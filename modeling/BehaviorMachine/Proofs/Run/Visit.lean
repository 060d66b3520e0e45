import BehaviorMachine.Proofs.Host.Pace
import BehaviorMachine.Proofs.Run.Calls
import BehaviorMachine.Proofs.Run.Restoration

/-!
# Visits of states

A session that is suspended and resumed goes on with the visit of its state. Whatever happens at the
ends of its runs, a scripted behavior takes the steps of a visit as if there were no ends
(`visit_takesStepsOnce`): while a run goes on the live behavior has their count, between two runs the
token has it.
-/
namespace BehaviorMachine

namespace Observed

/-- What is noted and recorded on the way from one state of an observed host to another. -/
structure Adds (r r' : Observed Replay) (calls : List Call) (events : List HostEvent) : Prop where
  calls : r'.calls = r.calls ++ calls
  events : r'.state.events = r.state.events ++ events

/-- Just these steps are taken on the way, and the scripts stay the same. -/
structure Takes (r r' : Observed Replay) (steps : List ScriptedStep) : Prop where
  behaviors : r'.state.behaviors = r.state.behaviors
  adds : ∃ calls events, Adds r r' calls events ∧
    calls.filterMap Call.step? = steps.map ScriptedStep.call ∧
    events.filter HostEvent.isStep = steps.map ScriptedStep.event

theorem Takes.refl (r : Observed Replay) : Takes r r [] :=
  ⟨rfl,[],[],⟨(List.append_nil _).symm,(List.append_nil _).symm⟩,rfl,rfl⟩

theorem Takes.trans {r₁ r₂ r₃ : Observed Replay} {first last : List ScriptedStep}
    (h₁ : Takes r₁ r₂ first) (h₂ : Takes r₂ r₃ last) : Takes r₁ r₃ (first ++ last) := by
  obtain ⟨hb₁,calls₁,events₁,ha₁,hc₁,he₁⟩ := h₁
  obtain ⟨hb₂,calls₂,events₂,ha₂,hc₂,he₂⟩ := h₂
  refine ⟨hb₂.trans hb₁,calls₁ ++ calls₂,events₁ ++ events₂,⟨?_,?_⟩,?_,?_⟩
  · rw [ha₂.calls,ha₁.calls,List.append_assoc]
  · rw [ha₂.events,ha₁.events,List.append_assoc]
  · rw [List.filterMap_append,hc₁,hc₂,List.map_append]
  · rw [List.filter_append,he₁,he₂,List.map_append]

theorem Adds.unique {r r' : Observed Replay} {calls calls' : List Call}
    {events events' : List HostEvent} (h : Adds r r' calls events) (h' : Adds r r' calls' events') :
    calls' = calls ∧ events' = events :=
  ⟨List.append_cancel_left (h'.calls.symm.trans h.calls),
    List.append_cancel_left (h'.events.symm.trans h.events)⟩

theorem takes_none {r r' : Observed Replay} {c : Call} (hcalls : r'.calls = r.calls ++ [c])
    (hc : c.step? = none) (hb : r'.state.behaviors = r.state.behaviors)
    (he : r'.state.events = r.state.events ∨ ∃ e : HostEvent, e.isStep = false ∧
      r'.state.events = r.state.events ++ [e]) : Takes r r' [] := by
  have hnone : [c].filterMap Call.step? = [] := by simp [hc]
  rcases he with he | ⟨e,hstep,he⟩
  · exact ⟨hb,[c],[],⟨hcalls,he.trans (List.append_nil _).symm⟩,hnone,rfl⟩
  · exact ⟨hb,[c],[e],⟨hcalls,he⟩,hnone,by simp [hstep]⟩

theorem takes_step (r : Observed Replay) (i : Nat) (ticks : UInt64) (t : ScriptedStep) :
    Takes r (r.note (.step i ⟨t.state.id,t.params,ticks⟩
      (t.made.map fun w => ⟨w.port,w.value,(t.state.outputNamed? w.port).isSome⟩) t.result)
        (r.state.record t.event)) [t] :=
  ⟨rfl,[_],[_],⟨rfl,Replay.events_record _ _⟩,rfl,rfl⟩

end Observed

namespace Machine

open Execution Observed

variable {m : Machine} {s : StateSpec}
  {x y z : Execution (Observed Replay) (Nat × ScriptedBehavior)}

theorem takes_wait {ticks : UInt32} {granted : Bool} {r r' : Observed Replay}
    (hw : Replay.host.observed.wait ticks r = (granted,r')) : Takes r r' [] := by
  cases hw
  have hframe := Replay.wait_frame ticks r.state
  refine takes_none rfl rfl ?_ (.inl ?_)
  · exact (congrArg Replay.behaviors hframe :)
  · exact (congrArg Replay.events hframe :)

theorem takes_poll {answer : Option Interrupt} {r r' : Observed Replay}
    (hp : Replay.host.observed.poll r = (answer,r')) : Takes r r' [] := by
  cases hp
  have hframe := Replay.poll_frame r.state
  refine takes_none rfl rfl ?_ (.inl ?_)
  · exact (congrArg Replay.behaviors hframe :)
  · exact (congrArg Replay.events hframe :)

theorem takes_pause (x : Execution (Observed Replay) (Nat × ScriptedBehavior)) :
    Takes x.host (x.pause Replay.host.observed).host [] := by
  rcases x with ⟨r,session,_|b,changes,since⟩
  · exact .refl r
  · exact takes_none rfl rfl rfl (.inr ⟨_,rfl,Replay.events_record _ _⟩)

theorem takes_cancel (x : Execution (Observed Replay) (Nat × ScriptedBehavior)) :
    Takes x.host (x.cancel Replay.host.observed).host [] := by
  rcases x with ⟨r,session,_|b,changes,since⟩
  · exact .refl r
  · exact takes_none rfl rfl rfl (.inr ⟨_,rfl,Replay.events_record _ _⟩)

theorem takes_enter (source target : StateId) (cause : ChangeCause) (now : Timestamp)
    (x : Execution (Observed Replay) (Nat × ScriptedBehavior)) :
    Takes x.host (x.enter Replay.host.observed source target cause now).host [] := by
  rw [enter_eq]
  exact takes_cancel x

theorem Ready.takes (hy : Ready m Replay.host.observed x y) : Takes x.host y.host [] := by
  cases hy with
  | within hb => exact .refl _
  | yielded hb hw => exact takes_wait hw

theorem Undisturbed.takes (hz : Undisturbed m Replay.host.observed s y z) :
    Takes y.host z.host [] := by
  cases hz with
  | quiet hp => exact takes_poll hp
  | ignored hp hr => exact takes_poll hp

theorem resolve_scripted {name : BehaviorName} {params : BehaviorParams}
    {token : Option ResumeToken} {r r' : Observed Replay} {found : Option (Nat × ScriptedBehavior)}
    (hr : Replay.host.observed.resolve name params token r = (found,r')) :
    Takes r r' [] ∧ found.map Prod.snd = (r.state.behaviors.get? name.text).map fun script =>
      ⟨name,script,(token.bind ResumeToken.step?).getD 0⟩ := by
  simp only [Host.observed,Replay.host,Replay.resolve] at hr
  cases hg : r.state.behaviors.get? name.text with
  | none =>
    simp only [hg] at hr
    cases hr
    exact ⟨takes_none rfl rfl rfl (.inl rfl),rfl⟩
  | some script =>
    simp only [hg] at hr
    cases hr
    exact ⟨takes_none rfl rfl rfl (.inr ⟨_,rfl,Replay.events_record _ _⟩),rfl⟩

/-- A behavior takes the step that its script has at the next number, and stays live as long as this
leaves it running. -/
theorem advance_scripted (params : BehaviorParams) (i : Nat) (b : ScriptedBehavior)
    (hname : b.name = s.behaviorName) (x : Execution (Observed Replay) (Nat × ScriptedBehavior)) :
    let t := b.script.stepAt s (addSaturating32 b.steps 1) params
    let y := advance Replay.host.observed s params (i,b) x
    Takes x.host y.host [t] ∧
      (t.result = .running → y.active = some (i,{ b with steps := addSaturating32 b.steps 1 }) ∧
        y.session.subBehaviorComplete = x.session.subBehaviorComplete) ∧
      (t.result ≠ .running → y.active = none ∧ y.session.subBehaviorComplete = true) := by
  obtain ⟨name,script,steps⟩ := b
  obtain rfl : name = s.behaviorName := hname
  intro t y
  have hrun := Replay.run_step ⟨s.id,params,x.session.ticksInState⟩ ⟨s.behaviorName,script,steps⟩
    x.host.state s x.session.portValues
  have hwrites := Replay.writes_step ⟨s.id,params,x.session.ticksInState⟩
    ⟨s.behaviorName,script,steps⟩ x.host.state s x.session.portValues
  have hresult : ({ name := s.behaviorName, script, steps := addSaturating32 steps 1 } :
      ScriptedBehavior).answer params = t.result := rfl
  have htakes := takes_step x.host i x.session.ticksInState t
  simp only [y,advance,Host.observed,PortProgram.run_noting,Replay.host,hrun,hwrites,hresult]
  cases ht : t.result with
  | running =>
    rw [ht] at htakes
    exact ⟨htakes,fun _ => ⟨rfl,rfl⟩,fun hn => absurd rfl hn⟩
  | completed =>
    rw [ht] at htakes
    exact ⟨htakes,by simp,fun _ => ⟨rfl,rfl⟩⟩
  | failed error =>
    rw [ht] at htakes
    exact ⟨htakes,by simp,fun _ => ⟨rfl,rfl⟩⟩

section

variable {p : Profile} {scripts : NameMap BehaviorScript} {session : SessionState}
  {active : Option (Nat × ScriptedBehavior)} {b : ScriptedBehavior} {i : Nat}
  {steps : List ScriptedStep}

structure Tracks (p : Profile) (scripts : NameMap BehaviorScript) (session : SessionState)
    (s : StateSpec) (b : ScriptedBehavior) (steps : List ScriptedStep) : Prop where
  state : session.currentStateId.bind p.state? = some s
  name : b.name = s.behaviorName
  script : scripts.get? s.behaviorName.text = some b.script
  counted : Counted b.script s b.steps steps

/-- How far the behavior of a visit has got, and who has its count: the live behavior, or the token of
the session. -/
inductive Progress (p : Profile) (scripts : NameMap BehaviorScript) (session : SessionState)
    (active : Option (Nat × ScriptedBehavior)) : List ScriptedStep → Prop where
  | untouched (ha : active = none) (ht : session.resumeToken = none)
      (hc : session.subBehaviorComplete = false) : Progress p scripts session active []
  | live {s : StateSpec} {i : Nat} {b : ScriptedBehavior} {steps : List ScriptedStep}
      (hb : Tracks p scripts session s b steps) (hr : ∀ t ∈ steps, t.result = .running)
      (ha : active = some (i,b)) (ht : session.resumeToken = none)
      (hc : session.subBehaviorComplete = false) : Progress p scripts session active steps
  | paused {s : StateSpec} {b : ScriptedBehavior} {steps : List ScriptedStep}
      (hb : Tracks p scripts session s b steps) (hr : ∀ t ∈ steps, t.result = .running)
      (ha : active = none) (ht : session.resumeToken = some (.ofStep b.steps))
      (hc : session.subBehaviorComplete = false) : Progress p scripts session active steps
  | complete {s : StateSpec} {b : ScriptedBehavior} {steps : List ScriptedStep}
      (hb : Tracks p scripts session s b steps) (hr : ∃ t ∈ steps, t.result ≠ .running)
      (ha : active = none) (hc : session.subBehaviorComplete = true) :
      Progress p scripts session active steps

theorem Progress.inactive (hp : Progress p scripts session active steps)
    (hs : session.currentStateId.bind p.state? = none) : active = none := by
  cases hp with
  | untouched ha ht hc => exact ha
  | live hb hr ha ht hc =>
    rw [hb.state] at hs
    cases hs
  | paused hb hr ha ht hc => exact ha
  | complete hb hr ha hc => exact ha

theorem Progress.takenOnce (hp : Progress p scripts session active steps) : steps = [] ∨ ∃ s script,
    session.currentStateId.bind p.state? = some s ∧
      scripts.get? s.behaviorName.text = some script ∧ TakenOnce script s steps := by
  cases hp with
  | untouched ha ht hc => exact .inl rfl
  | live hb hr ha ht hc => exact .inr ⟨_,_,hb.state,hb.script,hb.counted.takenOnce⟩
  | paused hb hr ha ht hc => exact .inr ⟨_,_,hb.state,hb.script,hb.counted.takenOnce⟩
  | complete hb hr ha hc => exact .inr ⟨_,_,hb.state,hb.script,hb.counted.takenOnce⟩

theorem Progress.complete_iff (hp : Progress p scripts session active steps) :
    session.subBehaviorComplete = true ↔ ∃ t ∈ steps, t.result ≠ .running := by
  have hnone (hr : ∀ t ∈ steps, t.result = .running) : ¬ ∃ t ∈ steps, t.result ≠ .running := by
    rintro ⟨t,ht,hn⟩
    exact hn (hr t ht)
  cases hp with
  | untouched ha ht hc => simp [hc]
  | live hb hr ha ht hc => simp [hc,hnone hr]
  | paused hb hr ha ht hc => simp [hc,hnone hr]
  | complete hb hr ha hc => exact iff_of_true hc hr

theorem Progress.congr (hp : Progress p scripts session active steps) {session' : SessionState}
    (hs : session'.currentStateId = session.currentStateId)
    (ht : session'.resumeToken = session.resumeToken)
    (hc : session'.subBehaviorComplete = session.subBehaviorComplete) :
    Progress p scripts session' active steps := by
  have htracks {s : StateSpec} {b : ScriptedBehavior} {steps : List ScriptedStep}
      (hb : Tracks p scripts session s b steps) : Tracks p scripts session' s b steps :=
    ⟨by rw [hs,hb.state],hb.name,hb.script,hb.counted⟩
  cases hp with
  | untouched ha ht' hc' => exact .untouched ha (ht.trans ht') (hc.trans hc')
  | live hb hr ha ht' hc' => exact .live (htracks hb) hr ha (ht.trans ht') (hc.trans hc')
  | paused hb hr ha ht' hc' => exact .paused (htracks hb) hr ha (ht.trans ht') (hc.trans hc')
  | complete hb hr ha hc' => exact .complete (htracks hb) hr ha (hc.trans hc')

theorem Progress.pause (hp : Progress p scripts x.session x.active steps) :
    Progress p scripts (x.pause Replay.host.observed).session (x.pause Replay.host.observed).active
      steps := by
  rcases x with ⟨r,session,active,changes,since⟩
  cases hp with
  | untouched ha ht hc =>
    obtain rfl : active = none := ha
    exact .untouched rfl ht hc
  | live hb hr ha ht hc =>
    obtain rfl : active = some _ := ha
    exact .paused ⟨hb.state,hb.name,hb.script,hb.counted⟩ hr rfl rfl hc
  | paused hb hr ha ht hc =>
    obtain rfl : active = none := ha
    exact .paused hb hr rfl ht hc
  | complete hb hr ha hc =>
    obtain rfl : active = none := ha
    exact .complete hb hr rfl hc

theorem Tracks.advance (hb : Tracks p scripts x.session s b steps)
    (hr : ∀ t ∈ steps, t.result = .running) (ht : x.session.resumeToken = none)
    (hc : x.session.subBehaviorComplete = false) (params : BehaviorParams) :
    let y := advance Replay.host.observed s params (i,b) x
    ∃ new, Takes x.host y.host new ∧ Progress p scripts y.session y.active (steps ++ new) := by
  intro y
  obtain ⟨htakes,hrunning,hended⟩ := advance_scripted params i b hb.name x
  have hstate : y.session.currentStateId.bind p.state? = some s := by
    simp only [y]
    rw [advance_frame]
    exact hb.state
  have htoken : y.session.resumeToken = none := by
    simp only [y]
    rw [advance_frame]
    exact ht
  have hnext : Tracks p scripts y.session s { b with steps := addSaturating32 b.steps 1 }
      (steps ++ [b.script.stepAt s (addSaturating32 b.steps 1) params]) :=
    ⟨hstate,hb.name,hb.script,hb.counted.next hr params⟩
  refine ⟨_,htakes,?_⟩
  by_cases hres : (b.script.stepAt s (addSaturating32 b.steps 1) params).result = .running
  · obtain ⟨ha,hcomplete⟩ := hrunning hres
    have hall := List.forall_mem_append.mpr ⟨hr,List.forall_mem_singleton.mpr hres⟩
    exact .live hnext hall ha htoken (hcomplete.trans hc)
  · obtain ⟨ha,hcomplete⟩ := hended hres
    have hlast := List.mem_append_right steps (List.mem_singleton_self
      (b.script.stepAt s (addSaturating32 b.steps 1) params))
    exact .complete hnext ⟨_,hlast,hres⟩ ha hcomplete

theorem Progress.resolved (hp : Progress p scripts session none steps)
    (hs : session.currentStateId.bind p.state? = some s)
    (hc : session.subBehaviorComplete = false) {script : BehaviorScript}
    (hscript : scripts.get? s.behaviorName.text = some script) :
    (∀ t ∈ steps, t.result = .running) ∧
      Tracks p scripts { session with resumeToken := none } s ⟨s.behaviorName,script,
        (session.resumeToken.bind ResumeToken.step?).getD 0⟩ steps := by
  cases hp with
  | untouched ha ht hf =>
    rw [ht]
    exact ⟨by simp,hs,rfl,hscript,.start⟩
  | live hb hr ha ht hf => cases ha
  | @paused s' b steps hb hr ha ht hf =>
    obtain rfl : s' = s := Option.some.inj (hb.state.symm.trans hs)
    obtain rfl : b.script = script := Option.some.inj (hb.script.symm.trans hscript)
    rw [ht,Option.bind_some,ResumeToken.step?_ofStep,Option.getD_some]
    exact ⟨hr,hs,rfl,hscript,hb.counted⟩
  | complete hb hr ha hf =>
    rw [hc] at hf
    cases hf

/-- What is done for the behavior takes one step of it at most. -/
theorem Progress.driven {ticks : UInt32} (hp : Progress m.profile scripts x.session x.active steps)
    (hs : m.currentState? x.session = some s) (hb : x.host.state.behaviors = scripts)
    (hd : Driven m Replay.host.observed s x ticks y) :
    ∃ new, Takes x.host y.host new ∧ Progress m.profile scripts y.session y.active (steps ++ new) := by
  cases hd with
  | completed hc =>
    refine ⟨[],.refl _,?_⟩
    rw [List.append_nil]
    exact hp
  | unresolved hc ha hr =>
    refine ⟨[],(resolve_scripted hr).1,?_⟩
    rw [List.append_nil]
    exact hp
  | @resolved b host hc ha hr =>
    obtain ⟨hresolve,hfound⟩ := resolve_scripted hr
    rw [hb,Option.map_some] at hfound
    obtain ⟨script,hscript,hbehavior⟩ := Option.map_eq_some_iff.mp hfound.symm
    rw [ha] at hp
    obtain ⟨hrunning,htracks⟩ := hp.resolved hs hc hscript
    rw [hbehavior] at htracks
    obtain ⟨new,htakes,hprogress⟩ := Tracks.advance (i := b.1)
      (x := { x with host, session := { x.session with resumeToken := none } }) htracks hrunning rfl
        hc (m.profile.effectiveParams s x.session.portValues)
    exact ⟨new,hresolve.trans htakes,hprogress⟩
  | live hc ha =>
    cases hp with
    | untouched ha' ht hf => rw [ha'] at ha; cases ha
    | @live s' i b' steps htracks hrunning ha' ht hf =>
      obtain rfl : s' = s := Option.some.inj (htracks.state.symm.trans hs)
      obtain rfl := Option.some.inj (ha'.symm.trans ha)
      exact htracks.advance hrunning ht hc _
    | paused htracks hrunning ha' ht hf => rw [ha'] at ha; cases ha
    | complete htracks hrunning ha' hf => rw [hc] at hf; cases hf

/-- An iteration goes on with the visit of its state, or leaves for the next one without a step. -/
inductive Proceeds (p : Profile) (scripts : NameMap BehaviorScript) (steps : List ScriptedStep)
    (x : Execution (Observed Replay) (Nat × ScriptedBehavior)) (flow : Flow)
    (y : Execution (Observed Replay) (Nat × ScriptedBehavior)) : Prop where
  | on {new : List ScriptedStep} (ht : Takes x.host y.host new) (hc : y.changes = x.changes)
      (hp : Progress p scripts y.session y.active (steps ++ new))
      (ha : flow ≠ .again → y.active = none)
  | away (ht : Takes x.host y.host []) (hc : y.changes ≠ x.changes) (hf : flow = .again)
      (hp : Progress p scripts y.session y.active [])

theorem Proceeds.pause {new : List ScriptedStep} {status : RunStatus} (ht : Takes x.host y.host new)
    (hc : y.changes = x.changes) (hp : Progress p scripts y.session y.active (steps ++ new)) :
    Proceeds p scripts steps x (.exit status) (y.pause Replay.host.observed) := by
  have htakes := ht.trans (takes_pause y)
  rw [List.append_nil] at htakes
  refine .on htakes ?_ hp.pause fun _ => ?_
  · rw [pause_frame]
    exact hc
  · rw [pause_frame]

theorem Proceeds.enter (ht : Takes x.host y.host []) (hc : y.changes = x.changes)
    (source target : StateId) (cause : ChangeCause) (now : Timestamp) :
    Proceeds p scripts steps x .again (y.enter Replay.host.observed source target cause now) := by
  refine .away (ht.trans (takes_enter source target cause now y)) ?_ rfl ?_
  · rw [enter_changes,hc]
    exact List.cons_ne_self _ _
  · rw [enter_eq]
    exact .untouched rfl rfl rfl

theorem Iteration.proceeds {flow : Flow} (hi : Iteration m Replay.host.observed x flow y)
    (hp : Progress m.profile scripts x.session x.active steps)
    (hb : x.host.state.behaviors = scripts) : Proceeds m.profile scripts steps x flow y := by
  have hp' : Progress m.profile scripts x.session x.active (steps ++ []) := by
    rw [List.append_nil]
    exact hp
  -- all that happens before the behavior is driven takes no step
  have hready {y : Execution (Observed Replay) (Nat × ScriptedBehavior)}
      (hy : Ready m Replay.host.observed x y) : Takes x.host y.host [] ∧ y.changes = x.changes ∧
        Progress m.profile scripts y.session y.active (steps ++ []) := by
    have htakes := hy.takes
    rw [hy.frame] at htakes ⊢
    exact ⟨htakes,rfl,hp'⟩
  have hdriven {s : StateSpec} {y z w : Execution (Observed Replay) (Nat × ScriptedBehavior)}
      {ticks : UInt32} (hs : m.currentState? x.session = some s)
      (hy : Ready m Replay.host.observed x y) (hz : Undisturbed m Replay.host.observed s y z)
      (hd : Driven m Replay.host.observed s z ticks w) : ∃ new, Takes x.host w.host new ∧
        w.changes = x.changes ∧ Progress m.profile scripts w.session w.active (steps ++ new) := by
    have htakes := hy.takes.trans hz.takes
    have hsz := Undisturbed.currentState hs hy hz
    have hpz : Progress m.profile scripts z.session z.active steps := by
      rw [hz.frame,hy.frame]
      exact hp
    obtain ⟨new,hnew,hpw⟩ := hpz.driven hsz (htakes.behaviors.trans hb) hd
    refine ⟨new,htakes.trans hnew,?_,hpw⟩
    rw [hd.frame,hz.frame,hy.frame]
  cases hi with
  | idle hs =>
    refine .on (.refl _) rfl hp' fun _ => hp.inactive ?_
    rw [hs,Option.bind_none]
  | terminated hs hr =>
    refine .on (.refl _) rfl hp' fun _ => hp.inactive ?_
    rw [hs,Option.bind_some,hr]
  | yieldDenied hs hb hw => exact .pause (takes_wait hw) rfl hp'
  | @redirected _ y _ _ host hs hy hpoll hr =>
    obtain ⟨htakes,hchanges,-⟩ := hready hy
    exact .enter (y := { y with host }) (htakes.trans (takes_poll hpoll)) hchanges _ _ _ _
  | interrupted hs hy hpoll hr =>
    obtain ⟨htakes,hchanges,hpy⟩ := hready hy
    exact .pause (htakes.trans (takes_poll hpoll)) hchanges hpy
  | fired hs hy hz ht =>
    refine .enter (hy.takes.trans hz.takes) ?_ _ _ _ _
    rw [hz.frame,hy.frame]
  | denied hs hy hz ht hd hw =>
    obtain ⟨new,htakes,hchanges,hpw⟩ := hdriven hs hy hz hd
    have htakes := htakes.trans (takes_wait hw)
    rw [List.append_nil] at htakes
    exact .pause htakes hchanges hpw
  | continued hs hy hz ht hd hw =>
    obtain ⟨new,htakes,hchanges,hpw⟩ := hdriven hs hy hz hd
    have htakes := htakes.trans (takes_wait hw)
    rw [List.append_nil] at htakes
    exact .on htakes hchanges (hpw.congr rfl rfl rfl) fun hf => absurd rfl hf

theorem Progress.step {budgets : Budgets} {flow : Flow}
    (hp : Progress p scripts x.session x.active steps) (hb : x.host.state.behaviors = scripts)
    (hs : Machine.step ⟨p,budgets⟩ Replay.host.observed x = (flow,y)) :
    Proceeds p scripts steps x flow y := by
  have hi := step_iteration ⟨p,budgets⟩ Replay.host.observed x
  rw [hs] at hi
  exact hi.proceeds hp hb

end

/-- The record of a visit up to some moment of a session: the calls and events since the state was
entered. The session may be taken up again whenever a run has ended, on any host that has the same
scripts. -/
inductive Visit (p : Profile) (scripts : NameMap BehaviorScript) : Budgets →
    Execution (Observed Replay) (Nat × ScriptedBehavior) → Flow → List Call → List HostEvent →
      Prop where
  | fresh (budgets : Budgets) {r : Replay} (hr : r.behaviors = scripts) : Visit p scripts budgets
      (Machine.begin ⟨p,budgets⟩ Replay.host.observed none (.start r)) .again [] []
  | stays {budgets : Budgets} {x y : Execution (Observed Replay) (Nat × ScriptedBehavior)}
      {flow : Flow} {calls new : List Call} {events recorded : List HostEvent}
      (hv : Visit p scripts budgets x .again calls events)
      (hs : Machine.step ⟨p,budgets⟩ Replay.host.observed x = (flow,y))
      (hc : y.changes = x.changes) (ha : Adds x.host y.host new recorded) :
      Visit p scripts budgets y flow (calls ++ new) (events ++ recorded)
  | enters {budgets : Budgets} {x y : Execution (Observed Replay) (Nat × ScriptedBehavior)}
      {flow : Flow} {calls : List Call} {events : List HostEvent}
      (hv : Visit p scripts budgets x .again calls events)
      (hs : Machine.step ⟨p,budgets⟩ Replay.host.observed x = (flow,y))
      (hc : y.changes ≠ x.changes) : Visit p scripts budgets y flow [] []
  | resumed {budgets : Budgets} {x : Execution (Observed Replay) (Nat × ScriptedBehavior)}
      {status : RunStatus} {o : RunOutcome} {left : Observed Replay} {calls new : List Call}
      {events recorded : List HostEvent} (hv : Visit p scripts budgets x (.exit status) calls events)
      (hf : x.finish Replay.host.observed status = (o,left)) (ha : Adds x.host left new recorded)
      (budgets' : Budgets) {r : Replay} (hr : r.behaviors = scripts) : Visit p scripts budgets'
        (Machine.begin ⟨p,budgets'⟩ Replay.host.observed (some o.session) (.start r)) .again
          (calls ++ new) (events ++ recorded)

namespace Visit

variable {p : Profile} {scripts : NameMap BehaviorScript} {budgets : Budgets} {flow : Flow}
  {calls : List Call} {events : List HostEvent}

/-- The steps of a visit are the steps in its record. -/
theorem progress (hv : Visit p scripts budgets x flow calls events) :
    x.host.state.behaviors = scripts ∧ (flow ≠ .again → x.active = none) ∧ ∃ steps,
      calls.filterMap Call.step? = steps.map ScriptedStep.call ∧
      events.filter HostEvent.isStep = steps.map ScriptedStep.event ∧
      Progress p scripts x.session x.active steps := by
  induction hv with
  | fresh budgets hr =>
    exact ⟨hr,fun hf => absurd rfl hf,[],rfl,rfl,.untouched rfl rfl rfl⟩
  | @stays budgets x y flow calls new events recorded hv hs hc ha ih =>
    obtain ⟨hb,-,steps,hcalls,hevents,hp⟩ := ih
    cases hp.step hb hs with
    | on ht _ hp' hactive =>
      obtain ⟨hbehaviors,calls',events',hadds,hcalls',hevents'⟩ := ht
      obtain ⟨rfl,rfl⟩ := hadds.unique ha
      refine ⟨hbehaviors.trans hb,hactive,_,?_,?_,hp'⟩
      · rw [List.filterMap_append,hcalls,hcalls',List.map_append]
      · rw [List.filter_append,hevents,hevents',List.map_append]
    | away _ hn _ _ => exact absurd hc hn
  | @enters budgets x y flow calls events hv hs hc ih =>
    obtain ⟨hb,-,steps,hcalls,hevents,hp⟩ := ih
    cases hp.step hb hs with
    | on _ he _ _ => exact absurd he hc
    | away ht _ hf hp' => exact ⟨ht.behaviors.trans hb,fun hn => absurd hf hn,[],rfl,rfl,hp'⟩
  | @resumed budgets x status o left calls new events recorded hv hf ha budgets' r hr ih =>
    obtain ⟨hb,hactive,steps,hcalls,hevents,hp⟩ := ih
    have hnone := hactive (by simp)
    rw [finish_quiet _ _ hnone] at hf
    cases hf
    rw [hnone] at hp
    obtain ⟨rfl,rfl⟩ := Adds.unique ⟨(List.append_nil _).symm,(List.append_nil _).symm⟩ ha
    refine ⟨hr,fun hn => absurd rfl hn,steps,?_,?_,hp.congr rfl rfl rfl⟩
    · rw [List.append_nil,hcalls]
    · rw [List.append_nil,hevents]

theorem next (hv : Visit p scripts budgets x .again calls events)
    (hs : Machine.step ⟨p,budgets⟩ Replay.host.observed x = (flow,y)) :
    ∃ calls events, Visit p scripts budgets y flow calls events := by
  obtain ⟨hb,-,steps,-,-,hp⟩ := hv.progress
  cases hp.step hb hs with
  | on ht hc _ _ =>
    obtain ⟨-,new,recorded,ha,-,-⟩ := ht
    exact ⟨_,_,hv.stays hs hc ha⟩
  | away _ hc _ _ => exact ⟨_,_,hv.enters hs hc⟩

theorem after {n : Nat} (hv : Visit p scripts budgets x .again calls events)
    (hl : Machine.Lasts ⟨p,budgets⟩ Replay.host.observed n x) : ∃ calls events,
      Visit p scripts budgets (Machine.after ⟨p,budgets⟩ Replay.host.observed n x) .again calls
        events := by
  induction n with
  | zero => exact ⟨_,_,hv⟩
  | succ n ih =>
    obtain ⟨hl,hn⟩ := lasts_next.mp hl
    obtain ⟨calls',events',hv'⟩ := ih hl
    exact hv'.next (Prod.ext hn rfl)

theorem resume {o : RunOutcome} {left : Observed Replay}
    (hv : Visit p scripts budgets x .again calls events)
    (hr : Machine.loop ⟨p,budgets⟩ Replay.host.observed x = some (o,left)) (budgets' : Budgets)
    {r : Replay} (hb : r.behaviors = scripts) : ∃ calls events, Visit p scripts budgets'
      (Machine.begin ⟨p,budgets'⟩ Replay.host.observed (some o.session) (.start r)) .again calls
        events := by
  obtain ⟨n,status,hl,hexit,hf⟩ := loop_eq_some_iff.mp hr
  obtain ⟨calls',events',hv'⟩ := hv.after hl
  obtain ⟨calls'',events'',hend⟩ := hv'.next (Prod.ext hexit rfl)
  obtain ⟨-,hactive,-⟩ := hend.progress
  have hquiet := finish_quiet Replay.host.observed status (hactive (by simp))
  obtain rfl := congrArg Prod.fst (hquiet.symm.trans hf)
  exact ⟨_,_,hend.resumed hquiet ⟨(List.append_nil _).symm,(List.append_nil _).symm⟩ budgets' hb⟩

end Visit

/-- Wherever runs end and the session is taken up again, a visit takes the steps of its behavior's
script one after another and each of them once, until one of them ends the behavior. No step is taken
between two visits, and every run that has ended may be followed by another one. -/
theorem visit_takesStepsOnce {p : Profile} {scripts : NameMap BehaviorScript} {budgets : Budgets}
    {flow : Flow} {calls : List Call} {events : List HostEvent}
    (hv : Visit p scripts budgets x flow calls events) :
    (∃ steps, calls.filterMap Call.step? = steps.map ScriptedStep.call ∧
      events.filter HostEvent.isStep = steps.map ScriptedStep.event ∧
      (steps = [] ∨ ∃ s script, x.session.currentStateId.bind p.state? = some s ∧
        scripts.get? s.behaviorName.text = some script ∧ TakenOnce script s steps) ∧
      (x.session.subBehaviorComplete = true ↔ ∃ t ∈ steps, t.result ≠ .running)) ∧
    (flow = .again → ∀ flow' y, Machine.step ⟨p,budgets⟩ Replay.host.observed x = (flow',y) →
      y.changes ≠ x.changes → Takes x.host y.host []) ∧
    (flow = .again → ∀ o left,
      Machine.loop ⟨p,budgets⟩ Replay.host.observed x = some (o,left) →
      ∀ budgets' (r : Replay), r.behaviors = scripts → ∃ calls events, Visit p scripts budgets'
        (Machine.begin ⟨p,budgets'⟩ Replay.host.observed (some o.session) (.start r)) .again calls
          events) := by
  obtain ⟨hb,-,steps,hcalls,hevents,hp⟩ := hv.progress
  refine ⟨⟨steps,hcalls,hevents,hp.takenOnce,hp.complete_iff⟩,?_,?_⟩
  · intro hflow flow' y hs hc
    cases hp.step hb hs with
    | on _ he _ _ => exact absurd he hc
    | away ht _ _ _ => exact ht
  · intro hflow o left hr budgets' r hr'
    rw [hflow] at hv
    exact hv.resume hr budgets' hr'

open Replay in
theorem visit_takesStepsOnce_sentry : ∃ x calls events,
    Visit sentry.profile guardhouse.behaviors sentry.budgets x .again calls events ∧
    events.filter HostEvent.isStep =
      [.stepped ⟨"watch"⟩ ⟨"watch"⟩ 1 ∅,.stepped ⟨"watch"⟩ ⟨"watch"⟩ 2 ∅] ∧
    x.session.subBehaviorComplete = true ∧
    ∃ steps : List ScriptedStep, events.filter HostEvent.isStep = steps.map ScriptedStep.event ∧
      ∃ t ∈ steps, t.result ≠ .running := by
  let x := sentry.begin Replay.host.observed none (.start { guardhouse with maxTicks := 0 })
  let y := (sentry.step Replay.host.observed x).2
  let x' := sentry.begin Replay.host.observed (some y.session) (.start guardhouse)
  let y' := (sentry.step Replay.host.observed x').2
  have hx : Visit sentry.profile guardhouse.behaviors sentry.budgets x .again [] [] :=
    .fresh sentry.budgets (r := { guardhouse with maxTicks := 0 }) rfl
  have hy : Visit sentry.profile guardhouse.behaviors sentry.budgets y
      (.exit (.suspended .hostDenied)) y.host.calls y.host.state.events :=
    hx.stays (Prod.ext (by decide +kernel) rfl) (by decide +kernel) ⟨rfl,by decide +kernel⟩
  have hx' : Visit sentry.profile guardhouse.behaviors sentry.budgets x' .again
      (y.host.calls ++ []) (y.host.state.events ++ []) :=
    hy.resumed (finish_quiet _ _ (hy.progress.2.1 (by simp)))
      ⟨(List.append_nil _).symm,(List.append_nil _).symm⟩ sentry.budgets rfl
  have hy' : Visit sentry.profile guardhouse.behaviors sentry.budgets y' .again
      (y.host.calls ++ [] ++ y'.host.calls)
      (y.host.state.events ++ [] ++ y'.host.state.events) :=
    hx'.stays (Prod.ext (by decide +kernel) rfl) (by decide +kernel) ⟨rfl,by decide +kernel⟩
  obtain ⟨⟨steps,-,hevents,-,hcomplete⟩,-,-⟩ := visit_takesStepsOnce hy'
  have hc : y'.session.subBehaviorComplete = true := by decide +kernel
  exact ⟨_,_,_,hy',by decide +kernel,hc,steps,hevents,hcomplete.mp hc⟩

end Machine

end BehaviorMachine
