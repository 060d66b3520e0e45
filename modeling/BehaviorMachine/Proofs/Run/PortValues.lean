import BehaviorMachine.Proofs.Dataflow.Params
import BehaviorMachine.Proofs.Dataflow.Writes
import BehaviorMachine.Proofs.Run.Calls
import BehaviorMachine.Proofs.Run.Life

/-!
# Port values are the last writes

All through the life of a session the calls to its hosts account for its port values: they are what
the writes in these calls make of the values at the beginning. So each port holds what was written to
it last, and that is what later steps of a behavior are given.
-/
namespace BehaviorMachine

variable {σ β : Type} {p : Profile}

/-- The answer to a write tells whether its state declares such an output. -/
def Profile.Answered (p : Profile) (e : StateWrite) : Prop :=
  (p.state? e.state).isSome ∧ e.write.written = (p.output? e.state e.write.name).isSome

/-- The calls that are added account for the change of the port values. -/
def Profile.Accounts (p : Profile) (calls calls' : List Call) (values values' : PortValues) : Prop :=
  ∃ new, calls' = calls ++ new ∧ values' = p.replay (new.flatMap Call.writes) values ∧
    ∀ e ∈ new.flatMap Call.writes, p.Answered e

namespace Profile.Accounts

variable {calls calls' calls'' : List Call} {values values' values'' : PortValues}

theorem refl (calls : List Call) (values : PortValues) : p.Accounts calls calls values values :=
  ⟨[],(List.append_nil _).symm,rfl,by simp⟩

theorem trans (h₁ : p.Accounts calls calls' values values')
    (h₂ : p.Accounts calls' calls'' values' values'') : p.Accounts calls calls'' values values'' := by
  obtain ⟨new₁,hc₁,hv₁,ha₁⟩ := h₁
  obtain ⟨new₂,hc₂,hv₂,ha₂⟩ := h₂
  refine ⟨new₁ ++ new₂,by rw [hc₂,hc₁,List.append_assoc],?_,?_⟩
  · rw [List.flatMap_append,replay_append,hv₂,hv₁]
  · rw [List.flatMap_append]
    exact List.forall_mem_append.mpr ⟨ha₁,ha₂⟩

theorem append_left (h : p.Accounts calls calls' values values') (past : List Call) :
    p.Accounts (past ++ calls) (past ++ calls') values values' := by
  obtain ⟨new,hc,hv,ha⟩ := h
  exact ⟨new,by rw [hc,List.append_assoc],hv,ha⟩

end Profile.Accounts

namespace Machine

open Observed

variable {h : Host σ β} {m : Machine} {x y : Execution (Observed σ) (Nat × β)}

theorem accounts_passive {r r' : Observed σ} (hg : Grows Call.Passive r r') (values : PortValues) :
    p.Accounts r.calls r'.calls values values := by
  obtain ⟨new,hc,hp⟩ := hg
  have hnone : new.flatMap Call.writes = [] := by
    refine List.flatMap_eq_nil_iff.mpr fun c hm => ?_
    cases c with
    | step => exact (hp _ hm).elim
    | _ => rfl
  exact ⟨new,hc,by rw [hnone]; rfl,by rw [hnone]; simp⟩

theorem accounts_resolve {name : BehaviorName} {params : BehaviorParams} {token : Option ResumeToken}
    {b : Option (Nat × β)} {r r' : Observed σ}
    (hr : h.observed.resolve name params token r = (b,r')) (values : PortValues) :
    p.Accounts r.calls r'.calls values values :=
  ⟨_,resolve_calls hr,rfl,by simp [Call.writes]⟩

/-- The writes of a step account for what it does to the port values. -/
theorem accounts_advance {s : StateSpec} (hs : p.state? s.id = some s) (params : BehaviorParams)
    (b : Nat × β) (x : Execution (Observed σ) (Nat × β)) :
    p.Accounts x.host.calls (advance h.observed s params b x).host.calls x.session.portValues
      (advance h.observed s params b x).session.portValues := by
  obtain ⟨result,hcalls,hvalues⟩ := advance_writes (h := h) s params b x
  obtain ⟨hreplay,hanswers⟩ := (PortProgram.reaches_run s
    (h.step ⟨s.id,params,x.session.ticksInState⟩ b.2 x.host.state) x.session.portValues).replay hs
  refine ⟨_,hcalls,?_,?_⟩
  · rw [hvalues,hreplay]
    simp [Call.writes]
  · intro e he
    simp only [List.flatMap_singleton,Call.writes,List.mem_map] at he
    obtain ⟨w,hw,rfl⟩ := he
    refine ⟨by rw [hs]; rfl,?_⟩
    rw [hanswers w hw,Profile.output?,hs]
    rfl

theorem Driven.accounts {s : StateSpec} {ticks : UInt32} (hs : m.profile.state? s.id = some s)
    (hd : Driven m h.observed s x ticks y) :
    m.profile.Accounts x.host.calls y.host.calls x.session.portValues y.session.portValues := by
  cases hd with
  | completed hc => exact .refl _ _
  | unresolved hc ha hr => exact accounts_resolve hr _
  | @resolved b host hc ha hr =>
    exact (accounts_resolve hr _).trans (accounts_advance hs _ b
      { x with host, session := { x.session with resumeToken := none } })
  | live hc ha => exact accounts_advance hs _ _ x

theorem Iteration.accounts {flow : Flow} (hi : Iteration m h.observed x flow y) :
    m.profile.Accounts x.host.calls y.host.calls x.session.portValues y.session.portValues := by
  cases hi.drives with
  | none hg hv =>
    rw [hv]
    exact accounts_passive hg _
  | @once s z w ticks hs hz ha hf hd hl hv =>
    have hdriven := hd.accounts (currentState?_some hs).2
    rw [hz] at hdriven
    rw [hv]
    exact ((accounts_passive hf _).trans hdriven).trans (accounts_passive hl _)

end Machine

namespace Moment

variable {first t t' : Moment p}

def values (t : Moment p) : PortValues := t.now.session.portValues

def log (t : Moment p) : List StateWrite := t.calls.flatMap Call.writes

theorem resumed_calls {τ γ : Type} (t : Moment p) (status : RunStatus) (budgets : Budgets)
    (h : Host τ γ) (host : τ) : (t.resumed status budgets h host).calls =
      t.past ++ (t.now.cancel t.host.observed).host.calls := by
  rw [resumed_eq]
  exact List.append_nil _

theorem resumed_values {τ γ : Type} (t : Moment p) (status : RunStatus) (budgets : Budgets)
    (h : Host τ γ) (host : τ) : (t.resumed status budgets h host).values = t.values :=
  rfl

theorem Onward.accounts (ho : Onward t t') : p.Accounts t.calls t'.calls t.values t'.values := by
  cases ho with
  | iterate hf =>
    exact (Machine.step_iteration t.machine t.host.observed t.now).accounts.append_left t.past
  | resume hf budgets h host =>
    rw [resumed_calls,resumed_values]
    exact (Machine.accounts_passive (Machine.cancel_grows t.now) _).append_left t.past

theorem Life.accounts (hl : Life t t') : p.Accounts t.calls t'.calls t.values t'.values := by
  induction hl with
  | refl => exact .refl _ _
  | tail hl ho ih => exact ih.trans ho.accounts

/-- The value that was last written to a port, or the one at the beginning. -/
def last? (first t : Moment p) (state : StateId) (port : PortId) : Option ParamValue :=
  (p.lastWritten? t.log state port).or (first.values.value? state port)

/-- The parameters of a state as they are when each binding contributes the last value of the port
that feeds it. -/
def Sees (first t : Moment p) (s : StateSpec) (params : BehaviorParams) : Prop :=
  ∀ name, params.get? name =
    (Profile.lastBound? s.paramBindings
      (fun b => (p.source? s b).bind fun source => last? first t source.1 source.2) name).or
      (s.behaviorParams.get? name)

/-- At a moment of its life a session remembers what has been written since the first. -/
structure Remembers (first t : Moment p) : Prop where
  value : ∀ state port, t.values.value? state port = last? first t state port
  /-- While a program is being carried out in the current state, its own writes count as well. -/
  within : ∀ {α : Type} (s : StateSpec) (program rest : PortProgram α) (writes : List PortWrite)
    (values : PortValues), t.machine.currentState? t.now.session = some s →
    program.Reaches s t.values writes rest values → ∀ state port,
      values.value? state port =
        (p.lastWritten? (t.log ++ writes.map fun w => ⟨s.id,w⟩) state port).or
          (first.values.value? state port)
  declared : ∀ state port value, p.lastWritten? t.log state port = some value →
    ∃ s, p.state? state = some s ∧ ∃ o ∈ s.ports, o.side = .output ∧ o.id = port
  answered : ∀ e ∈ t.log, p.Answered e
  /-- Refused writes change nothing, other states are left alone, and nothing is removed. -/
  later : ∀ t', Life t t' → ∃ new, t'.log = t.log ++ new ∧
    ((∀ e ∈ new, e.write.written = false) → t'.values = t.values) ∧
    (∀ state : StateId, (∀ e ∈ new, e.write.written = true → e.state ≠ state) →
      t'.values.get? state.text = t.values.get? state.text) ∧
    (∀ state : StateId, (t.values.get? state.text).isSome → (t'.values.get? state.text).isSome) ∧
    ∀ state port, (t.values.value? state port).isSome → (t'.values.value? state port).isSome
  /-- Behaviors are resolved and stepped in the current state, with the last values. -/
  drive : ∀ t', Onward t t' → ∃ new, t'.calls = t.calls ++ new ∧
    (∀ name params token found, Call.resolve name params token found ∈ new →
      ∃ s, t.machine.currentState? t.now.session = some s ∧ name = s.behaviorName ∧
        Sees first t s params) ∧
    ∀ number context writes result, Call.step number context writes result ∈ new →
      ∃ s, t.machine.currentState? t.now.session = some s ∧ context.state = s.id ∧
        Sees first t s context.params

theorem Life.values_eq (hl : Life first t) (hf : first.calls = []) :
    t.values = p.replay t.log first.values ∧ ∀ e ∈ t.log, p.Answered e := by
  obtain ⟨new,hc,hv,ha⟩ := hl.accounts
  rw [hf,List.nil_append] at hc
  rw [log,hc]
  exact ⟨hv,ha⟩

theorem Life.value? (hl : Life first t) (hf : first.calls = []) (state : StateId) (port : PortId) :
    t.values.value? state port = last? first t state port := by
  rw [(hl.values_eq hf).1,Profile.value?_replay,last?]

theorem Life.sees (hl : Life first t) (hf : first.calls = []) (s : StateSpec) :
    Sees first t s (p.effectiveParams s t.values) := by
  intro name
  rw [Profile.effectiveParams_get?]
  congr 2
  funext b
  simp only [Profile.boundValue?_source,hl.value? hf]

theorem Life.later (hl : Life t t') : ∃ new, t'.log = t.log ++ new ∧
    t'.values = p.replay new t.values := by
  obtain ⟨new,hc,hv,-⟩ := hl.accounts
  refine ⟨new.flatMap Call.writes,?_,hv⟩
  rw [log,hc,List.flatMap_append,log]

/-- Only an iteration makes more than passive calls, and it drives the current state. -/
theorem Onward.drives (ho : Onward t t') : ∃ new, t'.calls = t.calls ++ new ∧ ∀ c ∈ new,
    c.Passive ∨ ∃ s, t.machine.currentState? t.now.session = some s ∧
      Machine.IsDrive p s t.values c := by
  cases ho with
  | resume hf budgets h host =>
    obtain ⟨new,hc,hp⟩ := Machine.cancel_grows (h := t.host) t.now
    refine ⟨new,?_,fun c hm => .inl (hp c hm)⟩
    rw [resumed_calls,hc,calls,List.append_assoc]
  | iterate hf =>
    obtain ⟨new,hc,hp⟩ := (Machine.step_iteration t.machine t.host.observed t.now).works.grows
    refine ⟨new,?_,hp⟩
    rw [calls,calls,List.append_assoc,← hc]
    rfl

theorem remembers_of_life (hl : Life first t) (hf : first.calls = []) : Remembers first t where
  value := hl.value? hf
  within s program rest writes values hs hr state port := by
    have hstate : p.state? s.id = some s := (Machine.currentState?_some hs).2
    rw [(hr.replay hstate).1,(hl.values_eq hf).1,← Profile.replay_append,Profile.value?_replay]
  declared state port value := Profile.lastWritten?_declared
  answered := (hl.values_eq hf).2
  later t' hl' := by
    obtain ⟨new,hlog,hvalues⟩ := hl'.later
    rw [hvalues]
    exact ⟨new,hlog,Profile.replay_refused,fun _ => Profile.replay_elsewhere,
      fun _ => Profile.isSome_get?_replay,fun _ _ => Profile.isSome_value?_replay⟩
  drive t' ho := by
    obtain ⟨new,hc,hdrive⟩ := ho.drives
    refine ⟨new,hc,?_,?_⟩
    · intro name params token found hm
      rcases hdrive _ hm with hp | ⟨s,hs,hd⟩
      · exact hp.elim
      · cases hd with
        | resolve => exact ⟨s,hs,rfl,hl.sees hf s⟩
    · intro number context writes result hm
      rcases hdrive _ hm with hp | ⟨s,hs,hd⟩
      · exact hp.elim
      · cases hd with
        | step => exact ⟨s,hs,rfl,hl.sees hf s⟩

/-- Port values are the last writes for the whole life of a session, which begins with any run and
goes on with any others. Consecutive runs are such a life. -/
theorem portValues_lastWritten (p : Profile) :
    (∀ {σ β : Type} (budgets : Budgets) (h : Host σ β) (session : Option SessionState) (host : σ)
      (t : Moment p), Life (begin p budgets h [] session host) t →
        Remembers (begin p budgets h [] session host) t) ∧
    (∀ (e : Episode p) (later : List (Episode p)) (past : List Call), Consecutive (e :: later) →
      ∃ t, Life (begin p e.budgets e.host past e.session e.before) t ∧
        t.flow = .exit (later.getLast?.getD e).outcome.status ∧
        t.now.session = (later.getLast?.getD e).outcome.session) ∧
    ∀ {α : Type} (s : StateSpec) (program rest : PortProgram α) (writes : List PortWrite)
      (values values' : PortValues), program.Reaches s values writes rest values' →
      (∀ w ∈ writes, w.written = false) → values' = values := by
  refine ⟨?_,?_,?_⟩
  · intro σ β budgets h session host t hl
    exact remembers_of_life hl rfl
  · intro e later past hc
    exact life_of_episodes hc past
  · intro α s program rest writes values values' hr hw
    exact hr.refused_writes hw

/-- A host for the lookout, who sees smoke and then fire on his watch, and shouts in vain. -/
def tower : Replay :=
  .start { HostScript.empty with
    maxTicks := 3
    behaviors := NameMap.insert (NameMap.insert ∅ "watch" ⟨some 2,none,[],
      [⟨"sight",.text "smoke",some 1⟩,⟨"sight",.text "fire",some 2⟩,⟨"shout",.text "fire",some 2⟩]⟩)
      "report" ⟨none,none,[],[]⟩ }

/-- The lookout has begun his report when the ticks are used up. -/
def reporting : Moment Machine.lookout.profile :=
  ⟨Machine.lookout.budgets,Replay.host,[],Machine.lookout.after Replay.host.observed 3
    (Machine.lookout.begin Replay.host.observed none (.start tower)),.again⟩

/-- He goes on with it in another run. -/
def resumedReport : Moment Machine.lookout.profile :=
  reporting.next.resumed (.suspended .hostDenied) Machine.lookout.budgets Replay.host tower

theorem life_resumedReport : Life
    (begin Machine.lookout.profile Machine.lookout.budgets Replay.host [] none tower)
      resumedReport := by
  have hreport : Life _ reporting := life_after (p := Machine.lookout.profile) _ Replay.host []
    (x := Machine.lookout.begin Replay.host.observed none (.start tower)) (by decide +kernel)
  exact (hreport.tail (.iterate rfl)).tail (.resume (by decide +kernel) _ _ _)

theorem portValues_lastWritten_lookout :
    (∃ t, Life (begin Machine.lookout.profile Machine.lookout.budgets Replay.host [] none tower) t ∧
      t.log = [⟨⟨"watch"⟩,⟨"sight",.text "smoke",true⟩⟩,⟨⟨"watch"⟩,⟨"sight",.text "fire",true⟩⟩,
        ⟨⟨"watch"⟩,⟨"shout",.text "fire",false⟩⟩] ∧
      t.values.value? ⟨"watch"⟩ ⟨"sight"⟩ = some (.text "fire") ∧
      Remembers (begin Machine.lookout.profile Machine.lookout.budgets Replay.host [] none tower)
        t) ∧
    (Consecutive [Episode.watch,Episode.relief] ∧ ∃ t, Life (begin Machine.sentry.profile
      Episode.watch.budgets Episode.watch.host [] Episode.watch.session Episode.watch.before) t ∧
        t.flow = .exit Episode.relief.outcome.status ∧
        t.now.session = Episode.relief.outcome.session) ∧
    ∃ s, Machine.lookout.profile.state? ⟨"watch"⟩ = some s ∧
      ((PortProgram.writing () [("shout",.text "fire")]).run s ∅).2 = ∅ := by
  obtain ⟨hlife,-,hrefused⟩ := portValues_lastWritten Machine.lookout.profile
  obtain ⟨-,hruns,-⟩ := portValues_lastWritten Machine.sentry.profile
  refine ⟨?_,?_,?_⟩
  · have hremembers := hlife Machine.lookout.budgets Replay.host none tower _ life_resumedReport
    refine ⟨_,life_resumedReport,by decide +kernel,?_,hremembers⟩
    rw [hremembers.value]
    decide +kernel
  · have hc : Consecutive [Episode.watch,Episode.relief] := List.isChain_pair.mpr rfl
    exact ⟨hc,hruns Episode.watch [Episode.relief] [] hc⟩
  · exact ⟨_,rfl,hrefused _ _ _ _ _ _ (PortProgram.reaches_run _ _ _) (by decide +kernel)⟩

end Moment

end BehaviorMachine
