import BehaviorMachine.Proofs.Run.Lifecycle

/-!
# Behaviors that their tokens restore

A run can only be interrupted unnoticed if the host plays along: its behaviors do not look at the
ticks in their state, a behavior resolved with the token of a paused one goes on like it, and no run
tells whether it was resolved anew or cancelled. `Restoration` says so operation by operation.
Scripted behaviors are of this kind.
-/
namespace BehaviorMachine

variable {σ β α γ : Type}

/-- States of a host that no run tells apart, states in which runs may leave it, behaviors of a name
that have the same future, and the tokens that these leave when they are paused. A behavior is parked
if its run was suspended and the next one has not yet resolved it anew. -/
structure Restoration (h : Host σ β) where
  alike : σ → σ → Prop
  ended : σ → σ → Prop
  same : BehaviorName → β → β → Prop
  token : β → Option ResumeToken
  ended_alike : ∀ {s t}, alike s t → ended s t
  wait : ∀ {s t}, alike s t → ∀ ticks,
    (h.wait ticks s).1 = (h.wait ticks t).1 ∧ alike (h.wait ticks s).2 (h.wait ticks t).2
  poll : ∀ {s t}, alike s t → (h.poll s).1 = (h.poll t).1 ∧ alike (h.poll s).2 (h.poll t).2
  world : ∀ {s t}, alike s t → h.world s = h.world t
  now : ∀ {s t}, alike s t → h.now s = h.now t
  refuse : ∀ {s t}, alike s t → ∀ {name params token s'},
    h.resolve name params token s = (none,s') →
    ∃ t', h.resolve name params token t = (none,t') ∧ alike s' t'
  resolve : ∀ {s t}, alike s t → ∀ {name params token b s'},
    h.resolve name params token s = (some b,s') →
    ∃ c t', h.resolve name params token t = (some c,t') ∧ same name b c ∧ alike s' t'
  step : ∀ {s t name b c}, alike s t → same name b c → ∀ state params i j spec values,
    (h.step ⟨state,params,i⟩ b s).writes spec values =
      (h.step ⟨state,params,j⟩ c t).writes spec values ∧
    ∃ result b' c' s' t' values',
      (h.step ⟨state,params,i⟩ b s).run spec values = ((result,b',s'),values') ∧
      (h.step ⟨state,params,j⟩ c t).run spec values = ((result,c',t'),values') ∧
      (result = .running → same name b' c') ∧ alike s' t'
  pause : ∀ {s t name b c}, alike s t → same name b c → (h.pause b s).1 = token c ∧
    (h.pause c t).1 = token c ∧ ended (h.pause b s).2 (h.pause c t).2
  pause_parked : ∀ {s t name b c}, alike s t → same name b c → ended (h.pause b s).2 t
  cancel : ∀ {s t name b c}, alike s t → same name b c → alike (h.cancel b s) (h.cancel c t)
  cancel_parked : ∀ {s t name b c}, alike s t → same name b c → alike (h.cancel b s) t
  restore : ∀ {s t name b c}, alike s t → same name b c → ∀ params,
    ∃ d t', h.resolve name params (token c) t = (some d,t') ∧ same name b d ∧ alike s t'

/-- The steps of behaviors among the calls of a run: where, with which parameters, with which writes,
and to which end. -/
def Call.step? : Call → Option (StateId × BehaviorParams × List PortWrite × StepResult)
  | .step _ context writes result => some (context.state,context.params,writes,result)
  | _ => none

namespace Observed

def steps (r : Observed σ) : List (StateId × BehaviorParams × List PortWrite × StepResult) :=
  r.calls.filterMap Call.step?

theorem steps_note (r : Observed σ) (c : Call) (s : σ) :
    (r.note c s).steps = r.steps ++ c.step?.toList := by
  rw [steps,note,List.filterMap_append,steps]
  cases hd : c.step? <;> simp [hd]

theorem steps_still (r : Observed σ) (c : Call) (s : σ) (hc : c.step? = none) :
    (r.note c s).steps = r.steps := by
  rw [steps_note,hc]
  exact List.append_nil _

end Observed

theorem PortProgram.writes_noting (f : List PortWrite → α → γ) (s : StateSpec) (p : PortProgram α)
    (noted : List PortWrite) (values : PortValues) :
    (noting f noted p).writes s values = p.writes s values := by
  induction p generalizing noted values with
  | done result => rfl
  | write name value next ih =>
    simp only [noting,writes]
    cases s.write? values name value with
    | none => simp only [ih]
    | some written => simp only [ih]
  | read name next ih => simp only [noting,writes,ih]

namespace Restoration

def observed {h : Host σ β} (F : Restoration h) : Restoration h.observed where
  alike r r' := F.alike r.state r'.state ∧ r.steps = r'.steps
  ended r r' := F.ended r.state r'.state ∧ r.steps = r'.steps
  same name b c := F.same name b.2 c.2
  token b := F.token b.2
  ended_alike hx := ⟨F.ended_alike hx.1,hx.2⟩
  wait := by
    intro r r' hx ticks
    obtain ⟨ha,hs⟩ := hx
    obtain ⟨he,ha'⟩ := F.wait ha ticks
    refine ⟨he,ha',?_⟩
    simp only [Host.observed,Observed.steps_note,hs,Call.step?]
  poll := by
    intro r r' hx
    obtain ⟨ha,hs⟩ := hx
    obtain ⟨he,ha'⟩ := F.poll ha
    refine ⟨he,ha',?_⟩
    simp only [Host.observed,Observed.steps_note,hs,Call.step?]
  world := fun ha => F.world ha.1
  now := fun ha => F.now ha.1
  refuse := by
    intro r r' hx name params token t hr
    obtain ⟨ha,hs⟩ := hx
    simp only [Host.observed] at hr
    split at hr
    · next s he =>
      cases hr
      obtain ⟨t',ht,ha'⟩ := F.refuse ha he
      refine ⟨r'.note (.resolve name params token none) t',?_,ha',?_⟩
      · simp only [Host.observed,ht]
      · simp only [Observed.steps_note,hs]
    · cases hr
  resolve := by
    intro r r' hx name params token b t hr
    obtain ⟨ha,hs⟩ := hx
    simp only [Host.observed] at hr
    split at hr
    · cases hr
    · next b s he =>
      cases hr
      obtain ⟨c,t',ht,hb,ha'⟩ := F.resolve ha he
      refine ⟨(r'.resolved,c),{ r'.note (.resolve name params token (some r'.resolved)) t' with
        resolved := r'.resolved+1 },?_,hb,ha',?_⟩
      · simp only [Host.observed,ht]
      · have hr := Observed.steps_still r (.resolve name params token (some r.resolved)) s rfl
        have hr' := Observed.steps_still r' (.resolve name params token (some r'.resolved)) t' rfl
        exact hr.trans (hs.trans hr'.symm)
  step := by
    intro r r' name b c hx hb state params i j spec values
    obtain ⟨ha,hs⟩ := hx
    obtain ⟨hw,result,b',c',s',t',values',hp,hq,hb',ha'⟩ := F.step ha hb state params i j spec values
    refine ⟨?_,result,(b.1,b'),(c.1,c'),
      r.note (.step b.1 ⟨state,params,i⟩
        ((h.step ⟨state,params,i⟩ b.2 r.state).writes spec values) result) s',
      r'.note (.step c.1 ⟨state,params,j⟩
        ((h.step ⟨state,params,j⟩ c.2 r'.state).writes spec values) result) t',values',?_,?_,hb',
      ha',?_⟩
    · simp only [Host.observed,PortProgram.writes_noting,hw]
    · simp only [Host.observed,PortProgram.run_noting,hp,List.nil_append]
    · simp only [Host.observed,PortProgram.run_noting,hq,List.nil_append]
    · simp only [Observed.steps_note,hs,hw,Call.step?]
  pause := by
    intro r r' name b c hx hb
    obtain ⟨ha,hs⟩ := hx
    obtain ⟨hp,hq,he⟩ := F.pause ha hb
    exact ⟨hp,hq,he,(Observed.steps_still r _ _ rfl).trans
      (hs.trans (Observed.steps_still r' _ _ rfl).symm)⟩
  pause_parked := by
    intro r r' name b c hx hb
    obtain ⟨ha,hs⟩ := hx
    exact ⟨F.pause_parked ha hb,(Observed.steps_still r _ _ rfl).trans hs⟩
  cancel := by
    intro r r' name b c hx hb
    obtain ⟨ha,hs⟩ := hx
    exact ⟨F.cancel ha hb,(Observed.steps_still r _ _ rfl).trans
      (hs.trans (Observed.steps_still r' _ _ rfl).symm)⟩
  cancel_parked := by
    intro r r' name b c hx hb
    obtain ⟨ha,hs⟩ := hx
    exact ⟨F.cancel_parked ha hb,(Observed.steps_still r _ _ rfl).trans hs⟩
  restore := by
    intro r r' name b c hx hb params
    obtain ⟨ha,hs⟩ := hx
    obtain ⟨d,t',hr,hd,ha'⟩ := F.restore ha hb params
    refine ⟨(r'.resolved,d),{ r'.note (.resolve name params (F.token c.2) (some r'.resolved)) t' with
      resolved := r'.resolved+1 },?_,hd,ha',?_⟩
    · simp only [Host.observed,hr]
    · have hr' := Observed.steps_still r'
        (.resolve name params (F.token c.2) (some r'.resolved)) t' rfl
      exact hs.trans hr'.symm

end Restoration

theorem PortProgram.writing_congr {α : Type} (a a' : α) (list : List (String × ParamValue))
    (s : StateSpec) (values : PortValues) :
    (writing a list).writes s values = (writing a' list).writes s values ∧
      ((writing a list).run s values).2 = ((writing a' list).run s values).2 := by
  induction list generalizing values with
  | nil => exact ⟨rfl,rfl⟩
  | cons w rest ih =>
    simp only [writing,writes,run]
    cases s.write? values w.1 w.2 with
    | none => exact ⟨congrArg (⟨w.1,w.2,false⟩ :: ·) (ih values).1,(ih values).2⟩
    | some written => exact ⟨congrArg (⟨w.1,w.2,true⟩ :: ·) (ih written).1,(ih written).2⟩

theorem ResumeToken.step?_ofStep (n : UInt32) : (ResumeToken.ofStep n).step? = some n := by
  have hb : n.toUInt64.toNat < UInt32.size := by
    rw [UInt32.toNat_toUInt64]
    exact n.toNat_lt_size
  rw [step?,ofStep]
  simp only [Json.member?,Json.ofUInt32,Json.asUInt32?,List.reverse_singleton,List.find?_singleton,
    decide_true,if_true,Option.map_some,Option.bind_some,if_pos hb]
  rw [UInt32.toNat_toUInt64,UInt32.ofNat_toNat]

namespace Replay

/-- States of a scripted host that differ in what they have recorded. -/
def Alike (behaviors : NameMap BehaviorScript) (r q : Replay) : Prop :=
  r.behaviors = behaviors ∧ ∃ events, q = { r with recorded := events }

theorem step_congr {behaviors : NameMap BehaviorScript} {r q : Replay} (ha : Alike behaviors r q)
    (b : ScriptedBehavior) (state : StateId) (params : BehaviorParams) (i j : UInt64)
    (spec : StateSpec) (values : PortValues) :
    (Replay.step ⟨state,params,i⟩ b r).writes spec values =
        (Replay.step ⟨state,params,j⟩ b q).writes spec values ∧
      ((Replay.step ⟨state,params,i⟩ b r).run spec values).2 =
        ((Replay.step ⟨state,params,j⟩ b q).run spec values).2 := by
  obtain ⟨-,events,rfl⟩ := ha
  simp only [Replay.step]
  cases b.script.requiredParams.find? fun name => (params.get? name).isNone with
  | some missing => exact ⟨rfl,rfl⟩
  | none => exact PortProgram.writing_congr _ _ _ spec values

/-- Scripted behaviors go on after the steps that their token counts. -/
def restoration (behaviors : NameMap BehaviorScript) : Restoration Replay.host where
  alike := Alike behaviors
  ended := Alike behaviors
  same name b c := b = c ∧ b.name = name ∧ behaviors.get? name.text = some b.script
  token b := some (.ofStep b.steps)
  ended_alike := id
  wait := by
    intro r q hx ticks
    obtain ⟨hb,events,rfl⟩ := hx
    simp only [Replay.host,Replay.wait]
    split
    · exact ⟨rfl,hb,events,rfl⟩
    · exact ⟨rfl,hb,events,rfl⟩
  poll := by
    intro r q hx
    obtain ⟨hb,events,rfl⟩ := hx
    simp only [Replay.host,Replay.poll]
    split
    · exact ⟨rfl,hb,events,rfl⟩
    · split
      · exact ⟨rfl,hb,events,rfl⟩
      · exact ⟨rfl,hb,events,rfl⟩
  world := by
    intro r q hx
    obtain ⟨hb,events,rfl⟩ := hx
    rfl
  now := by
    intro r q hx
    obtain ⟨hb,events,rfl⟩ := hx
    rfl
  refuse := by
    intro r q hx name params token s' hr
    obtain ⟨hb,events,rfl⟩ := hx
    simp only [Replay.host,Replay.resolve] at hr ⊢
    cases hg : r.behaviors.get? name.text with
    | none =>
      simp only [hg] at hr ⊢
      cases hr
      exact ⟨_,rfl,hb,events,rfl⟩
    | some script =>
      simp only [hg] at hr
      cases hr
  resolve := by
    intro r q hx name params token b s' hr
    obtain ⟨hb,events,rfl⟩ := hx
    simp only [Replay.host,Replay.resolve] at hr ⊢
    cases hg : r.behaviors.get? name.text with
    | none =>
      simp only [hg] at hr
      cases hr
    | some script =>
      simp only [hg] at hr ⊢
      cases hr
      exact ⟨_,_,rfl,⟨rfl,rfl,hb ▸ hg⟩,hb,_,rfl⟩
  step := by
    intro r q name b c ha hx state params i j spec values
    obtain ⟨rfl,hn,hg⟩ := hx
    obtain ⟨hw,hv⟩ := step_congr ha b state params i j spec values
    refine ⟨hw,_,_,_,_,_,_,Prod.ext (run_step ⟨state,params,i⟩ b r spec values) hv,
      Prod.ext (run_step ⟨state,params,j⟩ b q spec values) rfl,fun _ => ⟨rfl,hn,hg⟩,?_⟩
    obtain ⟨hb,events,rfl⟩ := ha
    exact ⟨hb,_,rfl⟩
  pause := by
    intro r q name b c hx hy
    obtain ⟨hb,events,rfl⟩ := hx
    obtain ⟨rfl,hn,hg⟩ := hy
    exact ⟨rfl,rfl,hb,_,rfl⟩
  pause_parked := by
    intro r q name b c hx hy
    obtain ⟨hb,events,rfl⟩ := hx
    exact ⟨hb,events,rfl⟩
  cancel := by
    intro r q name b c hx hy
    obtain ⟨hb,events,rfl⟩ := hx
    exact ⟨hb,_,rfl⟩
  cancel_parked := by
    intro r q name b c hx hy
    obtain ⟨hb,events,rfl⟩ := hx
    exact ⟨hb,events,rfl⟩
  restore := by
    intro r q name b c hx hy params
    obtain ⟨hb,events,rfl⟩ := hx
    obtain ⟨rfl,rfl,hg⟩ := hy
    have hr : Replay.host.resolve b.name params (some (.ofStep b.steps))
        { r with recorded := events } =
          (some b,{ r with recorded := .resolved b.name (some b.steps) :: events }) := by
      simp only [Replay.host,Replay.resolve,hb,hg,Option.bind_some,ResumeToken.step?_ofStep,
        Option.getD_some]
      rfl
    exact ⟨b,_,hr,⟨rfl,rfl,hg⟩,hb,_,rfl⟩

end Replay

end BehaviorMachine
