import BehaviorMachine.Proofs.Run.Observation

/-!
# The calls of an iteration

Between the waits, the polls and the retirement of a behavior, an iteration has one place where it
resolves and steps. `Effort` lists all that it can do there and what it passes on
(`Iteration.works`).
-/
namespace BehaviorMachine

variable {σ β : Type}

namespace Call

/-- The call has nothing to do with behaviors. -/
def Idle : Call → Prop
  | .wait .. => True
  | .poll .. => True
  | _ => False

/-- The call neither resolves nor steps a behavior. -/
def Passive : Call → Prop
  | .resolve .. => False
  | .step .. => False
  | _ => True

def found? : Call → Option Nat
  | .resolve _ _ _ found => found
  | _ => none

theorem Idle.passive {c : Call} (hc : c.Idle) : c.Passive := by
  cases c with
  | wait => trivial
  | poll => trivial
  | _ => exact hc.elim

end Call

namespace Observed

/-- Calls with a property lead from one state to another. -/
def Grows (P : Call → Prop) (r r' : Observed σ) : Prop :=
  ∃ new, r'.calls = r.calls ++ new ∧ ∀ c ∈ new, P c

variable {P Q : Call → Prop}

theorem Grows.refl (P : Call → Prop) (r : Observed σ) : Grows P r r :=
  ⟨[],(List.append_nil _).symm,by simp⟩

theorem Grows.trans {r₁ r₂ r₃ : Observed σ} (h₁ : Grows P r₁ r₂) (h₂ : Grows P r₂ r₃) :
    Grows P r₁ r₃ := by
  obtain ⟨new₁,he₁,hp₁⟩ := h₁
  obtain ⟨new₂,he₂,hp₂⟩ := h₂
  refine ⟨new₁ ++ new₂,by rw [he₂,he₁,List.append_assoc],?_⟩
  intro c hc
  rcases List.mem_append.mp hc with hc | hc
  · exact hp₁ c hc
  · exact hp₂ c hc

theorem Grows.mono {r r' : Observed σ} (hg : Grows P r r') (hpq : ∀ c, P c → Q c) :
    Grows Q r r' := by
  obtain ⟨new,he,hp⟩ := hg
  exact ⟨new,he,fun c hc => hpq c (hp c hc)⟩

end Observed

namespace Machine

open Execution Observed

variable {h : Host σ β} {m : Machine}

theorem wait_calls {ticks : UInt32} {granted : Bool} {r r' : Observed σ}
    (hw : h.observed.wait ticks r = (granted,r')) : r'.calls = r.calls ++ [.wait ticks granted] := by
  cases hw
  rfl

theorem poll_calls {answer : Option Interrupt} {r r' : Observed σ}
    (hp : h.observed.poll r = (answer,r')) : r'.calls = r.calls ++ [.poll answer] := by
  cases hp
  rfl

/-- Only a live behavior is paused. -/
theorem pause_calls (x : Execution (Observed σ) (Nat × β)) : ∃ last,
    (x.pause h.observed).host.calls = x.host.calls ++ last ∧
      (last = [] ∨ ∃ number token, last = [.pause number token]) := by
  rcases x with ⟨r,session,_|b,changes,since⟩
  · exact ⟨[],(List.append_nil _).symm,.inl rfl⟩
  · exact ⟨_,rfl,.inr ⟨_,_,rfl⟩⟩

theorem cancel_calls (x : Execution (Observed σ) (Nat × β)) : (x.cancel h.observed).host.calls =
    x.host.calls ++ (x.active.map fun b => Call.cancel b.1).toList := by
  rcases x with ⟨r,session,_|b,changes,since⟩
  · exact (List.append_nil _).symm
  · rfl

section

variable {P : Call → Prop}

theorem wait_adds (hP : ∀ ticks granted, P (.wait ticks granted)) {ticks : UInt32} {granted : Bool}
    {r r' : Observed σ} (hw : h.observed.wait ticks r = (granted,r')) : Grows P r r' := by
  refine ⟨_,wait_calls hw,fun c hc => ?_⟩
  rw [List.mem_singleton.mp hc]
  exact hP ticks granted

theorem poll_adds (hP : ∀ answer, P (.poll answer)) {answer : Option Interrupt}
    {r r' : Observed σ} (hp : h.observed.poll r = (answer,r')) : Grows P r r' := by
  refine ⟨_,poll_calls hp,fun c hc => ?_⟩
  rw [List.mem_singleton.mp hc]
  exact hP answer

theorem pause_adds (hP : ∀ number token, P (.pause number token))
    (x : Execution (Observed σ) (Nat × β)) : Grows P x.host (x.pause h.observed).host := by
  obtain ⟨last,hc,rfl | ⟨number,token,rfl⟩⟩ := pause_calls (h := h) x
  · exact ⟨[],hc,by simp⟩
  · refine ⟨_,hc,fun c hm => ?_⟩
    rw [List.mem_singleton.mp hm]
    exact hP number token

theorem cancel_adds (hP : ∀ number, P (.cancel number)) (x : Execution (Observed σ) (Nat × β)) :
    Grows P x.host (x.cancel h.observed).host := by
  refine ⟨_,cancel_calls x,fun c hm => ?_⟩
  obtain ⟨b,-,rfl⟩ := Option.map_eq_some_iff.mp (Option.mem_toList.mp hm)
  exact hP b.1

theorem enter_adds (hP : ∀ number, P (.cancel number)) (source target : StateId)
    (cause : ChangeCause) (now : Timestamp) (x : Execution (Observed σ) (Nat × β)) :
    Grows P x.host (x.enter h.observed source target cause now).host := by
  rw [enter_eq]
  exact cancel_adds hP x

end

theorem wait_grows {ticks : UInt32} {granted : Bool} {r r' : Observed σ}
    (hw : h.observed.wait ticks r = (granted,r')) : Grows Call.Idle r r' :=
  wait_adds (fun _ _ => trivial) hw

theorem poll_grows {answer : Option Interrupt} {r r' : Observed σ}
    (hp : h.observed.poll r = (answer,r')) : Grows Call.Idle r r' :=
  poll_adds (fun _ => trivial) hp

theorem pause_grows (x : Execution (Observed σ) (Nat × β)) :
    Grows Call.Passive x.host (x.pause h.observed).host :=
  pause_adds (fun _ _ => trivial) x

theorem cancel_grows (x : Execution (Observed σ) (Nat × β)) :
    Grows Call.Passive x.host (x.cancel h.observed).host :=
  cancel_adds (fun _ => trivial) x

theorem Ready.grows {x y : Execution (Observed σ) (Nat × β)} (hy : Ready m h.observed x y) :
    Grows Call.Idle x.host y.host := by
  cases hy with
  | within hb => exact Grows.refl _ _
  | yielded hb hw => exact wait_grows hw

theorem Undisturbed.grows {s : StateSpec} {x y : Execution (Observed σ) (Nat × β)}
    (hy : Undisturbed m h.observed s x y) : Grows Call.Idle x.host y.host := by
  cases hy with
  | quiet hp => exact poll_grows hp
  | ignored hp hr => exact poll_grows hp

theorem resolve_calls {name : BehaviorName} {params : BehaviorParams} {token : Option ResumeToken}
    {b : Option (Nat × β)} {r r' : Observed σ}
    (hr : h.observed.resolve name params token r = (b,r')) :
    r'.calls = r.calls ++ [.resolve name params token (b.map Prod.fst)] := by
  simp only [Host.observed] at hr
  split at hr
  · cases hr
    rfl
  · cases hr
    rfl

/-- A step is noted with the writes of its program, which make the port values. -/
theorem advance_writes (s : StateSpec) (params : BehaviorParams) (b : Nat × β)
    (x : Execution (Observed σ) (Nat × β)) :
    let program := h.step ⟨s.id,params,x.session.ticksInState⟩ b.2 x.host.state
    ∃ result, (advance h.observed s params b x).host.calls =
        x.host.calls ++ [.step b.1 ⟨s.id,params,x.session.ticksInState⟩
          (program.writes s x.session.portValues) result] ∧
      (advance h.observed s params b x).session.portValues =
        (program.run s x.session.portValues).2 := by
  simp only [advance,Host.observed,PortProgram.run_noting]
  rcases (h.step ⟨s.id,params,x.session.ticksInState⟩ b.2 x.host.state).run s x.session.portValues
    with ⟨⟨_|_|e,b',host⟩,values⟩
  all_goals exact ⟨_,rfl,rfl⟩

theorem advance_calls (s : StateSpec) (params : BehaviorParams) (b : Nat × β)
    (x : Execution (Observed σ) (Nat × β)) : ∃ writes result,
      (advance h.observed s params b x).host.calls =
        x.host.calls ++ [.step b.1 ⟨s.id,params,x.session.ticksInState⟩ writes result] := by
  obtain ⟨result,hcalls,-⟩ := advance_writes (h := h) s params b x
  exact ⟨_,result,hcalls⟩

/-- What an iteration does with behaviors: nothing, or a resolution that is refused, or the first
step of a behavior that it resolves, or a further step of the live one. -/
inductive Effort (m : Machine) (x : Execution (Observed σ) (Nat × β)) : List Call → Prop where
  | rest : Effort m x []
  | refused {s : StateSpec} (hs : m.currentState? x.session = some s)
      (hc : x.session.subBehaviorComplete = false) (ha : x.active = none) :
      Effort m x [.resolve s.behaviorName (m.profile.effectiveParams s x.session.portValues)
        x.session.resumeToken none]
  | resolved {s : StateSpec} {k : Nat} {writes : List PortWrite} {result : StepResult}
      (hs : m.currentState? x.session = some s) (hc : x.session.subBehaviorComplete = false)
      (ha : x.active = none) :
      Effort m x [.resolve s.behaviorName (m.profile.effectiveParams s x.session.portValues)
          x.session.resumeToken (some k),
        .step k ⟨s.id,m.profile.effectiveParams s x.session.portValues,x.session.ticksInState⟩
          writes result]
  | stepped {s : StateSpec} {k : Nat} {b : β} {writes : List PortWrite} {result : StepResult}
      (hs : m.currentState? x.session = some s) (hc : x.session.subBehaviorComplete = false)
      (ha : x.active = some (k,b)) :
      Effort m x [.step k
        ⟨s.id,m.profile.effectiveParams s x.session.portValues,x.session.ticksInState⟩ writes result]

theorem Effort.eq_nil {x : Execution (Observed σ) (Nat × β)} {calls : List Call}
    (he : Effort m x calls) (hc : x.session.subBehaviorComplete = true) : calls = [] := by
  cases he with
  | rest => rfl
  | refused hs hf ha => rw [hc] at hf; cases hf
  | resolved hs hf ha => rw [hc] at hf; cases hf
  | stepped hs hf ha => rw [hc] at hf; cases hf

theorem Driven.effort {s : StateSpec} {x y : Execution (Observed σ) (Nat × β)} {ticks : UInt32}
    (hs : m.currentState? x.session = some s) (hd : Driven m h.observed s x ticks y) :
    ∃ calls, y.host.calls = x.host.calls ++ calls ∧ Effort m x calls := by
  cases hd with
  | completed hc => exact ⟨[],(List.append_nil _).symm,.rest⟩
  | unresolved hc ha hr =>
    exact ⟨_,resolve_calls hr,.refused hs hc ha⟩
  | @resolved b host hc ha hr =>
    obtain ⟨writes,result,he⟩ := advance_calls (h := h) s
      (m.profile.effectiveParams s x.session.portValues) b
      { x with host, session := { x.session with resumeToken := none } }
    refine ⟨[.resolve _ _ _ (some b.1),.step b.1 _ writes result],?_,.resolved hs hc ha⟩
    rw [he,resolve_calls hr]
    simp only [List.append_assoc,List.singleton_append,Option.map_some]
  | @live b hc ha =>
    obtain ⟨writes,result,he⟩ := advance_calls (h := h) s
      (m.profile.effectiveParams s x.session.portValues) b x
    exact ⟨_,he,.stepped (b := b.2) hs hc ha⟩

/-- The call drives the behavior of a state, with the parameters that are effective there. -/
inductive IsDrive (p : Profile) (s : StateSpec) (values : PortValues) : Call → Prop where
  | resolve (token : Option ResumeToken) (found : Option Nat) :
      IsDrive p s values (.resolve s.behaviorName (p.effectiveParams s values) token found)
  | step (number : Nat) (ticks : UInt64) (writes : List PortWrite) (result : StepResult) :
      IsDrive p s values (.step number ⟨s.id,p.effectiveParams s values,ticks⟩ writes result)

theorem Effort.isDrive {x : Execution (Observed σ) (Nat × β)} {calls : List Call} {c : Call}
    (he : Effort m x calls) (hm : c ∈ calls) : ∃ s, m.currentState? x.session = some s ∧
      IsDrive m.profile s x.session.portValues c := by
  cases he with
  | rest => cases hm
  | refused hs hc ha =>
    obtain rfl := List.mem_singleton.mp hm
    exact ⟨_,hs,.resolve _ _⟩
  | resolved hs hc ha =>
    rcases List.mem_cons.mp hm with rfl | hm
    · exact ⟨_,hs,.resolve _ _⟩
    · obtain rfl := List.mem_singleton.mp hm
      exact ⟨_,hs,.step ..⟩
  | stepped hs hc ha =>
    obtain rfl := List.mem_singleton.mp hm
    exact ⟨_,hs,.step ..⟩

theorem Driven.adds {P : Call → Prop} {s : StateSpec} {x y : Execution (Observed σ) (Nat × β)}
    {ticks : UInt32} (hP : ∀ s values c, IsDrive m.profile s values c → P c)
    (hs : m.currentState? x.session = some s) (hd : Driven m h.observed s x ticks y) :
    Grows P x.host y.host := by
  obtain ⟨calls,hc,he⟩ := hd.effort hs
  refine ⟨calls,hc,fun c hm => ?_⟩
  obtain ⟨s,-,hdrive⟩ := he.isDrive hm
  exact hP s _ c hdrive

theorem Effort.congr {x y : Execution (Observed σ) (Nat × β)} {calls : List Call}
    (he : Effort m x calls) (hs : x.session = y.session) (ha : x.active = y.active) :
    Effort m y calls := by
  rcases x with ⟨host,session,active,changes,since⟩
  obtain rfl : session = y.session := hs
  obtain rfl : active = y.active := ha
  cases he with
  | rest => exact .rest
  | refused hs hc ha => exact .refused hs hc ha
  | resolved hs hc ha => exact .resolved hs hc ha
  | stepped hs hc ha => exact .stepped hs hc ha

/-- An effort of an execution, between passive calls, leads its host to a state. -/
def Works (m : Machine) (x : Execution (Observed σ) (Nat × β)) (r : Observed σ) : Prop :=
  ∃ first effort last, r.calls = x.host.calls ++ (first ++ (effort ++ last)) ∧
    (∀ c ∈ first, c.Passive) ∧ Effort m x effort ∧ ∀ c ∈ last, c.Passive

/-- The calls of an iteration are passive, up to those of one drive in the current state at most. -/
inductive Drives (m : Machine) (h : Host σ β) (x y : Execution (Observed σ) (Nat × β)) : Prop where
  | none (hg : Grows Call.Passive x.host y.host)
      (hv : y.session.portValues = x.session.portValues)
  | once {s : StateSpec} {z w : Execution (Observed σ) (Nat × β)} {ticks : UInt32}
      (hs : m.currentState? x.session = some s) (hz : z.session = x.session)
      (ha : z.active = x.active) (hf : Grows Call.Passive x.host z.host)
      (hd : Driven m h.observed s z ticks w) (hl : Grows Call.Passive w.host y.host)
      (hv : y.session.portValues = w.session.portValues)

theorem Iteration.drives {x y : Execution (Observed σ) (Nat × β)} {flow : Flow}
    (hi : Iteration m h.observed x flow y) : Drives m h x y := by
  have hidle {r r' : Observed σ} (hg : Grows Call.Idle r r') : Grows Call.Passive r r' :=
    hg.mono fun _ => Call.Idle.passive
  cases hi with
  | idle hs => exact .none (.refl _ _) rfl
  | terminated hs hr => exact .none (.refl _ _) rfl
  | yieldDenied hs hb hw =>
    refine .none ((hidle (wait_grows hw)).trans (pause_grows _)) ?_
    rw [pause_frame]
  | redirected hs hy hp hr =>
    refine .none ((hidle (hy.grows.trans (poll_grows hp))).trans (cancel_grows _)) ?_
    rw [enter_session,hy.frame]
    rfl
  | interrupted hs hy hp hr =>
    refine .none ((hidle (hy.grows.trans (poll_grows hp))).trans (pause_grows _)) ?_
    rw [pause_frame,hy.frame]
  | fired hs hy hz ht =>
    refine .none ((hidle (hy.grows.trans hz.grows)).trans (cancel_grows _)) ?_
    rw [enter_session,hz.frame,hy.frame]
    rfl
  | denied hs hy hz ht hd hw =>
    refine .once hs ?_ ?_ (hidle (hy.grows.trans hz.grows)) hd
      ((hidle (wait_grows hw)).trans (pause_grows _)) ?_
    · rw [hz.frame,hy.frame]
    · rw [hz.frame,hy.frame]
    · rw [pause_frame]
  | continued hs hy hz ht hd hw =>
    refine .once hs ?_ ?_ (hidle (hy.grows.trans hz.grows)) hd (hidle (wait_grows hw)) rfl
    · rw [hz.frame,hy.frame]
    · rw [hz.frame,hy.frame]

/-- An iteration makes one effort, and its other calls are passive. -/
theorem Iteration.works {x y : Execution (Observed σ) (Nat × β)} {flow : Flow}
    (hi : Iteration m h.observed x flow y) : m.Works x y.host := by
  cases hi.drives with
  | none hg hv =>
    obtain ⟨new,he,hp⟩ := hg
    exact ⟨new,[],[],by simpa using he,hp,.rest,by simp⟩
  | once hs hz ha hf hd hl hv =>
    obtain ⟨first,hf,hfp⟩ := hf
    obtain ⟨effort,he,hep⟩ := hd.effort (by rw [hz]; exact hs)
    obtain ⟨last,hl,hlp⟩ := hl
    exact ⟨first,effort,last,by simp only [hl,he,hf,List.append_assoc],hfp,hep.congr hz ha,hlp⟩

theorem Works.grows {x : Execution (Observed σ) (Nat × β)} {r : Observed σ} (hw : m.Works x r) :
    Grows (fun c => c.Passive ∨ ∃ s, m.currentState? x.session = some s ∧
      IsDrive m.profile s x.session.portValues c) x.host r := by
  obtain ⟨first,effort,last,hcalls,hf,he,hl⟩ := hw
  refine ⟨_,hcalls,fun c hc => ?_⟩
  rcases List.mem_append.mp hc with hc | hc
  · exact .inl (hf c hc)
  rcases List.mem_append.mp hc with hc | hc
  · exact .inr (he.isDrive hc)
  · exact .inl (hl c hc)

theorem Works.passive {x : Execution (Observed σ) (Nat × β)} {r : Observed σ} (hw : m.Works x r)
    (hc : x.session.subBehaviorComplete = true) : Grows Call.Passive x.host r := by
  obtain ⟨first,effort,last,he,hf,hw,hl⟩ := hw
  obtain rfl := hw.eq_nil hc
  refine ⟨first ++ last,by simpa using he,?_⟩
  intro c hc
  rcases List.mem_append.mp hc with hc | hc
  · exact hf c hc
  · exact hl c hc

end Machine

end BehaviorMachine
