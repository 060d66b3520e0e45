import BehaviorMachine.Proofs.Host.Schedule
import BehaviorMachine.Proofs.Run.Interrupts
import BehaviorMachine.Run.Simulation

/-!
# Ignored interrupts

A run goes as if the polls that deliver ignored interrupts had found nothing (`run_muted`). It goes
as if they had not been scheduled either, unless one of them is polled while an interrupt of another
kind is pending: that one then has to wait for the next iteration (`run_disregards`).
-/
namespace BehaviorMachine

variable {σ β : Type}

def Host.muted (h : Host σ β) (kinds : InterruptType → Bool) : Host σ β :=
  { h with
    poll := fun r =>
      let (answer,r) := h.poll r
      (answer.filter fun i => !kinds i.type,r) }

def HostScript.keeping (script : HostScript) (keep : ScheduledInterrupt → Bool) : HostScript :=
  { script with interrupts := script.interrupts.filter keep }

/-- What is reported of a run on a script, with a clock that starts at some time. -/
def Machine.report (m : Machine) (script : HostScript) (session : Option SessionState)
    (startMs : UInt64) : Option SimulationReport :=
  (m.run Replay.host session ((Replay.start script).startingAt startMs)).map fun r =>
    ⟨r.1,r.2.tick,r.2.events⟩

def Profile.Disregards (p : Profile) (kinds : InterruptType → Bool) : Prop :=
  ∀ s ∈ p.states, ∀ type, kinds type = true → s.disregards type = true

namespace Machine

open Execution

variable {m : Machine} {h : Host σ β} {kinds : InterruptType → Bool} {s : StateSpec}

theorem reaction_ignore {session : SessionState} {type : InterruptType}
    (hk : m.profile.Disregards kinds) (hs : m.currentState? session = some s)
    (ht : kinds type = true) : m.profile.reaction s type = .ignore := by
  apply Profile.reaction_ignore_iff.mpr
  exact hk s (List.mem_of_find?_eq_some (currentState?_some hs).2) type ht

theorem other_kind {session : SessionState} {type : InterruptType}
    (hk : m.profile.Disregards kinds) (hs : m.currentState? session = some s)
    (hr : m.profile.reaction s type ≠ .ignore) : kinds type = false := by
  apply Bool.eq_false_iff.mpr
  intro ht
  exact hr (reaction_ignore hk hs ht)

section

variable {x y : Execution σ β} {flow : Flow}

theorem Ready.muted (hy : Ready m h x y) : Ready m (h.muted kinds) x y := by
  cases hy with
  | within hb => exact .within hb
  | yielded hb hw => exact .yielded hb hw

theorem Undisturbed.muted (hy : Undisturbed m h s x y) : Undisturbed m (h.muted kinds) s x y := by
  cases hy with
  | quiet hp => exact .quiet (by simp only [Host.muted,hp,Option.filter_none])
  | @ignored i host hp hr =>
    cases hi : kinds i.type with
    | true => exact .quiet (by simp [Host.muted,hp,hi])
    | false => exact .ignored (by simp [Host.muted,hp,hi]) hr

theorem Driven.muted {ticks : UInt32} (hd : Driven m h s x ticks y) :
    Driven m (h.muted kinds) s x ticks y := by
  cases hd with
  | completed hc => exact .completed hc
  | unresolved hc ha hr => exact .unresolved hc ha hr
  | resolved hc ha hr => exact .resolved (h := h.muted kinds) hc ha hr
  | live hc ha => exact .live (h := h.muted kinds) hc ha

theorem Iteration.muted (hk : m.profile.Disregards kinds) (hi : Iteration m h x flow y) :
    Iteration m (h.muted kinds) x flow y := by
  have hpolled {s : StateSpec} {i : Interrupt} {r host : σ} (hs : m.currentState? x.session = some s)
      (hp : h.poll r = (some i,host)) (hr : m.profile.reaction s i.type ≠ .ignore) :
      (h.muted kinds).poll r = (some i,host) := by
    simp [Host.muted,hp,other_kind hk hs hr]
  cases hi with
  | idle hs => exact .idle hs
  | terminated hs hr => exact .terminated hs hr
  | yieldDenied hs hb hw => exact .yieldDenied (h := h.muted kinds) hs hb hw
  | redirected hs hy hp hr =>
    exact .redirected (h := h.muted kinds) hs hy.muted (hpolled hs hp (by simp [hr])) hr
  | interrupted hs hy hp hr =>
    exact .interrupted (h := h.muted kinds) hs hy.muted (hpolled hs hp (by simp [hr])) hr
  | fired hs hy hz ht => exact .fired (h := h.muted kinds) hs hy.muted hz.muted ht
  | denied hs hy hz ht hd hw => exact .denied (h := h.muted kinds) hs hy.muted hz.muted ht hd.muted hw
  | continued hs hy hz ht hd hw =>
    exact .continued (h := h.muted kinds) hs hy.muted hz.muted ht hd.muted hw

/-- An ignored interrupt has the effect of a poll that finds nothing. -/
theorem run_muted (hk : m.profile.Disregards kinds) (session : Option SessionState) (host : σ) :
    m.run (h.muted kinds) session host = m.run h session host := by
  have hb : m.begin (h.muted kinds) session host = m.begin h session host := by
    cases session <;> rfl
  rw [run,run,hb,← Option.map_id_apply (x := m.loop h _)]
  refine loop_map (f := id) (g := id) ?_ ?_ _
  · intro x
    exact ((step_iteration m h x).muted hk).step_eq
  · intro x status
    rfl

end

end Machine

/-- A queue of interrupts, in the order of their ticks, without some that are of the given kinds. -/
structure Thinned (kinds : InterruptType → Bool) (queue thin : List ScheduledInterrupt) : Prop where
  inOrder : queue.Pairwise fun i j => i.atTick ≤ j.atTick
  sublist : thin.Sublist queue
  others : thin.filter (fun i => !kinds i.type) = queue.filter (fun i => !kinds i.type)

namespace Thinned

variable {kinds : InterruptType → Bool} {i : ScheduledInterrupt}
  {queue thin : List ScheduledInterrupt}

theorem of_other (ht : Thinned kinds (i :: queue) thin) (hi : kinds i.type = false) :
    ∃ rest, thin = i :: rest ∧ Thinned kinds queue rest := by
  have ho := ht.others
  rw [List.filter_cons_of_pos (by simp [hi])] at ho
  cases ht.sublist with
  | cons _ hs =>
    have hlength := (hs.filter fun i => !kinds i.type).length_le
    rw [ho,List.length_cons] at hlength
    exact absurd hlength (Nat.not_succ_le_self _)
  | @cons_cons rest _ _ hs =>
    rw [List.filter_cons_of_pos (by simp [hi])] at ho
    exact ⟨rest,rfl,(List.pairwise_cons.mp ht.inOrder).2,hs,List.tail_eq_of_cons_eq ho⟩

theorem of_kind (ht : Thinned kinds (i :: queue) thin) (hi : kinds i.type = true)
    (hn : thin.head? ≠ some i) : Thinned kinds queue thin := by
  have ho := ht.others
  rw [List.filter_cons_of_neg (by simp [hi])] at ho
  cases ht.sublist with
  | cons _ hs => exact ⟨(List.pairwise_cons.mp ht.inOrder).2,hs,ho⟩
  | cons_cons _ hs => exact absurd rfl hn

theorem tail {j : ScheduledInterrupt} (ht : Thinned kinds (i :: queue) (j :: thin))
    (hi : kinds i.type = true) (hj : kinds j.type = true) : Thinned kinds queue thin := by
  have ho := ht.others
  rw [List.filter_cons_of_neg (a := j) (by simp [hj]),
    List.filter_cons_of_neg (a := i) (by simp [hi])] at ho
  exact ⟨(List.pairwise_cons.mp ht.inOrder).2,ht.sublist.tail,ho⟩

end Thinned

namespace Replay

variable {kinds : InterruptType → Bool} {thin : List ScheduledInterrupt}

/-- The same state with other interrupts to come. -/
def scheduling (r : Replay) (interrupts : List ScheduledInterrupt) : Replay :=
  { r with interrupts }

/-- No interrupt of another kind is pending. -/
def Sole (r : Replay) (kinds : InterruptType → Bool) : Prop :=
  ∀ i ∈ r.interrupts, kinds i.type = false → r.tick < i.atTick

theorem poll_cons {r : Replay} {i : ScheduledInterrupt} {rest : List ScheduledInterrupt}
    (hr : r.interrupts = i :: rest) :
    r.poll = if i.atTick ≤ r.tick then (some ⟨i.type⟩,r.scheduling rest) else (none,r) := by
  rw [poll,hr]
  rfl

theorem mem_interrupts {r r' : Replay} {i : Interrupt} (hp : r.poll = (some i,r')) :
    ∃ j ∈ r.interrupts, j.type = i.type := by
  cases hq : r.interrupts with
  | nil =>
    rw [poll_early (by simp [hq])] at hp
    cases hp
  | cons j rest =>
    rw [poll_cons hq] at hp
    split at hp
    · cases hp
      exact ⟨j,List.mem_cons_self,rfl⟩
    · cases hp

theorem poll_thinned_early {r : Replay} {i : ScheduledInterrupt} {queue : List ScheduledInterrupt}
    (hq : r.interrupts = i :: queue) (ht : Thinned kinds r.interrupts thin)
    (hn : ¬ i.atTick ≤ r.tick) : (r.scheduling thin).poll = (none,r.scheduling thin) := by
  have ho := ht.inOrder
  rw [hq] at ho
  have hearly : ∀ j ∈ r.interrupts, r.tick < j.atTick := by
    intro j hj
    rw [hq] at hj
    have hi : r.tick < i.atTick := UInt64.not_le.mp hn
    rcases List.mem_cons.mp hj with rfl | hj
    · exact hi
    · exact UInt64.lt_of_lt_of_le hi ((List.pairwise_cons.mp ho).1 j hj)
  apply poll_early
  intro j hj
  exact hearly j (ht.sublist.subset hj)

theorem poll_thinned_kind {r : Replay} {i : ScheduledInterrupt} {queue : List ScheduledInterrupt}
    (hq : r.interrupts = i :: queue) (ht : Thinned kinds (i :: queue) thin)
    (hdue : i.atTick ≤ r.tick) (hi : kinds i.type = true) (hs : r.Sole kinds) :
    ∃ rest answer, (r.scheduling thin).poll = (answer,r.scheduling rest) ∧
      Thinned kinds queue rest ∧ answer.filter (fun i => !kinds i.type) = none := by
  cases thin with
  | nil => exact ⟨[],none,poll_early (by simp [scheduling]),ht.of_kind hi (by simp),rfl⟩
  | cons j rest =>
    have hpoll := poll_cons (r := r.scheduling (j :: rest)) rfl
    have hj : j ∈ r.interrupts := hq ▸ ht.sublist.subset List.mem_cons_self
    by_cases hdue' : j.atTick ≤ r.tick
    · have hkind : kinds j.type = true := by
        by_contra hn
        exact absurd (hs j hj (by simpa using hn)) (UInt64.not_lt.mpr hdue')
      refine ⟨rest,some ⟨j.type⟩,hpoll.trans (if_pos hdue'),ht.tail hi hkind,?_⟩
      simp [Option.filter_some,hkind]
    · refine ⟨j :: rest,none,hpoll.trans (if_neg hdue'),?_,rfl⟩
      apply ht.of_kind hi
      intro he
      obtain rfl := Option.some.inj he
      exact hdue' hdue

/-- Without ignored interrupts a poll is answered as before, if what it delivers has not kept another
interrupt waiting. Only the ignored ones make a difference. -/
theorem poll_thinned {r r' : Replay} {answer : Option Interrupt}
    (ht : Thinned kinds r.interrupts thin)
    (hs : (∃ i ∈ answer, kinds i.type = true) → r.Sole kinds) (hp : r.poll = (answer,r')) :
    ∃ rest answer', (r.scheduling thin).poll = (answer',r'.scheduling rest) ∧
      Thinned kinds r'.interrupts rest ∧
      answer'.filter (fun i => !kinds i.type) = answer.filter (fun i => !kinds i.type) := by
  cases hq : r.interrupts with
  | nil =>
    rw [poll,hq] at hp
    cases hp
    rw [hq] at ht
    obtain rfl := List.sublist_nil.mp ht.sublist
    exact ⟨[],none,poll_early (by simp [scheduling]),hq ▸ ht,rfl⟩
  | cons i queue =>
    rw [poll_cons hq] at hp
    by_cases hdue : i.atTick ≤ r.tick
    · rw [if_pos hdue] at hp
      cases hp
      rw [hq] at ht
      cases hi : kinds i.type with
      | false =>
        obtain ⟨rest,rfl,hrest⟩ := ht.of_other hi
        refine ⟨rest,some ⟨i.type⟩,?_,hrest,rfl⟩
        exact (poll_cons (r := r.scheduling (i :: rest)) rfl).trans (if_pos hdue)
      | true =>
        obtain ⟨rest,answer,hpoll,hrest,hanswer⟩ :=
          poll_thinned_kind hq ht hdue hi (hs ⟨⟨i.type⟩,rfl,hi⟩)
        refine ⟨rest,answer,hpoll,hrest,hanswer.trans ?_⟩
        simp [Option.filter_some,hi]
    · rw [if_neg hdue] at hp
      cases hp
      exact ⟨thin,none,poll_thinned_early hq ht hdue,ht,rfl⟩

theorem wait_scheduling {ticks : UInt32} {r r' : Replay} {granted : Bool}
    (hw : r.wait ticks = (granted,r')) (queue : List ScheduledInterrupt) :
    (r.scheduling queue).wait ticks = (granted,r'.scheduling queue) ∧
      r'.interrupts = r.interrupts := by
  by_cases hm : r.maxTicks < addSaturating r.tick ticks.toUInt64
  · simp only [wait,hm,if_true] at hw
    cases hw
    simp only [wait,scheduling,hm,if_true,and_self]
  · simp only [wait,hm,if_false] at hw
    cases hw
    simp only [wait,scheduling,hm,if_false]
    exact ⟨rfl,rfl⟩

theorem resolve_scheduling {name : BehaviorName} {token : Option ResumeToken} {r r' : Replay}
    {b : Option ScriptedBehavior} (hr : r.resolve name token = (b,r'))
    (queue : List ScheduledInterrupt) :
    (r.scheduling queue).resolve name token = (b,r'.scheduling queue) ∧
      r'.interrupts = r.interrupts := by
  rw [resolve] at hr
  simp only [resolve,scheduling]
  cases hg : r.behaviors.get? name.text with
  | none =>
    simp only [hg] at hr
    cases hr
    exact ⟨rfl,rfl⟩
  | some script =>
    simp only [hg] at hr
    cases hr
    exact ⟨rfl,rfl⟩

theorem step_scheduling (context : StepContext) (b : ScriptedBehavior) (r : Replay)
    (queue : List ScheduledInterrupt) : Replay.step context b (r.scheduling queue) =
      (Replay.step context b r).map fun (result,b,r) => (result,b,r.scheduling queue) := by
  simp only [Replay.step]
  cases b.script.requiredParams.find? fun name => (context.params.get? name).isNone with
  | some missing => rfl
  | none =>
    dsimp only
    rw [PortProgram.map_writing]
    rfl

end Replay

namespace Execution

variable {β : Type} (x : Execution Replay β) (queue : List ScheduledInterrupt)

def scheduling : Execution Replay β := { x with host := x.host.scheduling queue }

end Execution

namespace Machine

open Execution

variable {m : Machine} {kinds : InterruptType → Bool} {s : StateSpec} {flow : Flow}
  {x x' y z : Execution Replay ScriptedBehavior}

theorem pause_scheduling (x : Execution Replay ScriptedBehavior) (queue : List ScheduledInterrupt) :
    (x.scheduling queue).pause Replay.host = (x.pause Replay.host).scheduling queue := by
  rcases x with ⟨host,session,_|b,changes,since⟩ <;> rfl

theorem enter_scheduling (source target : StateId) (cause : ChangeCause) (now : Timestamp)
    (x : Execution Replay ScriptedBehavior) (queue : List ScheduledInterrupt) :
    (x.scheduling queue).enter Replay.host source target cause now =
      (x.enter Replay.host source target cause now).scheduling queue := by
  rcases x with ⟨host,session,_|b,changes,since⟩ <;> rfl

theorem advance_scheduling (params : BehaviorParams) (b : ScriptedBehavior)
    (x : Execution Replay ScriptedBehavior) (queue : List ScheduledInterrupt) :
    advance Replay.host s params b (x.scheduling queue) =
      (advance Replay.host s params b x).scheduling queue := by
  have hrun := PortProgram.run_map
    (fun (result,b,r) => ((result,b,r.scheduling queue) : StepResult × ScriptedBehavior × Replay)) s
    (Replay.step ⟨s.id,params,x.session.ticksInState⟩ b x.host) x.session.portValues
  rw [← Replay.step_scheduling] at hrun
  simp only [advance,Replay.host,Execution.scheduling,hrun]
  rcases (Replay.step ⟨s.id,params,x.session.ticksInState⟩ b x.host).run s x.session.portValues
    with ⟨⟨_|_|e,b',host⟩,values⟩ <;> rfl

theorem pause_interrupts (x : Execution Replay ScriptedBehavior) :
    (x.pause Replay.host).host.interrupts = x.host.interrupts := by
  rcases x with ⟨host,session,_|b,changes,since⟩ <;> rfl

theorem enter_interrupts (source target : StateId) (cause : ChangeCause) (now : Timestamp)
    (x : Execution Replay ScriptedBehavior) :
    (x.enter Replay.host source target cause now).host.interrupts = x.host.interrupts := by
  rcases x with ⟨host,session,_|b,changes,since⟩ <;> rfl

theorem advance_interrupts (params : BehaviorParams) (b : ScriptedBehavior)
    (x : Execution Replay ScriptedBehavior) :
    (advance Replay.host s params b x).host.interrupts = x.host.interrupts := by
  have hrun := congrArg (fun r => r.2.2.interrupts) (Replay.run_step
    ⟨s.id,params,x.session.ticksInState⟩ b x.host s x.session.portValues)
  rw [advance]
  rcases hs : (Replay.step ⟨s.id,params,x.session.ticksInState⟩ b x.host).run s x.session.portValues
    with ⟨⟨_|_|e,b',host⟩,values⟩
  all_goals
    rw [hs] at hrun
    simp only [Replay.host,hs]
    exact hrun

theorem Ready.scheduling (hy : Ready m Replay.host x y) (queue : List ScheduledInterrupt) :
    Ready m Replay.host (x.scheduling queue) (y.scheduling queue) ∧
      y.host.interrupts = x.host.interrupts := by
  cases hy with
  | within hb => exact ⟨.within hb,rfl⟩
  | @yielded host hb hw =>
    obtain ⟨hw,hi⟩ := Replay.wait_scheduling hw queue
    exact ⟨.yielded (x := x.scheduling queue) hb hw,hi⟩

theorem Driven.scheduling {ticks : UInt32} (hd : Driven m Replay.host s x ticks y)
    (queue : List ScheduledInterrupt) :
    Driven m Replay.host s (x.scheduling queue) ticks (y.scheduling queue) ∧
      y.host.interrupts = x.host.interrupts := by
  cases hd with
  | completed hc => exact ⟨.completed hc,rfl⟩
  | unresolved hc ha hr =>
    obtain ⟨hr,hi⟩ := Replay.resolve_scheduling hr queue
    exact ⟨.unresolved (x := x.scheduling queue) hc ha hr,hi⟩
  | resolved hc ha hr =>
    obtain ⟨hr,hi⟩ := Replay.resolve_scheduling hr queue
    rw [← advance_scheduling,advance_interrupts]
    exact ⟨.resolved (x := x.scheduling queue) hc ha hr,hi⟩
  | live hc ha =>
    rw [← advance_scheduling,advance_interrupts]
    exact ⟨.live (x := x.scheduling queue) hc ha,rfl⟩

/-- No interrupt of the kinds is polled while one of another kind is pending. Without a state nothing is
polled. -/
def Apart (m : Machine) (kinds : InterruptType → Bool) (x : Execution Replay ScriptedBehavior) :
    Prop :=
  (m.currentState? x.session).isSome → ∀ y i host, Ready m Replay.host x y →
    y.host.poll = (some i,host) → kinds i.type = true → y.host.Sole kinds

/-- The second execution is the first without some interrupts of the kinds. -/
structure Beside (kinds : InterruptType → Bool) (x x' : Execution Replay ScriptedBehavior) :
    Prop where
  same : x' = x.scheduling x'.host.interrupts
  thinned : Thinned kinds x.host.interrupts x'.host.interrupts

theorem beside_scheduling {thin : List ScheduledInterrupt}
    (ht : Thinned kinds x.host.interrupts thin) : Beside kinds x (x.scheduling thin) :=
  ⟨rfl,ht⟩

theorem Beside.pause (hb : Beside kinds x x') :
    Beside kinds (x.pause Replay.host) (x'.pause Replay.host) := by
  rw [hb.same,pause_scheduling]
  apply beside_scheduling
  rw [pause_interrupts]
  exact hb.thinned

theorem Beside.enter (hb : Beside kinds x x') (source target : StateId) (cause : ChangeCause)
    (now : Timestamp) : Beside kinds (x.enter Replay.host source target cause now)
      (x'.enter Replay.host source target cause now) := by
  rw [hb.same,enter_scheduling]
  apply beside_scheduling
  rw [enter_interrupts]
  exact hb.thinned

theorem Undisturbed.beside (hk : m.profile.Disregards kinds)
    (hs : m.currentState? y.session = some s) (hz : Undisturbed m Replay.host s y z)
    {thin : List ScheduledInterrupt} (ht : Thinned kinds y.host.interrupts thin)
    (hsole : ∀ i host, y.host.poll = (some i,host) → kinds i.type = true → y.host.Sole kinds) :
    ∃ rest, Undisturbed m Replay.host s (y.scheduling thin) (z.scheduling rest) ∧
      Thinned kinds z.host.interrupts rest := by
  -- what is polled instead is ignored as well
  have hpoll {host : Replay} {answer : Option Interrupt} (hp : y.host.poll = (answer,host))
      (hr : ∀ i ∈ answer, m.profile.reaction s i.type = .ignore) :
      ∃ rest, Undisturbed m Replay.host s (y.scheduling thin)
        { y with host := host.scheduling rest } ∧ Thinned kinds host.interrupts rest := by
    obtain ⟨rest,answer',hp',hrest,ha⟩ := Replay.poll_thinned ht
      (fun ⟨i,hi,hkind⟩ => hsole i host (by rw [hp,Option.mem_def.mp hi]) hkind) hp
    refine ⟨rest,?_,hrest⟩
    cases answer' with
    | none => exact .quiet (x := y.scheduling thin) hp'
    | some i =>
      refine .ignored (x := y.scheduling thin) hp' ?_
      cases hkind : kinds i.type with
      | true => exact reaction_ignore hk hs hkind
      | false =>
        have hmem : i ∈ answer.filter fun i => !kinds i.type := by
          rw [← ha]
          simp [Option.filter_some,hkind]
        exact hr i (Option.mem_filter_iff.mp hmem).1
  cases hz with
  | quiet hp =>
    obtain ⟨rest,hu,hrest⟩ := hpoll hp (by simp)
    exact ⟨rest,hu,hrest⟩
  | ignored hp hr =>
    obtain ⟨rest,hu,hrest⟩ := hpoll hp (by simpa using hr)
    exact ⟨rest,hu,hrest⟩

theorem poll_beside {i : Interrupt} {r host : Replay} {thin : List ScheduledInterrupt}
    (ht : Thinned kinds r.interrupts thin) (hp : r.poll = (some i,host))
    (hi : kinds i.type = false) : ∃ rest, (r.scheduling thin).poll = (some i,host.scheduling rest) ∧
      Thinned kinds host.interrupts rest := by
  obtain ⟨rest,answer,hp',hrest,ha⟩ := Replay.poll_thinned ht (by simp [hi]) hp
  refine ⟨rest,?_,hrest⟩
  have hanswer : answer = some i := by
    have hmem : i ∈ answer.filter fun i => !kinds i.type := by
      rw [ha]
      simp [Option.filter_some,hi]
    exact (Option.mem_filter_iff.mp hmem).1
  rw [← hanswer]
  exact hp'

/-- Without the interrupts the iteration ends in the same way. -/
theorem Iteration.beside (hk : m.profile.Disregards kinds) (ha : Apart m kinds x)
    (hb : Beside kinds x x') (hi : Iteration m Replay.host x flow y) :
    ∃ y', Iteration m Replay.host x' flow y' ∧ Beside kinds y y' := by
  rw [hb.same]
  have ht := hb.thinned
  generalize x'.host.interrupts = thin at ht ⊢
  have hcalm {s : StateSpec} {y z : Execution Replay ScriptedBehavior}
      (hs : m.currentState? x.session = some s) (hy : Ready m Replay.host x y)
      (hz : Undisturbed m Replay.host s y z) :
      ∃ rest, Undisturbed m Replay.host s (y.scheduling thin) (z.scheduling rest) ∧
        Thinned kinds z.host.interrupts rest := by
    have hs' : m.currentState? y.session = some s := by
      rw [hy.frame]
      exact hs
    have hcurrent : (m.currentState? x.session).isSome := by rw [hs]; rfl
    exact hz.beside hk hs' ((hy.scheduling thin).2 ▸ ht) fun i host hp =>
      ha hcurrent y i host hy hp
  cases hi with
  | idle hs => exact ⟨_,.idle (x := x.scheduling thin) hs,beside_scheduling ht⟩
  | terminated hs hr => exact ⟨_,.terminated (x := x.scheduling thin) hs hr,beside_scheduling ht⟩
  | yieldDenied hs hb hw =>
    obtain ⟨hw,hsame⟩ := Replay.wait_scheduling hw thin
    refine ⟨_,.yieldDenied (x := x.scheduling thin) hs hb hw,?_⟩
    exact Beside.pause ⟨rfl,hsame ▸ ht⟩
  | redirected hs hy hp hr =>
    obtain ⟨hy,hsame⟩ := hy.scheduling thin
    obtain ⟨rest,hp,hrest⟩ := poll_beside (hsame ▸ ht) hp (other_kind hk hs (by simp [hr]))
    refine ⟨_,.redirected (x := x.scheduling thin) hs hy hp hr,?_⟩
    exact Beside.enter ⟨rfl,hrest⟩ _ _ _ _
  | interrupted hs hy hp hr =>
    obtain ⟨hy,hsame⟩ := hy.scheduling thin
    obtain ⟨rest,hp,hrest⟩ := poll_beside (hsame ▸ ht) hp (other_kind hk hs (by simp [hr]))
    refine ⟨_,.interrupted (x := x.scheduling thin) hs hy hp hr,?_⟩
    exact Beside.pause ⟨rfl,hrest⟩
  | fired hs hy hz ht =>
    obtain ⟨rest,hz,hrest⟩ := hcalm hs hy hz
    refine ⟨_,.fired (x := x.scheduling thin) hs (hy.scheduling thin).1 hz ht,?_⟩
    exact (beside_scheduling hrest).enter _ _ _ _
  | denied hs hy hz ht hd hw =>
    obtain ⟨rest,hz,hrest⟩ := hcalm hs hy hz
    obtain ⟨hd,hdriven⟩ := hd.scheduling rest
    obtain ⟨hw,hwaited⟩ := Replay.wait_scheduling hw rest
    refine ⟨_,.denied (x := x.scheduling thin) hs (hy.scheduling thin).1 hz ht hd hw,?_⟩
    exact Beside.pause ⟨rfl,hwaited ▸ hdriven ▸ hrest⟩
  | continued hs hy hz ht hd hw =>
    obtain ⟨rest,hz,hrest⟩ := hcalm hs hy hz
    obtain ⟨hd,hdriven⟩ := hd.scheduling rest
    obtain ⟨hw,hwaited⟩ := Replay.wait_scheduling hw rest
    refine ⟨_,.continued (x := x.scheduling thin) hs (hy.scheduling thin).1 hz ht hd hw,?_⟩
    exact ⟨rfl,hwaited ▸ hdriven ▸ hrest⟩

theorem begin_beside (script : HostScript) (session : Option SessionState) (startMs : UInt64)
    {keep : ScheduledInterrupt → Bool}
    (hkeep : ∀ i ∈ script.interrupts, kinds i.type = false → keep i = true) :
    Beside kinds (m.begin Replay.host session ((Replay.start script).startingAt startMs))
      (m.begin Replay.host session
        ((Replay.start (script.keeping keep)).startingAt startMs)) := by
  have hsort : (m.begin Replay.host session
      ((Replay.start (script.keeping keep)).startingAt startMs)).host.interrupts =
        (m.begin Replay.host session
          ((Replay.start script).startingAt startMs)).host.interrupts.filter keep :=
    mergeSort_filter (atTick_trans _) (atTick_total _) keep
  refine ⟨by cases session <;> rfl,?_,?_,?_⟩
  · exact (byTick_mergeSort ScheduledInterrupt.atTick script.interrupts).inOrder
  · rw [hsort]
    exact List.filter_sublist
  · rw [hsort,List.filter_filter]
    apply List.filter_congr
    intro i hi
    cases hkind : kinds i.type with
    | true => rfl
    | false => rw [hkeep i (List.mem_mergeSort.mp hi) hkind]; rfl

/-- As long as the run goes on, no interrupt of the kinds is polled while another one is pending. -/
def KeepsApart (m : Machine) (kinds : InterruptType → Bool)
    (x : Execution Replay ScriptedBehavior) : Prop :=
  ∀ n, m.Lasts Replay.host n x → Apart m kinds (m.after Replay.host n x)

/-- Interrupts that every state ignores have the effect of polls that find nothing, on every host.
On a script they could as well not occur, any of them, if none is polled while an interrupt of
another kind is pending: the outcome, the events and the ticks are the same. -/
theorem run_disregards (m : Machine) (kinds : InterruptType → Bool)
    (hk : m.profile.Disregards kinds) :
    (∀ (σ β : Type) (h : Host σ β) (session : Option SessionState) (host : σ),
      m.run (h.muted kinds) session host = m.run h session host) ∧
    ∀ (script : HostScript) (session : Option SessionState) (startMs : UInt64),
      m.KeepsApart kinds (m.begin Replay.host session ((Replay.start script).startingAt startMs)) →
      ∀ keep : ScheduledInterrupt → Bool,
        (∀ i ∈ script.interrupts, kinds i.type = false → keep i = true) →
        m.report (script.keeping keep) session startMs = m.report script session startMs := by
  constructor
  · intro σ β h session host
    exact run_muted hk session host
  · intro script session startMs hapart keep hkeep
    refine loop_alongside (begin_beside script session startMs hkeep) ?_ ?_
    · intro n y' hl hb
      obtain ⟨y'',hi,hb'⟩ := (step_iteration m Replay.host _).beside hk (hapart n hl) hb
      rw [hi.step_eq]
      exact ⟨rfl,hb'⟩
    · intro y y' status hb
      rw [hb.same]
      rcases y with ⟨host,session,_|b,changes,since⟩ <;> rfl

/-- A lookout whom fights do not bother, wherever he is. -/
def stoic : Machine :=
  { lookout with
    profile := { lookout.profile with
      states := lookout.profile.states.map fun s =>
        { s with
          interruptHandlers := [⟨.combat,.ignore,none⟩,⟨.death,.transition,some ⟨"report"⟩⟩] } } }

/-- There is a fight at once, and somebody is killed at some tick. -/
def skirmish (atTick : UInt64) : HostScript :=
  { HostScript.empty with
    maxTicks := 1
    interrupts := [⟨0,.combat⟩,⟨atTick,.death⟩]
    behaviors := NameMap.insert (NameMap.insert ∅ "watch" ⟨none,none,[],[]⟩) "report"
      ⟨none,none,[],[]⟩ }

theorem start_scheduling {script : HostScript}
    (ho : script.interrupts.Pairwise fun i j => i.atTick ≤ j.atTick) :
    Replay.start script =
      (Replay.start { script with interrupts := [] }).scheduling script.interrupts := by
  have hsort : script.interrupts.mergeSort (fun i j => decide (i.atTick ≤ j.atTick)) =
      script.interrupts :=
    List.mergeSort_of_pairwise (ho.imp decide_eq_true)
  exact congrArg (Replay.start { script with interrupts := [] }).scheduling hsort

theorem skirmish_inOrder (atTick : UInt64) :
    (skirmish atTick).interrupts.Pairwise fun i j => i.atTick ≤ j.atTick := by
  rw [skirmish,List.pairwise_pair]
  exact UInt64.zero_le

theorem stoic_disregards :
    stoic.profile.Disregards fun type => decide (type = .combat) := by
  intro s hs type ht
  obtain rfl := of_decide_eq_true ht
  revert s
  decide +kernel

theorem skirmish_keepsApart : stoic.KeepsApart (fun type => decide (type = .combat))
    (stoic.begin Replay.host none ((Replay.start (skirmish 1)).startingAt 0)) := by
  rw [start_scheduling (skirmish_inOrder 1)]
  intro n hl _ y i host hy hp hkind
  have hmem := Replay.mem_interrupts hp
  rw [of_decide_eq_true hkind,(hy.scheduling []).2] at hmem
  rcases n with _ | _ | _ | n
  · cases hy with
    | within hb =>
      unfold Replay.Sole
      decide +kernel
    | yielded hb hw => exact absurd hb (by decide +kernel)
  · exact absurd hmem (by decide +kernel)
  · exact absurd hmem (by decide +kernel)
  · exact absurd (lasts_mono (Nat.le_add_left 3 n) hl) (by decide +kernel)

theorem run_disregards_stoic :
    stoic.profile.Disregards (fun type => decide (type = .combat)) ∧
      stoic.KeepsApart (fun type => decide (type = .combat))
        (stoic.begin Replay.host none ((Replay.start (skirmish 1)).startingAt 0)) ∧
      stoic.report ((skirmish 1).keeping fun i => i.type ≠ .combat) none 0 =
        stoic.report (skirmish 1) none 0 := by
  refine ⟨stoic_disregards,skirmish_keepsApart,?_⟩
  refine (run_disregards stoic _ stoic_disregards).2 (skirmish 1) none 0 skirmish_keepsApart _ ?_
  intro i _ hi
  simpa using hi

/-- The lookout with a handler for interrupts that nobody recognizes. -/
def dreamer : Machine :=
  { lookout with
    profile := { lookout.profile with
      states := lookout.profile.states.map fun s =>
        { s with interruptHandlers := [⟨.unrecognized,.ignore,none⟩] } } }

def murmur : HostScript := { skirmish 0 with interrupts := [⟨0,.unrecognized⟩] }

/-- An ignored interrupt makes another one wait, and one that is not recognized ends the run in spite
of its handler. Neither is as if it had not occurred. -/
theorem ignored_leavesTraces :
    ((∀ s ∈ stoic.profile.states, (s.handler? .combat).any (·.action = .ignore)) ∧
      stoic.simulate ((skirmish 0).keeping fun i => i.type ≠ .combat) none ≠
        stoic.simulate (skirmish 0) none) ∧
    (∀ s ∈ dreamer.profile.states, (s.handler? .unrecognized).any (·.action = .ignore)) ∧
      dreamer.simulate (murmur.keeping fun i => i.type ≠ .unrecognized) none ≠
        dreamer.simulate murmur none := by
  refine ⟨⟨by decide +kernel,?_⟩,by decide +kernel,?_⟩
  · intro he
    have hfight : (stoic.simulate (skirmish 0) none).map (fun r => r.outcome.history.map (·.time)) =
        some [.logical 100] := by
      rw [simulate,start_scheduling (skirmish_inOrder 0),run_of_lasts stoic Replay.host none _ 2
        (.suspended .hostDenied) (by decide +kernel) (by decide +kernel)]
      decide +kernel
    have hpeace : (stoic.simulate ((skirmish 0).keeping fun i => i.type ≠ .combat) none).map
        (fun r => r.outcome.history.map (·.time)) = some [.logical 0] := by
      rw [simulate,run_of_lasts stoic Replay.host none _ 1 (.suspended .hostDenied)
        (by decide +kernel) (by decide +kernel)]
      decide +kernel
    rw [he,hfight] at hpeace
    cases hpeace
  · intro he
    have hmurmur : (dreamer.simulate murmur none).map (·.outcome.status) =
        some (.suspended (.interrupt .unrecognized)) := by
      rw [simulate,run_of_lasts dreamer Replay.host none _ 0
        (.suspended (.interrupt .unrecognized)) (by decide +kernel) (by decide +kernel)]
      rfl
    have hsilence : (dreamer.simulate (murmur.keeping fun i => i.type ≠ .unrecognized) none).map
        (·.outcome.status) = some (.suspended .hostDenied) := by
      rw [simulate,run_of_lasts dreamer Replay.host none _ 1 (.suspended .hostDenied)
        (by decide +kernel) (by decide +kernel)]
      rfl
    rw [he,hmurmur] at hsilence
    cases hsilence

end Machine

end BehaviorMachine
