import BehaviorMachine.Proofs.Profile.Rearrangement
import BehaviorMachine.Proofs.Run.Calls

/-!
# Which transition fires

The transitions out of a state compete for an iteration. A candidate leads to a state that resolves,
and its condition holds. Of the candidates the one fires that precedes all others: by its priority,
and by its position where the priorities are the same (`firing?_eq_some_iff`).
-/
namespace BehaviorMachine

section

variable {α : Type} {le : α → α → Bool} {l : List α} {found : α → Bool} {a : α}

/-- What is found first after sorting comes before all else that could be found, and it stood first
among what is tied with it. -/
theorem find?_mergeSort (trans : ∀ a b c, le a b = true → le b c = true → le a c = true)
    (total : ∀ a b, (le a b || le b a) = true) (hf : (l.mergeSort le).find? found = some a) :
    (∀ b ∈ l, found b = true → le a b = true) ∧
      l.find? (fun b => tied le a b && found b) = some a := by
  have hrefl : le a a = true := by simpa using total a a
  obtain ⟨hfound,before,after,hsplit,hbefore⟩ := List.find?_eq_some_iff_append.mp hf
  constructor
  · intro b hb hfb
    have hsorted := List.pairwise_mergeSort trans total l
    rw [hsplit] at hsorted
    have hlater := (List.pairwise_cons.mp (List.pairwise_append.mp hsorted).2.1).1
    have hm : b ∈ before ++ a :: after := by
      rw [← hsplit]
      exact List.mem_mergeSort.mpr hb
    simp only [List.mem_append,List.mem_cons] at hm
    rcases hm with hm | rfl | hm
    · have hn := hbefore b hm
      simp [hfb] at hn
    · exact hrefl
    · exact hlater b hm
  · have htied : tied le a a = true := by simp [tied,hrefl]
    have hfirst : ((l.mergeSort le).filter (tied le a)).find? found = some a := by
      rw [List.find?_filter,List.find?_eq_some_iff_append]
      refine ⟨by simp [htied,hfound],before,after,hsplit,?_⟩
      intro b hb
      have hn := hbefore b hb
      simp_all
    rw [filter_mergeSort trans total,List.find?_filter] at hfirst
    simpa using hfirst

end

namespace Profile

/-- The transition at a position can fire in a state: it leads from there to a state that resolves,
and its condition holds. -/
structure Candidate (p : Profile) (s : StateSpec) (world : Option WorldSnapshot)
    (session : SessionState) (now : Timestamp) (i : Nat) (t : Transition) : Prop where
  declared : p.transitions[i]? = some t
  source : t.fromStateId = s.id
  target : (p.state? t.toStateId).isSome
  condition : t.condition.holds world session now = true

/-- The transition at a position precedes all other candidates: they have a lower priority, or the
same one and a later position. -/
structure Prevails (p : Profile) (s : StateSpec) (world : Option WorldSnapshot)
    (session : SessionState) (now : Timestamp) (i : Nat) (t : Transition) : Prop where
  candidate : p.Candidate s world session now i t
  precedes : ∀ j u, p.Candidate s world session now j u → j ≠ i →
    u.priority < t.priority ∨ u.priority = t.priority ∧ i < j

variable {p : Profile} {s : StateSpec} {world : Option WorldSnapshot} {session : SessionState}
  {now : Timestamp} {i j : Nat} {t u : Transition}

theorem Prevails.unique (ht : p.Prevails s world session now i t)
    (hu : p.Prevails s world session now j u) : j = i ∧ u = t := by
  have hposition : j = i := by
    by_contra hn
    rcases ht.precedes j u hu.candidate hn with hlt | ⟨heq,hlt⟩
    · rcases hu.precedes i t ht.candidate (Ne.symm hn) with hlt' | ⟨heq',hlt'⟩
      · exact Int64.lt_asymm hlt hlt'
      · rw [heq'] at hlt
        exact Int64.lt_irrefl hlt
    · rcases hu.precedes i t ht.candidate (Ne.symm hn) with hlt' | ⟨heq',hlt'⟩
      · rw [heq] at hlt'
        exact Int64.lt_irrefl hlt'
      · omega
  subst hposition
  refine ⟨rfl,?_⟩
  have he := ht.candidate.declared.symm.trans hu.candidate.declared
  exact (Option.some.inj he).symm

/-- The transition that fires is the candidate that precedes all others. -/
theorem prevails_of_firing? (ht : p.firing? s world session now = some t) :
    ∃ i, p.Prevails s world session now i t := by
  obtain ⟨hm,hsource,htarget,hcondition⟩ := firing?_some ht
  rw [firing?,outgoing] at ht
  obtain ⟨hgreatest,hfirst⟩ :=
    find?_mergeSort Transition.priority_trans Transition.priority_total ht
  rw [List.find?_filter,List.find?_eq_some_iff_getElem] at hfirst
  obtain ⟨-,i,hi,hdeclared,hearlier⟩ := hfirst
  refine ⟨i,⟨?_,hsource,htarget,hcondition⟩,?_⟩
  · rw [List.getElem?_eq_getElem hi,hdeclared]
  · intro j u hu hne
    have hfound : ((p.state? u.toStateId).isSome && u.condition.holds world session now) = true := by
      simp [hu.target,hu.condition]
    have hle : u.priority ≤ t.priority := by
      have hmem := List.mem_of_getElem? hu.declared
      have hg := hgreatest u (List.mem_filter.mpr ⟨hmem,by simp [hu.source]⟩) hfound
      simpa using hg
    by_cases heq : u.priority = t.priority
    · right
      refine ⟨heq,?_⟩
      by_contra hlt
      have hj : j < i := by omega
      have hn := hearlier j hj
      obtain ⟨hlength,hget⟩ := List.getElem?_eq_some_iff.mp hu.declared
      rw [hget] at hn
      simp [Transition.tied_priority,heq,hu.source,hu.target,hu.condition] at hn
    · left
      exact Int64.lt_of_le_of_ne hle heq

theorem firing?_eq_none_iff :
    p.firing? s world session now = none ↔ ∀ i t, ¬ p.Candidate s world session now i t := by
  rw [firing?,List.find?_eq_none]
  constructor
  · intro h i t ht
    have hm := mem_outgoing.mpr ⟨List.mem_of_getElem? ht.declared,ht.source⟩
    apply h t hm
    simp [ht.target,ht.condition]
  · intro h t hm hfound
    obtain ⟨hmem,hsource⟩ := mem_outgoing.mp hm
    obtain ⟨i,hi⟩ := List.getElem?_of_mem hmem
    rw [Bool.and_eq_true] at hfound
    exact h i t ⟨hi,hsource,hfound.1,hfound.2⟩

theorem firing?_eq_some_iff : p.firing? s world session now = some t ↔
    ∃ i, p.Prevails s world session now i t := by
  constructor
  · exact prevails_of_firing?
  · intro h
    obtain ⟨i,hi⟩ := h
    cases hf : p.firing? s world session now with
    | none => exact absurd hi.candidate (firing?_eq_none_iff.mp hf i t)
    | some u =>
      obtain ⟨j,hj⟩ := prevails_of_firing? hf
      rw [(hi.unique hj).2]

theorem exists_prevails (hc : ∃ i t, p.Candidate s world session now i t) :
    ∃ i t, p.Prevails s world session now i t := by
  cases hf : p.firing? s world session now with
  | none =>
    obtain ⟨i,t,ht⟩ := hc
    exact absurd ht (firing?_eq_none_iff.mp hf i t)
  | some t =>
    obtain ⟨i,ht⟩ := prevails_of_firing? hf
    exact ⟨i,t,ht⟩

end Profile

namespace Machine

open Execution Observed

variable {σ β : Type}

theorem step_stays {m : Machine} {h : Host σ β} {s : StateSpec} {x y z : Execution σ β}
    (hs : m.currentState? x.session = some s) (hy : Ready m h x y) (hz : Undisturbed m h s y z)
    (ht : m.profile.firing? s (h.world z.host) z.session (h.now z.host) = none) :
    (m.step h x).2.changes = x.changes := by
  obtain ⟨ticks,w,hd⟩ := exists_driven m h s z
  rcases hw : h.wait ticks w.host with ⟨_|_,host⟩
  · rw [(Iteration.denied hs hy hz ht hd hw).step_eq,pause_frame,hd.frame,hz.frame,hy.frame]
  · rw [(Iteration.continued hs hy hz ht hd hw).step_eq,hd.frame,hz.frame,hy.frame]

/-- An iteration gets as far as its transitions: the wait for a spent budget is granted, and the
interrupt that is polled then, if there is one, is ignored. -/
structure Unhindered (m : Machine) (h : Host σ β) (s : StateSpec) (x : Execution σ β) : Prop where
  granted : m.budgets.maxTransitionsPerTick ≤ x.changesSinceWait →
    (h.wait m.budgets.yieldTicks x.host).1 = true
  ignored : ∀ y i, Ready m h x y → (h.poll y.host).1 = some i →
    m.profile.reaction s i.type = .ignore

theorem Unhindered.exists_undisturbed {m : Machine} {h : Host σ β} {s : StateSpec}
    {x : Execution σ β} (hu : Unhindered m h s x) :
    ∃ y z, Ready m h x y ∧ Undisturbed m h s y z := by
  have hready : ∃ y, Ready m h x y := by
    by_cases hb : m.budgets.maxTransitionsPerTick ≤ x.changesSinceWait
    · exact ⟨_,.yielded hb (Prod.ext (hu.granted hb) rfl)⟩
    · exact ⟨x,.within hb⟩
  obtain ⟨y,hy⟩ := hready
  cases hp : (h.poll y.host).1 with
  | none => exact ⟨y,_,hy,.quiet (Prod.ext hp rfl)⟩
  | some i => exact ⟨y,_,hy,.ignored (Prod.ext hp rfl) (hu.ignored y i hy hp)⟩

/-- An iteration that gets as far as its transitions changes the state exactly if one of them is a
candidate, in the world and at the time that the host shows then. There is one change, by the
candidate that precedes all others, and no behavior is resolved or stepped. -/
theorem step_followsPrecedence (m : Machine) (h : Host σ β) {s : StateSpec}
    {x : Execution (Observed σ) (Nat × β)} (hs : m.currentState? x.session = some s)
    (hu : Unhindered m h.observed s x) :
    ∃ y z, Ready m h.observed x y ∧ Undisturbed m h.observed s y z ∧
      let world := h.world z.host.state
      let now := h.now z.host.state
      ((m.step h.observed x).2.history ≠ x.history ↔
        ∃ i t, m.profile.Candidate s world x.session now i t) ∧
      ((∃ i t, m.profile.Candidate s world x.session now i t) →
        ∃! choice : Nat × Transition,
          m.profile.Prevails s world x.session now choice.1 choice.2) ∧
      ∀ i t, m.profile.Prevails s world x.session now i t →
        (m.step h.observed x).1 = .again ∧
        (m.step h.observed x).2.history =
          x.history ++ [⟨s.id,t.toStateId,.transition t.id,now,x.session.ticksInState⟩] ∧
        (m.step h.observed x).2.session = x.session.enter t.toStateId now ∧
        Grows Call.Passive x.host (m.step h.observed x).2.host := by
  obtain ⟨y,z,hy,hz⟩ := hu.exists_undisturbed
  refine ⟨y,z,hy,hz,?_⟩
  intro world now
  have hsession : z.session = x.session := by rw [hz.frame,hy.frame]
  have hchanges : z.changes = x.changes := by rw [hz.frame,hy.frame]
  have hfires : ∀ i t, m.profile.Prevails s world x.session now i t → m.step h.observed x =
      (.again,z.enter h.observed s.id t.toStateId (.transition t.id) now) := by
    intro i t ht
    have hf : m.profile.firing? s world z.session now = some t := by
      rw [hsession]
      exact Profile.firing?_eq_some_iff.mpr ⟨i,ht⟩
    exact (Iteration.fired hs hy hz hf).step_eq
  have hhistory : ∀ i t, m.profile.Prevails s world x.session now i t →
      (m.step h.observed x).2.history =
        x.history ++ [⟨s.id,t.toStateId,.transition t.id,now,x.session.ticksInState⟩] := by
    intro i t ht
    rw [hfires i t ht,history_enter hchanges,hsession]
  refine ⟨⟨?_,?_⟩,?_,?_⟩
  · intro hne
    by_contra hc
    apply hne
    apply history_of_changes
    apply step_stays hs hy hz
    rw [hsession]
    exact Profile.firing?_eq_none_iff.mpr fun i t ht => hc ⟨i,t,ht⟩
  · intro hc
    obtain ⟨i,t,ht⟩ := Profile.exists_prevails hc
    rw [hhistory i t ht]
    simp
  · intro hc
    obtain ⟨i,t,ht⟩ := Profile.exists_prevails hc
    refine ⟨(i,t),ht,?_⟩
    intro choice hchoice
    obtain ⟨hi,ht'⟩ := ht.unique hchoice
    exact Prod.ext hi ht'
  · intro i t ht
    refine ⟨by rw [hfires i t ht],hhistory i t ht,?_,?_⟩
    · rw [hfires i t ht,enter_session,hsession]
    · rw [hfires i t ht]
      have hidle := hy.grows.trans hz.grows
      exact (hidle.mono fun _ => Call.Idle.passive).trans
        (enter_adds (fun _ => trivial) _ _ _ _ z)

def crossroads : StateSpec :=
  ⟨⟨"crossroads"⟩,"crossroads",⟨"load"⟩,∅,[⟨.combat,.ignore,none⟩],[],[]⟩

/-- A carter at a crossroads. The best way leads nowhere, the next is barred until his load is
complete, and of the two after it the first needs no more than that he has arrived. -/
def carter : Machine where
  profile := ⟨⟨"carter"⟩,"carter",none,some ⟨"crossroads"⟩,
    [crossroads,⟨⟨"mill"⟩,"mill",⟨"unload"⟩,∅,[],[],[]⟩,⟨⟨"market"⟩,"market",⟨"unload"⟩,∅,[],[],[]⟩],
    [⟨⟨"detour"⟩,⟨"crossroads"⟩,⟨"market"⟩,.always,Int64.minValue,none⟩,
      ⟨⟨"ford"⟩,⟨"crossroads"⟩,⟨"ferry"⟩,.always,Int64.maxValue,none⟩,
      ⟨⟨"bridge"⟩,⟨"crossroads"⟩,⟨"mill"⟩,.timer 0,3,none⟩,
      ⟨⟨"lane"⟩,⟨"crossroads"⟩,⟨"market"⟩,.always,3,none⟩,
      ⟨⟨"road"⟩,⟨"crossroads"⟩,⟨"market"⟩,.behaviorComplete,4,none⟩],[]⟩
  budgets := ⟨1,1,1,1⟩

def crossing : Execution (Observed Replay) (Nat × ScriptedBehavior) :=
  carter.begin Replay.host.observed none
    (.start { Replay.start HostScript.empty with interrupts := [⟨0,.combat⟩] })

theorem prevails_bridge : carter.profile.Prevails crossroads (some .empty) crossing.session
    (.logical 0) 2 ⟨⟨"bridge"⟩,⟨"crossroads"⟩,⟨"mill"⟩,.timer 0,3,none⟩ where
  candidate := ⟨rfl,rfl,by decide +kernel,by decide +kernel⟩
  precedes j u hu hn := by
    have hdeclared := hu.declared
    match j with
    | 0 =>
      cases hdeclared
      exact .inl (by decide +kernel)
    | 1 =>
      cases hdeclared
      exact absurd hu.target (by decide +kernel)
    | 2 => exact absurd rfl hn
    | 3 =>
      cases hdeclared
      exact .inr ⟨rfl,by decide⟩
    | 4 =>
      cases hdeclared
      exact absurd hu.condition (by decide +kernel)
    | j+5 => cases hdeclared

theorem step_followsPrecedence_carter : carter.currentState? crossing.session = some crossroads ∧
    Unhindered carter Replay.host.observed crossroads crossing ∧
    (Replay.poll crossing.host.state).1 = some ⟨.combat⟩ ∧
    (carter.step Replay.host.observed crossing).2.history =
      [⟨⟨"crossroads"⟩,⟨"mill"⟩,.transition ⟨"bridge"⟩,.logical 0,0⟩] := by
  have hs : carter.currentState? crossing.session = some crossroads := by decide +kernel
  have hp : (Replay.poll crossing.host.state).1 = some ⟨.combat⟩ := by decide +kernel
  have hwithin : ¬ carter.budgets.maxTransitionsPerTick ≤ crossing.changesSinceWait := by
    decide +kernel
  have hready : ∀ {y}, Ready carter Replay.host.observed crossing y → y = crossing := by
    intro y hy
    cases hy with
    | within hb => rfl
    | yielded hb hw => exact absurd hb hwithin
  have hu : Unhindered carter Replay.host.observed crossroads crossing := by
    refine ⟨fun hb => absurd hb hwithin,?_⟩
    intro y i hy hi
    obtain rfl := hready hy
    obtain rfl := Option.some.inj (hp.symm.trans hi)
    rfl
  have hworld : Replay.host.world (Replay.poll crossing.host.state).2 = some .empty := by
    decide +kernel
  have hnow : Replay.host.now (Replay.poll crossing.host.state).2 = .logical 0 := by
    decide +kernel
  obtain ⟨y,z,hy,hz,-,-,hfires⟩ := step_followsPrecedence carter Replay.host hs hu
  obtain rfl := hready hy
  have hstate : z.host.state = (Replay.poll crossing.host.state).2 := by
    cases hz with
    | quiet hq => exact (congrArg (fun answer => answer.2.state) hq).symm
    | ignored hq hr => exact (congrArg (fun answer => answer.2.state) hq).symm
  rw [hstate,hworld,hnow] at hfires
  exact ⟨hs,hu,hp,(hfires 2 _ prevails_bridge).2.1⟩

end Machine

end BehaviorMachine
