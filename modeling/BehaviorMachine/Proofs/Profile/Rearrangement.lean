import BehaviorMachine.Dataflow
import BehaviorMachine.Proofs.Profile.WellFormed
import Mathlib.Data.List.Find
import Mathlib.Data.List.Forall2
import Mathlib.Data.List.Nodup

/-!
# Rearranged profiles

The parts of a profile can be declared in any order. States, handlers and connections are found by
keys, which a well-formed profile does not repeat, and transitions are sorted by a stable sort; so
only the order of transitions with the same source and the same priority counts.
-/
namespace BehaviorMachine

section

variable {α γ : Type} {R : α → α → Prop} {a b : Option α}

theorem isSome_of_rel (hr : Option.Rel R a b) : b.isSome = a.isSome := by
  cases hr <;> rfl

theorem rel_of_mem {S : α → α → Prop} (hr : Option.Rel R a b)
    (hs : ∀ x y, a = some x → R x y → S x y) : Option.Rel S a b := by
  cases hr with
  | none => exact .none
  | some hxy => exact .some (hs _ _ rfl hxy)

theorem bind_of_rel {f g : α → Option γ} (hr : Option.Rel R a b)
    (hfg : ∀ x y, R x y → g y = f x) : b.bind g = a.bind f := by
  cases hr with
  | none => rfl
  | some hxy => exact hfg _ _ hxy

end

section

variable {α κ : Type} {l l' : List α}

theorem find?_perm {key : α → κ} {found : α → Bool} (hp : l.Perm l') (hn : (l.map key).Nodup)
    (hkey : ∀ a b, found a = true → found b = true → key a = key b) :
    l'.find? found = l.find? found := by
  refine (List.find?_eq_find?_of_perm hp ?_).symm
  rintro a ⟨ha,hfa⟩ b ⟨hb,hfb⟩
  exact List.inj_on_of_nodup_map hn ha hb (hkey a b hfa hfb)

variable {le : α → α → Bool}

/-- The order does not tell the elements apart. -/
def tied (le : α → α → Bool) (a b : α) : Bool := le a b && le b a

theorem eq_of_tied (hl : l.Pairwise (le · ·)) (hl' : l'.Pairwise (le · ·)) (hp : l.Perm l')
    (ht : ∀ a ∈ l, l'.filter (tied le a) = l.filter (tied le a)) (hr : ∀ a, le a a = true) :
    l' = l := by
  induction l generalizing l' with
  | nil => exact List.nil_perm.mp hp
  | cons a l ih =>
    cases l' with
    | nil => exact absurd hp.eq_nil (List.cons_ne_nil a l)
    | cons b l' =>
      obtain ⟨ha,hrest⟩ := List.pairwise_cons.mp hl
      obtain ⟨hb,hrest'⟩ := List.pairwise_cons.mp hl'
      have hab : tied le a b = true := by
        have hle : le a b = true := by
          rcases List.mem_cons.mp (hp.mem_iff.mpr (List.mem_cons_self (a := b))) with rfl | hm
          · exact hr b
          · exact ha b hm
        have hge : le b a = true := by
          rcases List.mem_cons.mp (hp.mem_iff.mp (List.mem_cons_self (a := a))) with rfl | hm
          · exact hr a
          · exact hb a hm
        rw [tied,hle,hge,Bool.and_self]
      have haa : tied le a a = true := by rw [tied,hr,Bool.and_self]
      -- both elements are the first of those that are tied with them
      have heq := ht a List.mem_cons_self
      rw [List.filter_cons_of_pos hab,List.filter_cons_of_pos haa] at heq
      obtain rfl : b = a := (List.cons.inj heq).1
      refine congrArg (List.cons b) (ih hrest hrest' hp.cons_inv fun c hc => ?_)
      have hc := ht c (List.mem_cons_of_mem b hc)
      by_cases hcb : tied le c b = true
      · rw [List.filter_cons_of_pos hcb,List.filter_cons_of_pos hcb] at hc
        exact (List.cons.inj hc).2
      · rw [List.filter_cons_of_neg hcb,List.filter_cons_of_neg hcb] at hc
        exact hc

variable (trans : ∀ a b c, le a b = true → le b c = true → le a c = true)
  (total : ∀ a b, (le a b || le b a) = true)

include trans total

theorem filter_mergeSort (a : α) : (l.mergeSort le).filter (tied le a) = l.filter (tied le a) := by
  -- tied elements are in order as they stand, so the sort keeps them as a sublist
  have hsorted : (l.filter (tied le a)).Pairwise (le · ·) := by
    rw [List.pairwise_iff_forall_sublist]
    intro b c hs
    have hb := List.of_mem_filter (hs.subset (List.mem_cons_self (a := b)))
    have hc := List.of_mem_filter (hs.subset (List.mem_cons_of_mem b List.mem_cons_self))
    rw [tied,Bool.and_eq_true] at hb hc
    exact trans b a c hb.2 hc.1
  have hsub := (List.sublist_mergeSort trans total hsorted List.filter_sublist).filter (tied le a)
  rw [List.filter_filter] at hsub
  simp only [Bool.and_self] at hsub
  have hlength := ((List.mergeSort_perm l le).filter (tied le a)).length_eq
  exact (hsub.eq_of_length hlength.symm).symm

/-- A stable sort depends on the order of tied elements only. -/
theorem mergeSort_perm_tied (hp : l.Perm l')
    (ht : ∀ a ∈ l, l'.filter (tied le a) = l.filter (tied le a)) :
    l'.mergeSort le = l.mergeSort le := by
  refine eq_of_tied (List.pairwise_mergeSort trans total l) (List.pairwise_mergeSort trans total l')
    ?_ ?_ ?_
  · exact ((List.mergeSort_perm l le).trans hp).trans (List.mergeSort_perm l' le).symm
  · intro a ha
    rw [filter_mergeSort trans total,filter_mergeSort trans total]
    exact ht a ((List.mergeSort_perm l le).mem_iff.mp ha)
  · intro a
    simpa using total a a

theorem mergeSort_filter (keep : α → Bool) :
    (l.filter keep).mergeSort le = (l.mergeSort le).filter keep := by
  refine eq_of_tied ((List.pairwise_mergeSort trans total l).filter keep)
    (List.pairwise_mergeSort trans total _) ?_ ?_ ?_
  · exact ((List.mergeSort_perm l le).filter keep).trans (List.mergeSort_perm _ le).symm
  · intro a _
    rw [filter_mergeSort trans total,List.filter_filter,List.filter_filter]
    simp only [Bool.and_comm (tied le a _)]
    rw [← List.filter_filter,← List.filter_filter,filter_mergeSort trans total]
  · intro a
    simpa using total a a

end

/-- The second state has the handlers of the first in another order. -/
def StateSpec.Rearranged (s t : StateSpec) : Prop :=
  ∃ handlers, s.interruptHandlers.Perm handlers ∧ t = { s with interruptHandlers := handlers }

/-- The second profile declares the parts of the first in another order, in which transitions with
the same source and the same priority have kept theirs. -/
structure Profile.Rearranged (p q : Profile) : Prop where
  states : ∃ states, p.states.Perm states ∧ List.Forall₂ StateSpec.Rearranged states q.states
  transitions : p.transitions.Perm q.transitions
  ties : ∀ source priority,
    q.transitions.filter (fun t => t.fromStateId = source ∧ t.priority = priority) =
      p.transitions.filter (fun t => t.fromStateId = source ∧ t.priority = priority)
  connections : p.dataConnections.Perm q.dataConnections
  rest : q = { p with
    states := q.states
    transitions := q.transitions
    dataConnections := q.dataConnections }

namespace StateSpec.Rearranged

variable {s t : StateSpec}

theorem frame (hr : s.Rearranged t) : t = { s with interruptHandlers := t.interruptHandlers } := by
  obtain ⟨handlers,-,rfl⟩ := hr
  rfl

theorem id (hr : s.Rearranged t) : t.id = s.id := by rw [hr.frame]

theorem handlers (hr : s.Rearranged t) : s.interruptHandlers.Perm t.interruptHandlers := by
  obtain ⟨handlers,hp,rfl⟩ := hr
  exact hp

theorem port? (hr : s.Rearranged t) (id : PortId) : t.port? id = s.port? id := by
  rw [hr.frame]
  rfl

theorem handler? (hr : s.Rearranged t)
    (hn : (s.interruptHandlers.map InterruptHandler.interruptType).Nodup) (type : InterruptType) :
    t.handler? type = s.handler? type := by
  refine find?_perm hr.handlers hn fun a b ha hb => ?_
  exact (of_decide_eq_true ha).trans (of_decide_eq_true hb).symm

end StateSpec.Rearranged

section

variable {l l' : List StateSpec} (hr : List.Forall₂ StateSpec.Rearranged l l')

include hr

theorem find?_rearranged (id : StateId) :
    Option.Rel StateSpec.Rearranged (l.find? (·.id = id)) (l'.find? (·.id = id)) := by
  induction hr with
  | nil => exact .none
  | @cons s t l l' hst hr ih =>
    rw [List.find?_cons,List.find?_cons,hst.id]
    by_cases hid : s.id = id
    · simp only [hid,decide_true]
      exact .some hst
    · simp only [hid,decide_false]
      exact ih

theorem map_id_rearranged : l'.map StateSpec.id = l.map StateSpec.id := by
  induction hr with
  | nil => rfl
  | cons hst hr ih => rw [List.map_cons,List.map_cons,hst.id,ih]

theorem mem_rearranged {t : StateSpec} (ht : t ∈ l') : ∃ s ∈ l, s.Rearranged t := by
  induction hr with
  | nil => exact absurd ht List.not_mem_nil
  | @cons s u l l' hsu hr ih =>
    rcases List.mem_cons.mp ht with rfl | ht
    · exact ⟨s,List.mem_cons_self,hsu⟩
    · obtain ⟨r,hm,hrt⟩ := ih ht
      exact ⟨r,List.mem_cons_of_mem s hm,hrt⟩

end

namespace Transition

theorem priority_trans (a b c : Transition) (hab : decide (b.priority ≤ a.priority) = true)
    (hbc : decide (c.priority ≤ b.priority) = true) : decide (c.priority ≤ a.priority) = true := by
  simp only [decide_eq_true_eq] at hab hbc ⊢
  exact Int64.le_trans hbc hab

theorem priority_total (a b : Transition) :
    (decide (b.priority ≤ a.priority) || decide (a.priority ≤ b.priority)) = true := by
  simp only [Bool.or_eq_true,decide_eq_true_eq]
  exact Int64.le_total b.priority a.priority

theorem tied_priority (a b : Transition) :
    tied (fun a b : Transition => decide (b.priority ≤ a.priority)) a b =
      decide (b.priority = a.priority) := by
  rw [tied,Bool.eq_iff_iff]
  simp only [Bool.and_eq_true,decide_eq_true_eq]
  constructor
  · intro h
    exact Int64.le_antisymm h.1 h.2
  · intro h
    simp [h]

end Transition

namespace Profile.Rearranged

variable {p q : Profile} (hr : p.Rearranged q)

include hr

theorem initial : q.initialStateId = p.initialStateId := by rw [hr.rest]

theorem map_id : (p.states.map StateSpec.id).Perm (q.states.map StateSpec.id) := by
  obtain ⟨states,hp,hs⟩ := hr.states
  rw [map_id_rearranged hs]
  exact hp.map _

theorem exists_mem {t : StateSpec} (ht : t ∈ q.states) : ∃ s ∈ p.states, s.Rearranged t := by
  obtain ⟨states,hp,hs⟩ := hr.states
  obtain ⟨s,hm,hst⟩ := mem_rearranged hs ht
  exact ⟨s,hp.mem_iff.mpr hm,hst⟩

theorem outgoing (state : StateId) : q.outgoing state = p.outgoing state := by
  apply mergeSort_perm_tied Transition.priority_trans Transition.priority_total
    (hr.transitions.filter _)
  intro a ha
  rw [List.filter_filter,List.filter_filter]
  simp only [Transition.tied_priority,Bool.and_comm (decide (_ = a.priority)),← Bool.decide_and]
  exact hr.ties state a.priority

section

variable (hn : (p.states.map StateSpec.id).Nodup)

include hn

theorem state? (id : StateId) :
    Option.Rel StateSpec.Rearranged (p.state? id) (q.state? id) := by
  obtain ⟨states,hp,hs⟩ := hr.states
  have hfind := find?_rearranged hs id
  rw [find?_perm hp hn (fun a b ha hb => ?_)] at hfind
  · exact hfind
  · exact (of_decide_eq_true ha).trans (of_decide_eq_true hb).symm

theorem isSome_state? (id : StateId) : (q.state? id).isSome = (p.state? id).isSome :=
  isSome_of_rel (hr.state? hn id)

theorem port? (state : StateId) (port : PortId) : q.port? state port = p.port? state port :=
  bind_of_rel (hr.state? hn state) fun _ _ hst => hst.port? port

theorem handler_wellFormed {h : InterruptHandler} (hw : h.WellFormed p) : h.WellFormed q := by
  refine ⟨hw.type,hw.action,fun ha => ?_⟩
  obtain ⟨target,ht,hs⟩ := hw.target ha
  refine ⟨target,ht,?_⟩
  rw [hr.isSome_state? hn]
  exact hs

theorem state_wellFormed {s t : StateSpec} (hst : s.Rearranged t) (hw : s.WellFormed p) :
    t.WellFormed q where
  ports_nodup := by
    rw [hst.frame]
    exact hw.ports_nodup
  handlers_nodup := (hst.handlers.map _).nodup_iff.mp hw.handlers_nodup
  handlers h hh := hr.handler_wellFormed hn (hw.handlers h (hst.handlers.mem_iff.mpr hh))
  bindings := by
    rw [hst.frame]
    exact hw.bindings

theorem transition_wellFormed {t : Transition} (hw : t.WellFormed p) : t.WellFormed q where
  source := by
    rw [hr.isSome_state? hn]
    exact hw.source
  target := by
    rw [hr.isSome_state? hn]
    exact hw.target
  condition := hw.condition

theorem connection_wellFormed {c : DataConnection} (hw : c.WellFormed p) : c.WellFormed q := by
  rw [DataConnection.WellFormed,hr.port? hn,hr.port? hn]
  exact hw

end

/-- A profile remains well-formed when it is rearranged. -/
theorem wellFormed (hw : p.WellFormed) : q.WellFormed where
  states_ne_nil hq := by
    have hp := hr.map_id
    rw [hq] at hp
    exact hw.states_ne_nil (List.map_eq_nil_iff.mp hp.eq_nil)
  states_nodup := hr.map_id.nodup_iff.mp hw.states_nodup
  transitions_nodup := (hr.transitions.map _).nodup_iff.mp hw.transitions_nodup
  connections_nodup := (hr.connections.map _).nodup_iff.mp hw.connections_nodup
  initial := by
    obtain ⟨initial,hi,hs⟩ := hw.initial
    refine ⟨initial,hr.initial.trans hi,?_⟩
    rw [hr.isSome_state? hw.states_nodup]
    exact hs
  states t ht := by
    obtain ⟨s,hs,hst⟩ := hr.exists_mem ht
    exact hr.state_wellFormed hw.states_nodup hst (hw.states s hs)
  transitions t ht := hr.transition_wellFormed hw.states_nodup
    (hw.transitions t (hr.transitions.mem_iff.mpr ht))
  connections c hc := hr.connection_wellFormed hw.states_nodup
    (hw.connections c (hr.connections.mem_iff.mpr hc))
  inputs_nodup := (hr.connections.map _).nodup_iff.mp hw.inputs_nodup

section

variable (hn : (p.dataConnections.map DataConnection.input).Nodup)

include hn

theorem connectionsInto (state : StateId) (port : PortId) :
    (q.connectionsInto state port).head? = (p.connectionsInto state port).head? := by
  rw [Profile.connectionsInto,Profile.connectionsInto,List.head?_filter,List.head?_filter]
  refine find?_perm hr.connections hn fun c d hc hd => ?_
  obtain ⟨hcs,hcp⟩ := of_decide_eq_true hc
  obtain ⟨hds,hdp⟩ := of_decide_eq_true hd
  rw [DataConnection.input,DataConnection.input,hcs,hcp,hds,hdp]

variable (hs : (p.states.map StateSpec.id).Nodup)

include hs

theorem feed? (state : StateId) (port : Port) : q.feed? state port = p.feed? state port := by
  rw [Profile.feed?,Profile.feed?,hr.connectionsInto hn]
  refine congrArg (Option.bind _) (funext fun c => ?_)
  refine bind_of_rel (hr.state? hs c.fromStateId) fun s t hst => ?_
  rw [hst.port?,hst.id]

theorem boundValue? {s t : StateSpec} (hst : s.Rearranged t) (values : PortValues)
    (b : ParamBinding) : q.boundValue? t values b = p.boundValue? s values b := by
  simp only [Profile.boundValue?,hst.port?,hst.id,hr.feed? hn hs]

theorem effectiveParams {s t : StateSpec} (hst : s.Rearranged t) (values : PortValues) :
    q.effectiveParams t values = p.effectiveParams s values := by
  have hbindings : t.paramBindings = s.paramBindings := by rw [hst.frame]
  have hparams : t.behaviorParams = s.behaviorParams := by rw [hst.frame]
  simp only [Profile.effectiveParams,hbindings,hparams,hr.boundValue? hn hs hst]

end

end Profile.Rearranged

end BehaviorMachine
