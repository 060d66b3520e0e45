import BehaviorMachine.Proofs.Profile.Rearrangement
import BehaviorMachine.Proofs.Run.Alike
import BehaviorMachine.Proofs.Run.Observation

/-!
# Runs of rearranged profiles

A run does not notice in which order a well-formed profile declares its parts: it makes the same calls
and has the same outcome. Only the digest of the profile changes.
-/
namespace BehaviorMachine

namespace Profile.Rearranged

variable {p q : Profile}

theorem reaction (hr : p.Rearranged q) (hn : (p.states.map StateSpec.id).Nodup) {s t : StateSpec}
    (hst : s.Rearranged t)
    (hh : (s.interruptHandlers.map InterruptHandler.interruptType).Nodup) (type : InterruptType) :
    q.reaction t type = p.reaction s type := by
  simp only [Profile.reaction,hst.handler? hh,hr.isSome_state? hn]

theorem firing? (hr : p.Rearranged q) (hn : (p.states.map StateSpec.id).Nodup) {s t : StateSpec}
    (hst : s.Rearranged t) (world : Option WorldSnapshot) (session : SessionState)
    (now : Timestamp) : q.firing? t world session now = p.firing? s world session now := by
  simp only [Profile.firing?,hst.id,hr.outgoing,hr.isSome_state? hn]

theorem alike (hr : p.Rearranged q) (hw : p.WellFormed) : p.Alike q where
  initial := hr.initial
  states id := by
    refine rel_of_mem (hr.state? hw.states_nodup id) fun s t hs hst => ?_
    have hm : s ∈ p.states := List.mem_of_find?_eq_some hs
    exact
      { id := hst.id
        behaviorName := by rw [hst.frame]
        ports := by rw [hst.frame]
        reaction := hr.reaction hw.states_nodup hst (hw.states s hm).handlers_nodup
        params := hr.effectiveParams hw.inputs_nodup hw.states_nodup hst
        firing := hr.firing? hw.states_nodup hst }

end Profile.Rearranged

namespace Machine

/-- The order of declarations does not matter for a valid profile. When it is rearranged it remains
valid, and on every host a run makes the same calls, goes through the same executions and has the
same outcome, up to the digest of the profile that the session keeps. -/
theorem run_ignoresOrder (p q : Profile) (hv : p.validate = .ok ()) (hr : p.Rearranged q) :
    q.validate = .ok () ∧
    ∀ {σ β : Type} (budgets : Budgets) (h : Host σ β) (session : Option SessionState) (host : σ),
      let m : Machine := ⟨p,budgets⟩
      let m' : Machine := ⟨q,budgets⟩
      m'.run h session host = (m.run h session host).map
        (fun r => (r.1.withDigest (m'.digest session),r.2)) ∧
      (∀ n, m'.after h n (m'.begin h session host) =
        (m.after h n (m.begin h session host)).withDigest (m'.digest session)) ∧
      (m'.run h.observed session (.start host)).map (·.2.calls) =
        (m.run h.observed session (.start host)).map (·.2.calls) ∧
      ∀ n, (m'.after h.observed n (m'.begin h.observed session (.start host))).host.calls =
        (m.after h.observed n (m.begin h.observed session (.start host))).host.calls := by
  have hw := Profile.validate_eq_ok.mp hv
  have ha := hr.alike hw
  refine ⟨Profile.validate_eq_ok.mpr (hr.wellFormed hw),?_⟩
  intro σ β budgets h session host m m'
  refine ⟨run_alike ha h session host,after_alike ha h session host,?_,?_⟩
  · rw [run_alike ha,Option.map_map]
    rfl
  · intro n
    rw [after_alike ha]
    rfl

/-- The profile of a lookout who is also relieved when he has grown weary. -/
def weary : Profile :=
  { lookout.profile with
    transitions := lookout.profile.transitions ++
      [⟨⟨"fatigue"⟩,⟨"watch"⟩,⟨"report"⟩,.timer 1000,0,none⟩] }

/-- The same in another order, in which the relief still comes before the fatigue. -/
def wearyReversed : Profile :=
  { weary with
    states :=
      [⟨⟨"report"⟩,"report",⟨"report"⟩,∅,[],
          [⟨⟨"sight"⟩,"sight",.input,.text⟩,⟨⟨"place"⟩,"place",.input,.location⟩],
          [⟨"sight",⟨"sight"⟩⟩,⟨"place",⟨"place"⟩⟩]⟩,
        ⟨⟨"watch"⟩,"watch",⟨"watch"⟩,∅,
          [⟨.death,.transition,some ⟨"report"⟩⟩,⟨.combat,.ignore,none⟩],
          [⟨⟨"sight"⟩,"sight",.output,.text⟩,⟨⟨"place"⟩,"place",.output,.location⟩],[]⟩]
    transitions :=
      [⟨⟨"return"⟩,⟨"report"⟩,⟨"watch"⟩,.behaviorComplete,0,none⟩,
        ⟨⟨"relief"⟩,⟨"watch"⟩,⟨"report"⟩,.behaviorComplete,0,none⟩,
        ⟨⟨"fatigue"⟩,⟨"watch"⟩,⟨"report"⟩,.timer 1000,0,none⟩]
    dataConnections := weary.dataConnections.reverse }

theorem weary_rearranged : weary.Rearranged wearyReversed where
  states := ⟨weary.states.reverse,(List.reverse_perm _).symm,
    .cons ⟨_,.refl _,rfl⟩ (.cons ⟨_,List.Perm.swap _ _ _,rfl⟩ .nil)⟩
  transitions := by decide
  ties source priority := by
    simp only [weary,lookout,wearyReversed,List.cons_append,List.nil_append,List.filter_cons,
      List.filter_nil]
    by_cases hs : (⟨"report"⟩ : StateId) = source
    · subst hs
      simp
    · simp [hs]
  connections := (List.reverse_perm _).symm
  rest := rfl

open Replay in
theorem run_ignoresOrder_weary : weary.validate = .ok () ∧ weary.Rearranged wearyReversed ∧
    wearyReversed.validate = .ok () ∧
    run ⟨wearyReversed,lookout.budgets⟩ Replay.host none guardhouse =
      (run ⟨weary,lookout.budgets⟩ Replay.host none guardhouse).map
        fun r => (r.1.withDigest (some wearyReversed.hash),r.2) := by
  have hv : weary.validate = .ok () := by decide +kernel
  obtain ⟨hq,hrun⟩ := run_ignoresOrder weary wearyReversed hv weary_rearranged
  exact ⟨hv,weary_rearranged,hq,(hrun lookout.budgets Replay.host none guardhouse).1⟩

end Machine

end BehaviorMachine
