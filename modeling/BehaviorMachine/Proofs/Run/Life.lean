import BehaviorMachine.Proofs.Run.Episode
import BehaviorMachine.Proofs.Run.Observation
import Mathlib.Logic.Relation

/-!
# The life of a session

A session goes on by the iterations of its run. When the run has ended the session may be taken up
again, on another host and with other budgets. `Onward` is one step of such a life, and any runs of
one session belong to it (`life_of_episodes`).
-/
namespace BehaviorMachine

/-- A moment in the life of a session: the run that it is in, and the calls of the runs before. -/
structure Moment (p : Profile) where
  {σ β : Type}
  budgets : Budgets
  host : Host σ β
  past : List Call
  now : Execution (Observed σ) (Nat × β)
  /-- What follows for the run. -/
  flow : Flow

namespace Moment

variable {p : Profile} {σ β : Type}

def machine (t : Moment p) : Machine := ⟨p,t.budgets⟩

def calls (t : Moment p) : List Call := t.past ++ t.now.host.calls

def begin (p : Profile) (budgets : Budgets) (h : Host σ β) (past : List Call)
    (session : Option SessionState) (host : σ) : Moment p where
  budgets := budgets
  host := h
  past := past
  now := Machine.begin ⟨p,budgets⟩ h.observed session (.start host)
  flow := .again

def next (t : Moment p) : Moment p :=
  { t with
    now := (t.machine.step t.host.observed t.now).2
    flow := (t.machine.step t.host.observed t.now).1 }

def resumed {τ γ : Type} (t : Moment p) (status : RunStatus) (budgets : Budgets) (h : Host τ γ)
    (host : τ) : Moment p :=
  let (outcome,left) := t.now.finish t.host.observed status
  begin p budgets h (t.past ++ left.calls) (some outcome.session) host

theorem resumed_eq {τ γ : Type} (t : Moment p) (status : RunStatus) (budgets : Budgets)
    (h : Host τ γ) (host : τ) : t.resumed status budgets h host =
      begin p budgets h (t.past ++ (t.now.cancel t.host.observed).host.calls) (some t.now.session)
        host :=
  rfl

/-- One step of a session's life: an iteration of its run, or the beginning of another run. -/
inductive Onward : Moment p → Moment p → Prop where
  | iterate {t : Moment p} (hf : t.flow = .again) : Onward t t.next
  | resume {t : Moment p} {status : RunStatus} (hf : t.flow = .exit status) (budgets : Budgets)
      {σ β : Type} (h : Host σ β) (host : σ) : Onward t (t.resumed status budgets h host)

abbrev Life : Moment p → Moment p → Prop := Relation.ReflTransGen Onward

theorem life_after (budgets : Budgets) (h : Host σ β) (past : List Call) {n : Nat}
    {x : Execution (Observed σ) (Nat × β)} (hl : Machine.Lasts ⟨p,budgets⟩ h.observed n x) :
    Life (p := p) ⟨budgets,h,past,x,.again⟩
      ⟨budgets,h,past,Machine.after ⟨p,budgets⟩ h.observed n x,.again⟩ := by
  induction n with
  | zero => exact .refl
  | succ n ih =>
    have hagain := hl n (Nat.lt_succ_self n)
    have hstep := Onward.iterate (p := p)
      (t := ⟨budgets,h,past,Machine.after ⟨p,budgets⟩ h.observed n x,.again⟩) rfl
    rw [next,machine] at hstep
    simp only [hagain] at hstep
    exact (ih (Machine.lasts_mono (Nat.le_succ n) hl)).tail hstep

/-- A run that ends leaves its session at a moment of the life that begins with it. -/
theorem life_of_run {budgets : Budgets} {h : Host σ β} {session : Option SessionState} {host : σ}
    {o : RunOutcome} {left : σ} (past : List Call)
    (hr : Machine.run ⟨p,budgets⟩ h session host = some (o,left)) :
    ∃ now, Life (begin p budgets h past session host) ⟨budgets,h,past,now,.exit o.status⟩ ∧
      now.session = o.session ∧ now.history = o.history := by
  rw [Machine.run_observed,Option.map_eq_some_iff] at hr
  obtain ⟨⟨o',r⟩,hr,he⟩ := hr
  obtain rfl : o' = o := congrArg Prod.fst he
  obtain ⟨n,status,hl,hexit,hf⟩ := Machine.loop_eq_some_iff.mp hr
  have ho := congrArg Prod.fst hf
  obtain rfl : status = o'.status := congrArg RunOutcome.status ho
  refine ⟨_,(life_after budgets h past hl).tail ?_,congrArg RunOutcome.session ho,
    congrArg RunOutcome.history ho⟩
  have hstep := Onward.iterate (p := p) (t := ⟨budgets,h,past,Machine.after ⟨p,budgets⟩ h.observed n
    (Machine.begin ⟨p,budgets⟩ h.observed session (.start host)),.again⟩) rfl
  rw [next,machine] at hstep
  simp only [hexit] at hstep
  exact hstep

/-- A session lives through consecutive runs. -/
theorem life_of_episodes {e : Episode p} {later : List (Episode p)}
    (hc : Consecutive (e :: later)) (past : List Call) :
    ∃ t, Life (begin p e.budgets e.host past e.session e.before) t ∧
      t.flow = .exit (later.getLast?.getD e).outcome.status ∧
      t.now.session = (later.getLast?.getD e).outcome.session := by
  induction later generalizing e past with
  | nil =>
    obtain ⟨now,hl,hs,-⟩ := life_of_run past e.run_eq
    exact ⟨_,hl,rfl,hs⟩
  | cons next later ih =>
    obtain ⟨hnext,hc⟩ := List.isChain_cons_cons.mp hc
    obtain ⟨now,hl,hs,-⟩ := life_of_run past e.run_eq
    have hresume := hl.tail (.resume rfl next.budgets next.host next.before)
    rw [resumed_eq] at hresume
    dsimp only at hresume
    rw [hs,← hnext] at hresume
    obtain ⟨t,ht,hflow,hsession⟩ := ih hc _
    refine ⟨t,hresume.trans ht,?_,?_⟩
    · rw [List.getLast?_cons]
      exact hflow
    · rw [List.getLast?_cons]
      exact hsession

end Moment

end BehaviorMachine
