import BehaviorMachine.Proofs.Run.Course
import Mathlib.Data.List.Chain

/-!
# Episodes of a session

A session lives through the runs that take it up one after the other. Every run is an episode with
a host and budgets of its own, and the session that it leaves is the one that the next begins with.
-/
namespace BehaviorMachine

/-- A run of a profile that has ended. -/
structure Episode (p : Profile) where
  {σ β : Type}
  budgets : Budgets
  host : Host σ β
  session : Option SessionState
  before : σ
  outcome : RunOutcome
  after : σ
  run_eq : Machine.run ⟨p,budgets⟩ host session before = some (outcome,after)

/-- Each run begins with the session that the one before has left. -/
def Consecutive {p : Profile} (episodes : List (Episode p)) : Prop :=
  episodes.IsChain fun e e' => e'.session = some e.outcome.session

namespace Episode

open Machine

variable {p : Profile}

def machine (e : Episode p) : Machine := ⟨p,e.budgets⟩

def start (e : Episode p) : Execution e.σ e.β := e.machine.begin e.host e.session e.before

theorem last_iteration (e : Episode p) : ∃ n, e.machine.Lasts e.host n e.start ∧
    (e.machine.after e.host (n+1) e.start).session = e.outcome.session ∧
    (e.machine.after e.host (n+1) e.start).history = e.outcome.history := by
  obtain ⟨n,status,hl,-,hf⟩ := loop_eq_some_iff.mp e.run_eq
  have ho := congrArg Prod.fst hf
  refine ⟨n,hl,?_,?_⟩
  · exact congrArg RunOutcome.session ho
  · exact congrArg RunOutcome.history ho

def ofLasts {σ β : Type} (m : Machine) (h : Host σ β) (session : Option SessionState) (host : σ)
    (n : Nat) (status : RunStatus) (hl : m.Lasts h n (m.begin h session host))
    (he : (m.step h (m.after h n (m.begin h session host))).1 = .exit status) :
    Episode m.profile where
  budgets := m.budgets
  host := h
  session := session
  before := host
  outcome := ((m.after h (n+1) (m.begin h session host)).finish h status).1
  after := ((m.after h (n+1) (m.begin h session host)).finish h status).2
  run_eq := run_of_lasts m h session host n status hl he

/-- A watch of the sentry that is cut short: the wait after its second step is denied. -/
def watch : Episode sentry.profile :=
  ofLasts sentry Replay.host none { Replay.guardhouse with maxTicks := 1 } 1
    (.suspended .hostDenied) (by decide +kernel) (by decide +kernel)

/-- The sentry is relieved when his session is taken up again. -/
def relief : Episode sentry.profile :=
  ofLasts sentry Replay.host (some watch.outcome.session) Replay.guardhouse 4
    (.suspended .hostDenied) (by decide +kernel) (by decide +kernel)

end Episode

end BehaviorMachine
