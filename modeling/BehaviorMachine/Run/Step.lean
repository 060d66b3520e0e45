import BehaviorMachine.Condition.Evaluation
import BehaviorMachine.Host.Basic
import BehaviorMachine.Run.Basic
/-!
One iteration of a run. It handles at most one interrupt, then takes the first transition whose
condition holds, and otherwise advances the behavior of the current state by one step and waits.
Nothing is an error: every iteration ends in a state change, a wait, or the end of the run.
-/
namespace BehaviorMachine

/-- A profile together with its budgets, ready to run. -/
structure Machine where
  profile : Profile
  budgets : Budgets

/-- The reaction to an interrupt. -/
inductive Reaction where
  | enter (target : StateId)
  | pause
  | ignore
  deriving DecidableEq

namespace Profile

/-- An interrupt that is not handled properly pauses the run; only an explicit handler ignores it. -/
def reaction (p : Profile) (s : StateSpec) (type : InterruptType) : Reaction :=
  if type = .unrecognized then .pause
  else
    match s.handler? type with
    | none => .pause
    | some handler =>
      match handler.action, handler.targetStateId with
      | .ignore, _ => .ignore
      | .transition, some target => if (p.state? target).isSome then .enter target else .pause
      | _, _ => .pause

/-- The transition that fires: the first in evaluation order whose target exists and whose condition
holds. -/
def firing? (p : Profile) (s : StateSpec) (world : Option WorldSnapshot) (session : SessionState)
    (now : Timestamp) : Option Transition :=
  (p.outgoing s.id).find? fun t =>
    (p.state? t.toStateId).isSome && t.condition.holds world session now

end Profile

/-- A run in progress, on a host with states `σ` and live behaviors `β`. -/
structure Execution (σ β : Type) where
  host : σ
  session : SessionState
  /-- The live behavior of the current state. -/
  active : Option β
  /-- The state changes so far, newest first. -/
  changes : List StateChange
  /-- State changes since the last wait. -/
  changesSinceWait : UInt32

/-- What follows an iteration. -/
inductive Flow where
  | again
  | exit (status : RunStatus)
  deriving DecidableEq

namespace Execution

variable {σ β : Type}

/-- The state changes so far, in order. -/
def history (x : Execution σ β) : List StateChange := x.changes.reverse

def wait (h : Host σ β) (ticks : UInt32) (x : Execution σ β) : Bool × Execution σ β :=
  let (granted, host) := h.wait ticks x.host
  (granted, { x with host })

/-- Cancel the live behavior. -/
def cancel (h : Host σ β) (x : Execution σ β) : Execution σ β :=
  match x.active with
  | some b => { x with host := h.cancel b x.host, active := none }
  | none => x

/-- Pause the live behavior and keep its token. -/
def pause (h : Host σ β) (x : Execution σ β) : Execution σ β :=
  match x.active with
  | some b =>
    let (token, host) := h.pause b x.host
    { x with host, active := none, session := { x.session with resumeToken := token } }
  | none => x

def suspend (h : Host σ β) (reason : SuspendReason) (x : Execution σ β) : Flow × Execution σ β :=
  (.exit (.suspended reason), x.pause h)

/-- Leave a state for another one. -/
def enter (h : Host σ β) (source target : StateId) (cause : ChangeCause) (now : Timestamp)
    (x : Execution σ β) : Execution σ β :=
  let x := x.cancel h
  { x with
    session := x.session.enter target now
    changes := ⟨source, target, cause, now, x.session.ticksInState⟩ :: x.changes
    changesSinceWait := addSaturating32 x.changesSinceWait 1 }

/-- End a run: the live behavior, if there is one, is cancelled. -/
def finish (h : Host σ β) (status : RunStatus) (x : Execution σ β) : RunOutcome × σ :=
  (⟨status, x.session, x.history⟩, (x.cancel h).host)

end Execution

namespace Machine

open Execution

variable {σ β : Type}

/-- The live behavior of a state. It is resolved if there is none, with the token of the session,
which is then used up. -/
def obtain (h : Host σ β) (s : StateSpec) (params : BehaviorParams) (x : Execution σ β) :
    Option β × Execution σ β :=
  match x.active with
  | some b => (some b, x)
  | none =>
    match h.resolve s.behaviorName params x.session.resumeToken x.host with
    | (none, host) => (none, { x with host })
    | (some b, host) => (some b, { x with host, session := { x.session with resumeToken := none } })

/-- Advance a behavior by one step. A failure counts as completion. -/
def advance (h : Host σ β) (s : StateSpec) (params : BehaviorParams) (b : β) (x : Execution σ β) :
    Execution σ β :=
  let context : StepContext := ⟨s.id, params, x.session.ticksInState⟩
  let ((result, b, host), portValues) := (h.step context b x.host).run s x.session.portValues
  match result with
  | .running => { x with host, active := some b, session := { x.session with portValues } }
  | _ =>
    { x with
      host
      active := none
      session := { x.session with portValues, subBehaviorComplete := true } }

/-- Drive the behavior of a state, and tell how long to wait then. -/
def drive (m : Machine) (h : Host σ β) (s : StateSpec) (x : Execution σ β) :
    UInt32 × Execution σ β :=
  let params := m.profile.effectiveParams s x.session.portValues
  match obtain h s params x with
  | (none, x) => (m.budgets.retryWaitTicks, x)
  | (some b, x) => (m.budgets.yieldTicks, advance h s params b x)

/-- The last part of an iteration: drive the behavior unless it has completed, and wait. -/
def work (m : Machine) (h : Host σ β) (s : StateSpec) (x : Execution σ β) : Flow × Execution σ β :=
  let (ticks, x) :=
    if x.session.subBehaviorComplete then (m.budgets.idleWaitTicks, x) else m.drive h s x
  match wait h ticks { x with changesSinceWait := 0 } with
  | (false, x) => x.suspend h .hostDenied
  | (true, x) =>
    let ticksInState := addSaturating x.session.ticksInState 1
    (.again, { x with session := { x.session with ticksInState } })

/-- Take the transition that fires, or work on. -/
def transit (m : Machine) (h : Host σ β) (s : StateSpec) (x : Execution σ β) :
    Flow × Execution σ β :=
  let now := h.now x.host
  match m.profile.firing? s (h.world x.host) x.session now with
  | some t => (.again, x.enter h s.id t.toStateId (.transition t.id) now)
  | none => m.work h s x

/-- React to a pending interrupt. -/
def react (m : Machine) (h : Host σ β) (s : StateSpec) (x : Execution σ β) : Flow × Execution σ β :=
  match h.poll x.host with
  | (none, host) => m.transit h s { x with host }
  | (some interrupt, host) =>
    let x := { x with host }
    match m.profile.reaction s interrupt.type with
    | .enter target =>
      (.again, x.enter h s.id target (.interrupt interrupt.type) (h.now x.host))
    | .pause => x.suspend h (.interrupt interrupt.type)
    | .ignore => m.transit h s x

/-- Yield to the host first if the budget of state changes is spent. -/
def visit (m : Machine) (h : Host σ β) (s : StateSpec) (x : Execution σ β) : Flow × Execution σ β :=
  if m.budgets.maxTransitionsPerTick ≤ x.changesSinceWait then
    match wait h m.budgets.yieldTicks { x with changesSinceWait := 0 } with
    | (false, x) => x.suspend h .hostDenied
    | (true, x) => m.react h s x
  else m.react h s x

/-- One iteration of a run. -/
def step (m : Machine) (h : Host σ β) (x : Execution σ β) : Flow × Execution σ β :=
  match x.session.currentStateId with
  | none => (.exit .idle, x)
  | some id =>
    match m.profile.state? id with
    | none => (.exit (.terminated id), x)
    | some s => m.visit h s x

end Machine

end BehaviorMachine
