import BehaviorMachine.Host.Replay
import BehaviorMachine.Run.Step
/-!
Runs from their beginning to their end.
-/
namespace BehaviorMachine

namespace Machine

variable {σ β : Type}

/-- A fresh session in the profile's initial state. -/
def freshSession (m : Machine) (now : Timestamp) : SessionState :=
  { SessionState.start m.profile.initialStateId now with profileHash := some m.profile.hash }

/-- A stored session, with the profile's digest if it has none. -/
def resumedSession (m : Machine) (session : SessionState) : SessionState :=
  { session with profileHash := session.profileHash.or (some m.profile.hash) }

/-- Prepare a run from a stored session or a fresh one. -/
def begin (m : Machine) (h : Host σ β) (session : Option SessionState) (host : σ) :
    Execution σ β where
  host := host
  session :=
    match session with
    | some session => m.resumedSession session
    | none => m.freshSession (h.now host)
  active := none
  changes := []
  changesSinceWait := 0

/-- Go on until the run ends; none if it does not. -/
def loop (m : Machine) (h : Host σ β) (x : Execution σ β) : Option (RunOutcome × σ) :=
  match m.step h x with
  | (.again, x) => m |>.loop h x
  | (.exit status, x) => some (x.finish h status)
partial_fixpoint

/-- Run until the session suspends, idles, or terminates. -/
def run (m : Machine) (h : Host σ β) (session : Option SessionState) (host : σ) :
    Option (RunOutcome × σ) :=
  m.loop h (m.begin h session host)

end Machine

end BehaviorMachine
