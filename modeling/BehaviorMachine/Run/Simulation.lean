import BehaviorMachine.Run.Loop
/-!
Simulating a profile: a run on a scripted host, reported with its events.
-/
namespace BehaviorMachine

structure SimulationReport where
  outcome : RunOutcome
  /-- The ticks that the host granted. -/
  ticksElapsed : UInt64
  events : List HostEvent

def SimulationReport.toJson (r : SimulationReport) : Json :=
  .object [("outcome", r.outcome.toJson), ("ticksElapsed", Json.ofUInt64 r.ticksElapsed),
    ("events", Json.ofList HostEvent.toJson r.events)]

/-- Time does not go back when a session is resumed: its clock starts no earlier than the state was
entered. -/
def simulationStart (script : HostScript) (session : Option SessionState) : UInt64 :=
  match session.bind (·.enteredAt.logical?) with
  | some entered => if entered < script.startMs then script.startMs else entered
  | none => script.startMs

/-- Run a machine on a script. None if the run does not end. -/
def Machine.simulate (m : Machine) (script : HostScript) (session : Option SessionState) :
    Option SimulationReport :=
  let start := (Replay.start script).startingAt (simulationStart script session)
  (m.run Replay.host session start).map fun (outcome, host) => ⟨outcome, host.tick, host.events⟩

end BehaviorMachine
