import BehaviorMachine.Host.Event
import BehaviorMachine.Host.Script
import BehaviorMachine.Number.Saturating
/-!
A host that replays a script on a logical clock. Each granted tick moves the clock on; a wait beyond
the script's budget is denied, so every simulation ends. What happens to behaviors is recorded.
-/
namespace BehaviorMachine

/-- The state of a host that replays a script. -/
structure Replay where
  tickMs : UInt64
  maxTicks : UInt64
  startMs : UInt64
  /-- The ticks granted so far. -/
  tick : UInt64
  world : Option WorldSnapshot
  /-- The frames still to come, by tick. -/
  frames : List WorldFrame
  /-- The interrupts not yet delivered, by tick. -/
  interrupts : List ScheduledInterrupt
  behaviors : NameMap BehaviorScript
  /-- The recorded events, newest first. -/
  recorded : List HostEvent

/-- A live behavior that follows a script. -/
structure ScriptedBehavior where
  name : BehaviorName
  script : BehaviorScript
  /-- The steps taken so far. -/
  steps : UInt32

namespace ScriptedBehavior

/-- The writes that are due at the latest step. -/
def dueWrites (b : ScriptedBehavior) : List (String × ParamValue) :=
  (b.script.writes.filter fun w => w.atStep.all (· = b.steps)).map fun w => (w.port, w.value)

/-- How the latest step ends, once the parameters have been found. -/
def result (b : ScriptedBehavior) : StepResult :=
  if b.script.failAtStep = some b.steps then
    .failed (.failed s!"{b.name} failed at step {b.steps}")
  else if b.script.stepsToComplete.any (· ≤ b.steps) then .completed
  else .running

end ScriptedBehavior

namespace Replay

/-- Pass the frames whose tick has been reached; the last of them gives the world. -/
def applyFrames (r : Replay) : Replay :=
  let due := r.frames.takeWhile (·.atTick ≤ r.tick)
  { r with
    world := (due.getLast?.map WorldFrame.world).or r.world
    frames := r.frames.dropWhile (·.atTick ≤ r.tick) }

/-- The start of a script. Frames and interrupts of one tick keep their order. -/
def start (script : HostScript) : Replay :=
  applyFrames
    { tickMs := script.tickMs
      maxTicks := script.maxTicks
      startMs := script.startMs
      tick := 0
      world := script.world
      frames := script.worldFrames.mergeSort fun a b => a.atTick ≤ b.atTick
      interrupts := script.interrupts.mergeSort fun a b => a.atTick ≤ b.atTick
      behaviors := script.behaviors
      recorded := [] }

/-- Move the time at tick zero. -/
def startingAt (r : Replay) (startMs : UInt64) : Replay := { r with startMs }

/-- The recorded events in order. -/
def events (r : Replay) : List HostEvent := r.recorded.reverse

def record (r : Replay) (event : HostEvent) : Replay :=
  { r with recorded := event :: r.recorded }

def now (r : Replay) : Timestamp :=
  .logical (addSaturating r.startMs (mulSaturating r.tick r.tickMs))

def wait (ticks : UInt32) (r : Replay) : Bool × Replay :=
  let next := addSaturating r.tick ticks.toUInt64
  if r.maxTicks < next then (false, r) else (true, applyFrames { r with tick := next })

def poll (r : Replay) : Option Interrupt × Replay :=
  match r.interrupts with
  | [] => (none, r)
  | i :: rest =>
    if i.atTick ≤ r.tick then (some ⟨i.type⟩, { r with interrupts := rest }) else (none, r)

/-- Resuming goes on after the steps that the token counts. -/
def resolve (name : BehaviorName) (token : Option ResumeToken) (r : Replay) :
    Option ScriptedBehavior × Replay :=
  match r.behaviors.get? name.text with
  | none => (none, r)
  | some script =>
    let resumedFrom := token.bind ResumeToken.step?
    (some ⟨name, script, resumedFrom.getD 0⟩, r.record (.resolved name resumedFrom))

def step (context : StepContext) (b : ScriptedBehavior) (r : Replay) :
    PortProgram (StepResult × ScriptedBehavior × Replay) :=
  let b := { b with steps := addSaturating32 b.steps 1 }
  let r := r.record (.stepped context.state b.name b.steps context.params)
  match b.script.requiredParams.find? fun name => (context.params.get? name).isNone with
  | some missing => .done (.failed (.invalidParams s!"{b.name} requires {missing}"), b, r)
  | none => .writing (b.result, b, r) b.dueWrites

def pause (b : ScriptedBehavior) (r : Replay) : Option ResumeToken × Replay :=
  (some (.ofStep b.steps), r.record (.paused b.name b.steps))

def cancel (b : ScriptedBehavior) (r : Replay) : Replay := r.record (.cancelled b.name b.steps)

/-- The host that replays scripts. -/
def host : Host Replay ScriptedBehavior where
  resolve name _ token r := r.resolve name token
  wait := wait
  poll := poll
  world := Replay.world
  now := now
  step := step
  pause := pause
  cancel := cancel

end Replay

end BehaviorMachine
