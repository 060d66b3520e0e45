import BehaviorMachine.Host.Basic
/-!
Scripts for hosts: a clock, a budget of ticks, worlds and interrupts by tick, and behaviors by name.
-/
namespace BehaviorMachine

/-- A world that replaces the present one when its tick is reached. -/
structure WorldFrame where
  atTick : UInt64
  world : WorldSnapshot
  deriving DecidableEq

/-- An interrupt that is pending from a tick on. -/
structure ScheduledInterrupt where
  atTick : UInt64
  type : InterruptType
  deriving DecidableEq

/-- A write to an output port at one step, or at every step. -/
structure PortWriteScript where
  port : String
  value : ParamValue
  atStep : Option UInt32
  deriving DecidableEq

structure BehaviorScript where
  /-- None for a behavior that runs forever. -/
  stepsToComplete : Option UInt32
  failAtStep : Option UInt32
  /-- Parameters that have to be there at every step. -/
  requiredParams : List String
  writes : List PortWriteScript
  deriving DecidableEq

structure HostScript where
  /-- Logical milliseconds per tick. -/
  tickMs : UInt64
  /-- The ticks that are granted in all. -/
  maxTicks : UInt64
  /-- The time at tick zero. -/
  startMs : UInt64
  /-- The world at the start; none withholds it from conditions. -/
  world : Option WorldSnapshot
  worldFrames : List WorldFrame
  interrupts : List ScheduledInterrupt
  behaviors : NameMap BehaviorScript
  deriving DecidableEq

namespace WorldFrame

def toJson (f : WorldFrame) : Json :=
  .object [("atTick", Json.ofUInt64 f.atTick), ("world", f.world.toJson)]

def ofJson? (v : Json) : Option WorldFrame := do
  let [atTick, world] ← v.fields? ["atTick", "world"] | none
  return ⟨← Json.required atTick Json.asUInt64?, ← Json.required world WorldSnapshot.ofJson?⟩

end WorldFrame

namespace ScheduledInterrupt

def toJson (i : ScheduledInterrupt) : Json :=
  .object [("atTick", Json.ofUInt64 i.atTick), ("type", i.type.toJson)]

def ofJson? (v : Json) : Option ScheduledInterrupt := do
  let [atTick, type] ← v.fields? ["atTick", "type"] | none
  return ⟨← Json.required atTick Json.asUInt64?, ← Json.required type InterruptType.ofJson?⟩

end ScheduledInterrupt

namespace PortWriteScript

def toJson (w : PortWriteScript) : Json :=
  .object [("port", .string w.port), ("value", w.value.toJson),
    ("atStep", Json.ofOption Json.ofUInt32 w.atStep)]

def ofJson? (v : Json) : Option PortWriteScript := do
  let [port, value, atStep] ← v.fields? ["port", "value", "atStep"] | none
  return ⟨← Json.required port Json.asString?, ← Json.required value ParamValue.ofJson?,
    ← Json.optional atStep Json.asUInt32?⟩

end PortWriteScript

namespace BehaviorScript

def toJson (b : BehaviorScript) : Json :=
  .object [("stepsToComplete", Json.ofOption Json.ofUInt32 b.stepsToComplete),
    ("failAtStep", Json.ofOption Json.ofUInt32 b.failAtStep),
    ("requiredParams", Json.ofList Json.string b.requiredParams),
    ("writes", Json.ofList PortWriteScript.toJson b.writes)]

def ofJson? (v : Json) : Option BehaviorScript := do
  let [steps, failAt, required, writes] ←
    v.fields? ["stepsToComplete", "failAtStep", "requiredParams", "writes"] | none
  return ⟨← Json.optional steps Json.asUInt32?, ← Json.optional failAt Json.asUInt32?,
    ← Json.defaulted [] required (Json.asList? Json.asString?),
    ← Json.defaulted [] writes (Json.asList? PortWriteScript.ofJson?)⟩

end BehaviorScript

namespace HostScript

/-- A thousand ticks of a tenth of a second in an empty world. -/
def empty : HostScript := ⟨100, 1000, 0, some .empty, [], [], ∅⟩

def toJson (s : HostScript) : Json :=
  .object [("tickMs", Json.ofUInt64 s.tickMs), ("maxTicks", Json.ofUInt64 s.maxTicks),
    ("startMs", Json.ofUInt64 s.startMs), ("world", Json.ofOption WorldSnapshot.toJson s.world),
    ("worldFrames", Json.ofList WorldFrame.toJson s.worldFrames),
    ("interrupts", Json.ofList ScheduledInterrupt.toJson s.interrupts),
    ("behaviors", Json.ofMap BehaviorScript.toJson s.behaviors)]

/-- A missing world is an empty one, while null stands for none. -/
def world? : Option Json → Option (Option WorldSnapshot)
  | none => some empty.world
  | v => Json.optional v WorldSnapshot.ofJson?

def ofJson? (v : Json) : Option HostScript := do
  let [tickMs, maxTicks, startMs, world, frames, interrupts, behaviors] ← v.fields? ["tickMs",
    "maxTicks", "startMs", "world", "worldFrames", "interrupts", "behaviors"] | none
  return ⟨← Json.defaulted empty.tickMs tickMs Json.asUInt64?,
    ← Json.defaulted empty.maxTicks maxTicks Json.asUInt64?,
    ← Json.defaulted empty.startMs startMs Json.asUInt64?,
    ← world? world,
    ← Json.defaulted [] frames (Json.asList? WorldFrame.ofJson?),
    ← Json.defaulted [] interrupts (Json.asList? ScheduledInterrupt.ofJson?),
    ← Json.defaulted ∅ behaviors (Json.asMap? BehaviorScript.ofJson?)⟩

end HostScript

end BehaviorMachine
