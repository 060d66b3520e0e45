import BehaviorMachine.Json.Record
/-!
The part of an agent's surroundings that conditions look at.
-/
namespace BehaviorMachine

/-- The current and the base level of a resource such as health. -/
structure ResourceLevel where
  name : String
  current : Binary64
  base : Binary64
  deriving DecidableEq

structure ItemStack where
  name : String
  count : UInt32
  deriving DecidableEq

structure SkillLevel where
  name : String
  level : Binary64
  deriving DecidableEq

structure WorldSnapshot where
  occupiedSlots : UInt32
  resources : List ResourceLevel
  items : List ItemStack
  skills : List SkillLevel
  deriving DecidableEq

namespace ResourceLevel

def toJson (r : ResourceLevel) : Json :=
  .object [("name", .string r.name), ("current", Json.ofBinary64 r.current),
    ("base", Json.ofBinary64 r.base)]

def ofJson? (v : Json) : Option ResourceLevel := do
  let [name, current, base] ← v.fields? ["name", "current", "base"] | none
  let name ← Json.required name Json.asString?
  let current ← Json.required current Json.asBinary64?
  let base ← Json.required base Json.asBinary64?
  return ⟨name, current, base⟩

end ResourceLevel

namespace ItemStack

def toJson (i : ItemStack) : Json :=
  .object [("name", .string i.name), ("count", Json.ofUInt32 i.count)]

def ofJson? (v : Json) : Option ItemStack := do
  let [name, count] ← v.fields? ["name", "count"] | none
  let name ← Json.required name Json.asString?
  let count ← Json.required count Json.asUInt32?
  return ⟨name, count⟩

end ItemStack

namespace SkillLevel

def toJson (s : SkillLevel) : Json :=
  .object [("name", .string s.name), ("level", Json.ofBinary64 s.level)]

def ofJson? (v : Json) : Option SkillLevel := do
  let [name, level] ← v.fields? ["name", "level"] | none
  let name ← Json.required name Json.asString?
  let level ← Json.required level Json.asBinary64?
  return ⟨name, level⟩

end SkillLevel

namespace WorldSnapshot

def empty : WorldSnapshot := ⟨0, [], [], []⟩

def toJson (w : WorldSnapshot) : Json :=
  .object [("occupiedSlots", Json.ofUInt32 w.occupiedSlots),
    ("resources", Json.ofList ResourceLevel.toJson w.resources),
    ("items", Json.ofList ItemStack.toJson w.items),
    ("skills", Json.ofList SkillLevel.toJson w.skills)]

/-- Every part may be missing and is empty then. -/
def ofJson? (v : Json) : Option WorldSnapshot := do
  let [slots, resources, items, skills] ←
    v.fields? ["occupiedSlots", "resources", "items", "skills"] | none
  let slots ← Json.defaulted 0 slots Json.asUInt32?
  let resources ← Json.defaulted [] resources (Json.asList? ResourceLevel.ofJson?)
  let items ← Json.defaulted [] items (Json.asList? ItemStack.ofJson?)
  let skills ← Json.defaulted [] skills (Json.asList? SkillLevel.ofJson?)
  return ⟨slots, resources, items, skills⟩

end WorldSnapshot

end BehaviorMachine
