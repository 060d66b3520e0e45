import BehaviorMachine.Json.Record
/-!
Identifiers are opaque texts, and those of different kinds do not mix. Nothing assumes that an
identifier resolves: a miss is a dangling reference, not an error.
-/
namespace BehaviorMachine

/-- What an identifier names. -/
inductive IdKind where
  | profile
  | state
  | transition
  | port
  | connection
  | run
  | behavior
  deriving DecidableEq

structure Identifier (kind : IdKind) where
  text : String
  deriving DecidableEq

abbrev ProfileId := Identifier .profile
abbrev StateId := Identifier .state
abbrev TransitionId := Identifier .transition
abbrev PortId := Identifier .port
abbrev ConnectionId := Identifier .connection
abbrev RunId := Identifier .run

/-- The name under which a host knows a behavior. -/
abbrev BehaviorName := Identifier .behavior

namespace Identifier

variable {kind : IdKind}

theorem text_inj {a b : Identifier kind} : a.text = b.text ↔ a = b := by
  cases a
  cases b
  simp

/-- Identifiers are ordered by code points. -/
instance : Ord (Identifier kind) := ⟨fun a b => compare a.text b.text⟩

instance : ToString (Identifier kind) := ⟨Identifier.text⟩

def toJson (id : Identifier kind) : Json := .string id.text

def ofJson? (v : Json) : Option (Identifier kind) := v.asString?.map .mk

end Identifier

end BehaviorMachine
