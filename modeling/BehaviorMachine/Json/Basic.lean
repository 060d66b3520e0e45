import BehaviorMachine.NameMap
import BehaviorMachine.Number.Decimal
/-!
JSON values. Object members keep their order and their repetitions, because documents refuse some
repetitions and let the last member count elsewhere. A plain value has neither repetitions nor
unreadable parts.
-/
namespace BehaviorMachine

/-- A number is whole if it is written so and fits a 64-bit word, and binary64 otherwise. -/
inductive Json.Number where
  | natural (n : UInt64)
  /-- The whole number `-(n + 1)`. -/
  | negative (n : Fin 0x8000000000000000)
  | real (x : Binary64)
  deriving DecidableEq

inductive Json where
  | null
  | bool (b : Bool)
  | number (n : Json.Number)
  | string (s : String)
  | array (items : List Json)
  | object (members : List (String × Json))
  /-- Text that follows the grammar and stands for no value: a string with half a surrogate pair, a
  number beyond binary64, or nesting beyond the limit. -/
  | unreadable

namespace Json

instance : Inhabited Json := ⟨.null⟩

/-- Numbers are read as binary64 wherever a measured quantity is wanted. -/
def Number.toBinary64 : Number → Binary64
  | .natural n => .ofWord false n
  | .negative n => .ofWord true (.ofNat (n.val + 1))
  | .real x => x

mutual

/-- No part is unreadable. -/
def readable : Json → Bool
  | .unreadable => false
  | .array items => readableItems items
  | .object members => readableMembers members
  | _ => true

def readableItems : List Json → Bool
  | [] => true
  | v :: rest => v.readable && readableItems rest

def readableMembers : List (String × Json) → Bool
  | [] => true
  | (_, v) :: rest => v.readable && readableMembers rest

end

mutual

/-- No part is unreadable, and the members of each object ascend. -/
def isPlain : Json → Bool
  | .unreadable => false
  | .array items => plainItems items
  | .object members => decide (Ascending members) && plainMembers members
  | _ => true

def plainItems : List Json → Bool
  | [] => true
  | v :: rest => v.isPlain && plainItems rest

def plainMembers : List (String × Json) → Bool
  | [] => true
  | (_, v) :: rest => v.isPlain && plainMembers rest

end

mutual

/-- Order the members of each object; of repeated members the last counts. -/
def sorted : Json → Json
  | .array items => .array (sortedItems items)
  | .object members => .object (NameMap.ofList (sortedMembers members)).entries
  | v => v

def sortedItems : List Json → List Json
  | [] => []
  | v :: rest => v.sorted :: sortedItems rest

def sortedMembers : List (String × Json) → List (String × Json)
  | [] => []
  | (n, v) :: rest => (n, v.sorted) :: sortedMembers rest

end

/-- The member of a name in an object; of repeated members the last counts. -/
def member? (name : String) : Json → Option Json
  | .object members => (members.reverse.find? (·.1 = name)).map Prod.snd
  | _ => none

end Json

end BehaviorMachine
