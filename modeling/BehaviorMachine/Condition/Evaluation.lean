import BehaviorMachine.Condition.Basic
import BehaviorMachine.Number.Saturating
import BehaviorMachine.Session
import BehaviorMachine.Text.Lowercase
import BehaviorMachine.World
/-!
When a condition holds. What cannot be evaluated does not hold: without a world nothing does, and
neither does a condition with an operator that its kind does not support.
-/
namespace BehaviorMachine

/-- The slots of a full inventory. -/
def inventoryCapacity : Nat := 36

/-- Names of the health resource, in any case. -/
def healthNames : List String := ["health", "hp"]

/-- Compare a measured quantity with a threshold, by one of the supported operators. -/
def Operator.compare (operator : Operator) (supported : List Operator) (left : Extended)
    (right : Binary64) : Bool :=
  decide (operator ∈ supported) &&
    match operator with
    | .greaterOrEqual => right.signedRank ≤ left.signedRank
    | .less => left.signedRank < right.signedRank
    | .lessOrEqual => left.signedRank ≤ right.signedRank
    | .equal => (left.finite?).any (·.agree right)
    | .unrecognized => false

namespace WorldSnapshot

/-- Occupied slots in percent of the inventory. -/
def inventoryPercent (w : WorldSnapshot) : Extended :=
  (Extended.ofRatio false w.occupiedSlots.toNat inventoryCapacity).scale 100

/-- The first health resource in percent of its base level, if that is positive. -/
def healthPercent? (w : WorldSnapshot) : Option Extended := do
  let health ← w.resources.find? fun r => healthNames.any (sameUpToAsciiCase r.name)
  if health.base.signedRank ≤ 0 then none
  else some ((Extended.div health.current health.base).scale 100)

/-- The items whose name contains a pattern, both in lower case. -/
def matchingItems (w : WorldSnapshot) (pattern : String) : List ItemStack :=
  let wanted := lowercase pattern
  w.items.filter fun item => occursIn wanted (lowercase item.name)

/-- The count of matching items, at most the greatest 32-bit word. -/
def itemTotal (w : WorldSnapshot) (pattern : String) : UInt32 :=
  (w.matchingItems pattern).foldl (fun total item => addSaturating32 total item.count) 0

/-- The level of the first skill of a name, up to the case of ASCII letters. -/
def skillLevel? (w : WorldSnapshot) (name : String) : Option Binary64 :=
  (w.skills.find? fun skill => sameUpToAsciiCase skill.name name).map SkillLevel.level

end WorldSnapshot

/-- Does a condition hold at a time, in a world, for a session? -/
def Condition.holds (c : Condition) (world : Option WorldSnapshot) (session : SessionState)
    (now : Timestamp) : Bool :=
  match world with
  | none => false
  | some w =>
    match c with
    | .behaviorComplete => session.subBehaviorComplete
    | .always => true
    | .timer duration => (now.millisSince session.enteredAt).any (duration ≤ ·)
    | .inventoryPercentFull operator value =>
      operator.compare Operator.forInventory w.inventoryPercent value
    | .healthPercent operator value =>
      w.healthPercent?.any (operator.compare Operator.forHealth · value)
    | .itemCount pattern operator value =>
      operator.compare Operator.forItemCount
        (.finite (.ofWord false (w.itemTotal pattern).toUInt64)) value
    | .skillLevel name operator value =>
      (w.skillLevel? name).any fun level =>
        operator.compare Operator.forSkill (.finite level) value
    | .unrecognized => false

end BehaviorMachine
