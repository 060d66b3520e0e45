import BehaviorMachine.Json.Record
/-!
Timestamps are supplied by hosts; nothing here reads a clock. Times of different clocks are not
comparable.
-/
namespace BehaviorMachine

inductive Timestamp where
  | unixMillis (millis : Int64)
  | logical (millis : UInt64)
  deriving DecidableEq

namespace Timestamp

instance : Inhabited Timestamp := ⟨.logical 0⟩

def logical? : Timestamp → Option UInt64
  | .unixMillis _ => none
  | .logical millis => some millis

/-- The milliseconds since an earlier time of the same clock, if they fit the clock's word. -/
def millisSince (now earlier : Timestamp) : Option UInt64 :=
  match now, earlier with
  | .unixMillis now, .unixMillis earlier =>
    let elapsed := now.toInt - earlier.toInt
    if 0 ≤ elapsed ∧ elapsed ≤ Int64.maxValue.toInt then some (.ofNat elapsed.toNat) else none
  | .logical now, .logical earlier => if earlier ≤ now then some (now - earlier) else none
  | _, _ => none

def toJson : Timestamp → Json
  | .unixMillis millis =>
    .object [("kind", .string "unix_millis"), ("value", Json.ofInt64 millis)]
  | .logical millis => .object [("kind", .string "logical"), ("value", Json.ofUInt64 millis)]

def ofJson? (v : Json) : Option Timestamp := do
  match ← v.kindAndPayload? with
  | ("unix_millis", millis) => millis.asInt64?.map .unixMillis
  | ("logical", millis) => millis.asUInt64?.map .logical
  | _ => none

end Timestamp

end BehaviorMachine
