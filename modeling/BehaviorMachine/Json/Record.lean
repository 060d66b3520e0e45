import BehaviorMachine.Json.Basic
/-!
Reading records, tagged values and scalars out of JSON values. A record is an object, or an array
that holds its fields in order. Members that are not fields are ignored, and a repeated field spoils
the record.
-/
namespace BehaviorMachine.Json

/-- The one member of a name; `none` if the name is repeated. -/
def field? (members : List (String × Json)) (name : String) : Option (Option Json) :=
  match members.filter (·.1 = name) with
  | [] => some none
  | [member] => some (some member.2)
  | _ => none

/-- The values of the fields in the order of their names, `none` for a missing one. -/
def fields? (names : List String) : Json → Option (List (Option Json))
  | .object members => names.mapM (field? members)
  | .array items =>
    if items.length ≤ names.length then
      some (items.map some ++ List.replicate (names.length - items.length) none)
    else none
  | _ => none

variable {α : Type}

/-- A field that has to be there. -/
def required (field : Option Json) (read : Json → Option α) : Option α := field.bind read

/-- A field with a default; null does not stand for it. -/
def defaulted (default : α) (field : Option Json) (read : Json → Option α) : Option α :=
  match field with
  | none => some default
  | some v => read v

/-- A field that may be missing or null. -/
def optional (field : Option Json) (read : Json → Option α) : Option (Option α) :=
  match field with
  | none => some none
  | some .null => some none
  | some v => (read v).map some

def asString? : Json → Option String
  | .string s => some s
  | _ => none

def asBool? : Json → Option Bool
  | .bool b => some b
  | _ => none

def asUInt64? : Json → Option UInt64
  | .number (.natural n) => some n
  | _ => none

def asUInt32? : Json → Option UInt32
  | .number (.natural n) => if n.toNat < UInt32.size then some (.ofNat n.toNat) else none
  | _ => none

def asInt64? : Json → Option Int64
  | .number (.natural n) => if n.toNat < 0x8000000000000000 then some (.ofNat n.toNat) else none
  | .number (.negative n) => some (.ofInt (-(n.val + 1 : Nat)))
  | _ => none

def asBinary64? : Json → Option Binary64
  | .number n => some n.toBinary64
  | _ => none

def asList? (read : Json → Option α) : Json → Option (List α)
  | .array items => items.mapM read
  | _ => none

/-- A map; of several values for one name the last counts, but all have to be readable. -/
def asMap? (read : Json → Option α) : Json → Option (NameMap α)
  | .object members =>
    (members.mapM fun member => (read member.2).map (member.1, ·)).map NameMap.ofList
  | _ => none

/-- The name of a value without payload: a string, or an object with null under the name. -/
def unitName? : Json → Option String
  | .string s => some s
  | .object [(name, .null)] => some name
  | _ => none

/-- As `unitName?`, inside a tagged value, where the payload may be an empty object too. -/
def taggedUnitName? : Json → Option String
  | .object [(name, .object [])] => some name
  | v => v.unitName?

/-- The kind of a value and its payload, which are two fields of a record. An array holds the kind as a
string. -/
def kindAndPayload? (v : Json) : Option (String × Json) := do
  let [some kind, some payload] ← v.fields? ["kind", "value"] | none
  match v with
  | .array _ => return (← kind.asString?, payload)
  | _ => return (← kind.unitName?, payload)

/-- The tag of a value and the value without it: the one member of the tag's name, or the first item.
The whole value has to be readable. -/
def tagged? (tag : String) (v : Json) : Option (String × Json) :=
  if v.readable then
    match v with
    | .object members =>
      match field? members tag with
      | some (some (.string name)) => some (name, .object (members.filter (·.1 ≠ tag)))
      | _ => none
    | .array (.string name :: items) => some (name, .array items)
    | _ => none
  else none

/-- A tagged value without payload: an object may have further members, an array no further items. -/
def isUnit : Json → Bool
  | .object _ => true
  | .array [] => true
  | _ => false

/-- An array holds an item for each of the names. -/
def isComplete (names : List String) : Json → Bool
  | .array items => items.length = names.length
  | _ => true

/-- The one member of a value with one member. -/
def single? : Json → Option (String × Json)
  | .object [member] => some member
  | _ => none

/-! Writing. -/

def ofString (s : String) : Json := .string s

def ofUInt64 (n : UInt64) : Json := .number (.natural n)

def ofUInt32 (n : UInt32) : Json := .number (.natural n.toUInt64)

def ofInt64 (n : Int64) : Json :=
  if h : 0 ≤ n.toInt then .number (.natural (.ofNat n.toInt.toNat))
  else .number (.negative ⟨n.toInt.natAbs - 1, by have := n.le_toInt; omega⟩)

def ofBinary64 (x : Binary64) : Json := .number (.real x)

def ofOption (write : α → Json) : Option α → Json
  | none => .null
  | some a => write a

def ofList (write : α → Json) (items : List α) : Json := .array (items.map write)

def ofMap (write : α → Json) (m : NameMap α) : Json :=
  .object (m.entries.map fun (n, v) => (n, write v))

/-- A member that is left out when there is nothing to write. -/
def present (name : String) (write : α → Json) : Option α → List (String × Json)
  | none => []
  | some a => [(name, write a)]

/-- A member that is left out when the list is empty. -/
def nonempty (name : String) (write : α → Json) : List α → List (String × Json)
  | [] => []
  | items => [(name, ofList write items)]

end BehaviorMachine.Json
