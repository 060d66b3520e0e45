import BehaviorMachine.Json.Record
/-!
Parameter and port values: flags, numbers and texts. A parameter map drops members of any other kind,
while a single value of another kind is refused.
-/
namespace BehaviorMachine

inductive ParamValue where
  | flag (b : Bool)
  | number (x : Binary64)
  | text (s : String)
  deriving DecidableEq

namespace ParamValue

def text? : ParamValue → Option String
  | .text s => some s
  | _ => none

def number? : ParamValue → Option Binary64
  | .number x => some x
  | _ => none

def flag? : ParamValue → Option Bool
  | .flag b => some b
  | _ => none

/-- Numbers shown to people never have an exponent. -/
def displayedNumbers : NumberLayout := ⟨.up, fun _ => true, false, true⟩

def display : ParamValue → String
  | .flag true => "true"
  | .flag false => "false"
  | .number x => .ofList (displayedNumbers.text x)
  | .text s => s

def toJson : ParamValue → Json
  | .flag b => .bool b
  | .number x => Json.ofBinary64 x
  | .text s => .string s

def ofJson? : Json → Option ParamValue
  | .bool b => some (.flag b)
  | .number n => some (.number n.toBinary64)
  | .string s => some (.text s)
  | _ => none

end ParamValue

/-- The parameters handed to a behavior, by name. -/
abbrev BehaviorParams := NameMap ParamValue

namespace BehaviorParams

def toJson (params : BehaviorParams) : Json := Json.ofMap ParamValue.toJson params

/-- Every member has to be readable; null, arrays and objects are then dropped. -/
def ofJson? (v : Json) : Option BehaviorParams :=
  if v.readable then (v.asMap? some).map (·.filterMap ParamValue.ofJson?) else none

end BehaviorParams

end BehaviorMachine
