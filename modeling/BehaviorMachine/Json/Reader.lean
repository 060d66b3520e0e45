import BehaviorMachine.Json.Token
import BehaviorMachine.Text.Utf8
/-!
Reading JSON text. The tokens drive a machine that keeps the containers being read on a stack, so
nesting costs no recursion. A container nested beyond `nestingLimit` is unreadable; it is still
checked against the grammar.
-/
namespace BehaviorMachine.Json

/-- The deepest nesting of containers that is read. -/
def nestingLimit : Nat := 127

/-- A container being read, its parts in reverse. A pending object waits for the value of a name. -/
inductive Frame where
  | array (items : List Json)
  | object (members : List (Option String × Json))
  | pending (members : List (Option String × Json)) (name : Option String)

/-- What has to come next, inside the containers of the stack. -/
inductive Reading where
  | value (stack : List Frame)
  | firstItem (stack : List Frame)
  | key (stack : List Frame)
  | firstKey (stack : List Frame)
  | colon (name : Option String) (stack : List Frame)
  | more (stack : List Frame)
  | done (v : Json)

namespace Reading

/-- Place a complete value in the innermost container. -/
def put (v : Json) : List Frame → Option Reading
  | [] => some (.done v)
  | .array items :: stack => some (.more (.array (v :: items) :: stack))
  | .pending members name :: stack => some (.more (.object ((name, v) :: members) :: stack))
  | .object _ :: _ => none

/-- A complete object; a key without text spoils it. -/
def object (members : List (Option String × Json)) : Json :=
  match members.mapM fun member => member.1.map (·, member.2) with
  | some members => .object members
  | none => .unreadable

/-- A container that lies inside those of the stack. -/
def nested (stack : List Frame) (v : Json) : Json :=
  if stack.length < nestingLimit then v else .unreadable

/-- Complete the innermost container. -/
def close : List Frame → Option Reading
  | .array items :: stack => put (nested stack (.array items.reverse)) stack
  | .object members :: stack => put (nested stack (object members.reverse)) stack
  | _ => none

def begin (stack : List Frame) : Token → Option Reading
  | .beginArray => some (.firstItem (.array [] :: stack))
  | .beginObject => some (.firstKey (.object [] :: stack))
  | .literal text => put ((text.map Json.string).getD .unreadable) stack
  | .scalar v => put v stack
  | _ => none

def step : Reading → Token → Option Reading
  | .firstItem stack, .endArray => close stack
  | .firstItem stack, t => begin stack t
  | .value stack, t => begin stack t
  | .firstKey stack, .endObject => close stack
  | .firstKey stack, .literal name => some (.colon name stack)
  | .key stack, .literal name => some (.colon name stack)
  | .colon name (.object members :: stack), .colon => some (.value (.pending members name :: stack))
  | .more (.array items :: stack), .comma => some (.value (.array items :: stack))
  | .more (.array items :: stack), .endArray => close (.array items :: stack)
  | .more (.object members :: stack), .comma => some (.key (.object members :: stack))
  | .more (.object members :: stack), .endObject => close (.object members :: stack)
  | _, _ => none

end Reading

/-- Read one value, with blanks around its tokens only. -/
def readChars (text : List Char) : Option Json := do
  let tokens ← Token.scan text.length text []
  match ← tokens.foldlM Reading.step (.value []) with
  | .done v => some v
  | _ => none

def read? (text : String) : Option Json := readChars text.toList

/-- Read a value from bytes. A byte that is ill-formed stands for a letter and half a surrogate pair:
only a string literal admits it, and that literal has no text. -/
def readBytes? (bytes : ByteArray) : Option Json :=
  readChars (textOfBytes ['x', '\\', 'u', 'd', 'c', '8', '0'] bytes)

end BehaviorMachine.Json
