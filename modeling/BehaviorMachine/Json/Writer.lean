import BehaviorMachine.Json.Basic
/-!
Writing JSON text: on one line, indented, and in canonical form. The canonical form orders members by
their written names, quotes and escapes included, and writes whole binary64 numbers without a point,
so equal values have one canonical text.
-/
namespace BehaviorMachine.Json

/-- Numbers in documents: plain from `1e-5` up to below `1e16`, and always seen to be binary64. -/
def documentNumbers : NumberLayout := ⟨.even, fun p => -5 < p && p ≤ 16, true, true⟩

/-- Numbers in canonical text: plain from `1e-6` up to below `1e21`, and one zero only. -/
def canonicalNumbers : NumberLayout := ⟨.even, fun p => -6 < p && p ≤ 21, false, false⟩

def hexDigit (n : Nat) : Char := Nat.digitChar n

/-- A character inside a string literal. -/
def writeChar (c : Char) : List Char :=
  match c with
  | '"' => ['\\', '"']
  | '\\' => ['\\', '\\']
  | '\x08' => ['\\', 'b']
  | '\x0c' => ['\\', 'f']
  | '\n' => ['\\', 'n']
  | '\r' => ['\\', 'r']
  | '\t' => ['\\', 't']
  | c =>
    if c.toNat < 0x20 then ['\\', 'u', '0', '0', hexDigit (c.toNat / 16), hexDigit (c.toNat % 16)]
    else [c]

def writeString (s : String) : List Char := '"' :: s.toList.flatMap writeChar ++ ['"']

def Number.write (layout : NumberLayout) : Number → List Char
  | .natural n => Nat.toDigits 10 n.toNat
  | .negative n => '-' :: Nat.toDigits 10 (n.val + 1)
  | .real x => layout.text x

/-- Join parts with a comma. -/
def separated (comma : List Char) : List (List Char) → List Char
  | [] => []
  | [part] => part
  | part :: rest => part ++ comma ++ separated comma rest

/-- Values without parts are written alike in all forms. An unreadable one is written as half a
surrogate pair, which reads back as unreadable. -/
def writeLeaf (layout : NumberLayout) : Json → List Char
  | .null => ['n', 'u', 'l', 'l']
  | .bool true => ['t', 'r', 'u', 'e']
  | .bool false => ['f', 'a', 'l', 's', 'e']
  | .number n => n.write layout
  | .string s => writeString s
  | _ => ['"', '\\', 'u', 'd', '8', '0', '0', '"']

mutual

/-- On one line, without blanks. -/
def write : Json → List Char
  | .array items => '[' :: separated [','] (writeItems items) ++ [']']
  | .object members => '{' :: separated [','] (writeMembers members) ++ ['}']
  | leaf => writeLeaf documentNumbers leaf

def writeItems : List Json → List (List Char)
  | [] => []
  | v :: rest => v.write :: writeItems rest

def writeMembers : List (String × Json) → List (List Char)
  | [] => []
  | (n, v) :: rest => (writeString n ++ ':' :: v.write) :: writeMembers rest

end

/-- The start of a line that is indented `level` times. -/
def newline (level : Nat) : List Char := '\n' :: List.replicate (2 * level) ' '

/-- A container with one part a line; an empty one stays on its line. -/
def block (opening closing : Char) (level : Nat) (parts : List (List Char)) : List Char :=
  if parts.isEmpty then [opening, closing]
  else opening :: newline (level + 1) ++ separated (',' :: newline (level + 1)) parts ++
    newline level ++ [closing]

mutual

/-- One part a line, indented by two blanks. -/
def indented (level : Nat) : Json → List Char
  | .array items => block '[' ']' level (indentedItems (level + 1) items)
  | .object members => block '{' '}' level (indentedMembers (level + 1) members)
  | leaf => writeLeaf documentNumbers leaf

def indentedItems (level : Nat) : List Json → List (List Char)
  | [] => []
  | v :: rest => v.indented level :: indentedItems level rest

def indentedMembers (level : Nat) : List (String × Json) → List (List Char)
  | [] => []
  | (n, v) :: rest => (writeString n ++ ':' :: ' ' :: v.indented level) :: indentedMembers level rest

end

mutual

/-- The canonical form. -/
def canonical : Json → List Char
  | .array items => '[' :: separated [','] (canonicalItems items) ++ [']']
  | .object members =>
    let parts := (canonicalMembers members).mergeSort fun a b => decide (a.1 ≤ b.1)
    '{' :: separated [','] (parts.map fun (n, v) => n.toList ++ ':' :: v) ++ ['}']
  | leaf => writeLeaf canonicalNumbers leaf

def canonicalItems : List Json → List (List Char)
  | [] => []
  | v :: rest => v.canonical :: canonicalItems rest

def canonicalMembers : List (String × Json) → List (String × List Char)
  | [] => []
  | (n, v) :: rest => (String.ofList (writeString n), v.canonical) :: canonicalMembers rest

end

end BehaviorMachine.Json
