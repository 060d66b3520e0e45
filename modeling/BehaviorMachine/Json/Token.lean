import BehaviorMachine.Json.Basic
import BehaviorMachine.Text.Digit
/-!
The lexemes of JSON text. A string literal keeps its escapes as units first: a pair of surrogate
escapes is one character, and half a pair leaves the literal without a text.
-/
namespace BehaviorMachine.Json

inductive Token where
  | beginArray
  | endArray
  | beginObject
  | endObject
  | colon
  | comma
  /-- A string literal, without text if it holds half a surrogate pair. -/
  | literal (text : Option String)
  | scalar (value : Json)

namespace Token

def isBlank (c : Char) : Bool := c = ' ' || c = '\n' || c = '\t' || c = '\r'

/-- The character of a two-character escape. -/
def escaped? : Char → Option Char
  | '"' => some '"'
  | '\\' => some '\\'
  | '/' => some '/'
  | 'b' => some '\x08'
  | 'f' => some '\x0c'
  | 'n' => some '\n'
  | 'r' => some '\r'
  | 't' => some '\t'
  | _ => none

/-- A piece of a string literal: a character, or half of a surrogate pair. -/
inductive Piece where
  | char (c : Char)
  | high (n : Nat)
  | low (n : Nat)

/-- The piece of a `\u` escape; the offset is what the half adds to a pair. -/
def Piece.ofCode (n : Nat) : Piece :=
  if 0xD800 ≤ n ∧ n < 0xDC00 then .high (n - 0xD800)
  else if 0xDC00 ≤ n ∧ n < 0xE000 then .low (n - 0xDC00)
  else .char (.ofNat n)

/-- Join the pairs, collecting the characters in reverse. -/
def join : List Piece → List Char → Option (List Char)
  | [], text => some text.reverse
  | .char c :: rest, text => join rest (c :: text)
  | .high h :: .low l :: rest, text => join rest (.ofNat (0x10000 + h * 0x400 + l) :: text)
  | .high _ :: _, _ => none
  | .low _ :: _, _ => none

/-- The pieces up to the closing quote, and the text after it. -/
def pieces? : List Char → List Piece → Option (List Piece × List Char)
  | '"' :: rest, found => some (found.reverse, rest)
  | '\\' :: 'u' :: a :: b :: c :: d :: rest, found =>
    match hexNumeral? [a, b, c, d] with
    | some n => pieces? rest (.ofCode n :: found)
    | none => none
  | '\\' :: e :: rest, found =>
    match escaped? e with
    | some c => pieces? rest (.char c :: found)
    | none => none
  | c :: rest, found =>
    if c.toNat < 0x20 ∨ c = '\\' then none else pieces? rest (.char c :: found)
  | [], _ => none

/-- A whole number of a 64-bit word, or the nearest binary64 number. The negative zero is binary64. -/
def whole (negative : Bool) (n : Nat) : Json :=
  if negative = false ∧ n < UInt64.size then .number (.natural (.ofNat n))
  else if h : negative = true ∧ n - 1 < 0x8000000000000000 ∧ 0 < n then .number (.negative ⟨n - 1, h.2.1⟩)
  else
    match Decimal.round negative ⟨n, 0⟩ with
    | .finite x => .number (.real x)
    | .infinite _ => .unreadable

/-- The digits after a point; at least one has to follow it. -/
def fraction? : List Char → Option (List Char × List Char)
  | '.' :: rest =>
    match rest.span isDigit with
    | ([], _) => none
    | (digits, rest) => some (digits, rest)
  | rest => some ([], rest)

/-- The exponent after its mark, if there is one. -/
def exponent? : List Char → Option (Option Int × List Char)
  | c :: rest =>
    if c = 'e' ∨ c = 'E' then
      let (negative, rest) :=
        match rest with
        | '-' :: rest => (true, rest)
        | '+' :: rest => (false, rest)
        | rest => (false, rest)
      match rest.span isDigit with
      | ([], _) => none
      | (digits, rest) =>
        let n := numeralValue 10 digits
        some (some (if negative then -n else n), rest)
    else some (none, c :: rest)
  | [] => some (none, [])

/-- A number from its first digit on. A leading zero stands alone. -/
def number? (negative : Bool) (text : List Char) : Option (Json × List Char) := do
  let (digits, rest) ←
    match text with
    | '0' :: rest => some (['0'], rest)
    | _ => some (text.span isDigit)
  if digits.isEmpty then none
  let (fraction, rest) ← fraction? rest
  let (exponent, rest) ← exponent? rest
  if fraction.isEmpty ∧ exponent.isNone then return (whole negative (numeralValue 10 digits), rest)
  let d : Decimal := ⟨numeralValue 10 (digits ++ fraction), exponent.getD 0 - fraction.length⟩
  match d.round negative with
  | .finite x => return (.number (.real x), rest)
  | .infinite _ => return (.unreadable, rest)

/-- The first token of a text that starts with one, and the text after it. -/
def next? : List Char → Option (Token × List Char)
  | '[' :: rest => some (.beginArray, rest)
  | ']' :: rest => some (.endArray, rest)
  | '{' :: rest => some (.beginObject, rest)
  | '}' :: rest => some (.endObject, rest)
  | ':' :: rest => some (.colon, rest)
  | ',' :: rest => some (.comma, rest)
  | 'n' :: 'u' :: 'l' :: 'l' :: rest => some (.scalar .null, rest)
  | 't' :: 'r' :: 'u' :: 'e' :: rest => some (.scalar (.bool true), rest)
  | 'f' :: 'a' :: 'l' :: 's' :: 'e' :: rest => some (.scalar (.bool false), rest)
  | '"' :: rest => do
    let (pieces, rest) ← pieces? rest []
    return (.literal ((join pieces []).map String.ofList), rest)
  | '-' :: rest => (number? true rest).map fun (v, rest) => (.scalar v, rest)
  | text => (number? false text).map fun (v, rest) => (.scalar v, rest)

/-- All tokens of a text. Each takes at least one character, so the length of the text bounds their
count. -/
def scan : Nat → List Char → List Token → Option (List Token)
  | _, [], found => some found.reverse
  | 0, _ :: _, _ => none
  | fuel + 1, c :: rest, found =>
    if isBlank c then scan fuel rest found
    else
      match next? (c :: rest) with
      | some (token, rest) => scan fuel rest (token :: found)
      | none => none

end Token

end BehaviorMachine.Json
