/-!
Texts in UTF-8. Where a text need not be well formed, bytes are decoded one character after another.
Each byte that belongs to none is marked, or each broken character is replaced.
-/
namespace BehaviorMachine

/-- The bits of a continuation byte. -/
def continuation? (b : UInt8) : Option Nat :=
  if 0x80 ≤ b ∧ b < 0xC0 then some (b.toNat - 0x80) else none

/-- A character, if the code point is one and needs no fewer bytes than it was given. -/
def codePointFrom? (least n : Nat) : Option Char :=
  if h : n.isValidChar then if least ≤ n then some (Char.ofNatAux n h) else none else none

/-- The first character of some bytes, and the bytes after it. -/
def decodeChar? : List UInt8 → Option (Char × List UInt8)
  | [] => none
  | a :: rest =>
    if a < 0x80 then some (.ofNat a.toNat, rest)
    else if 0xC0 ≤ a ∧ a < 0xE0 then
      match rest with
      | b :: rest => do
        let b ← continuation? b
        return (← codePointFrom? 0x80 ((a.toNat - 0xC0) * 64 + b), rest)
      | _ => none
    else if 0xE0 ≤ a ∧ a < 0xF0 then
      match rest with
      | b :: c :: rest => do
        let b ← continuation? b
        let c ← continuation? c
        return (← codePointFrom? 0x800 (((a.toNat - 0xE0) * 64 + b) * 64 + c), rest)
      | _ => none
    else if 0xF0 ≤ a ∧ a < 0xF8 then
      match rest with
      | b :: c :: d :: rest => do
        let b ← continuation? b
        let c ← continuation? c
        let d ← continuation? d
        let n := (((a.toNat - 0xF0) * 64 + b) * 64 + c) * 64 + d
        return (← codePointFrom? 0x10000 n, rest)
      | _ => none
    else none

/-- Decode bytes, with a mark for each that belongs to no character. The characters are collected in
reverse. -/
def decodeMarked (mark : List Char) : Nat → List Char → List UInt8 → List Char
  | 0, found, _ => found.reverse
  | _, found, [] => found.reverse
  | fuel + 1, found, b :: rest =>
    match decodeChar? (b :: rest) with
    | some (c, rest) => decodeMarked mark fuel (c :: found) rest
    | none => decodeMarked mark fuel (mark.reverse ++ found) rest

/-- The text of some bytes, with a mark for each that belongs to no character. -/
def textOfBytes (mark : List Char) (bytes : ByteArray) : List Char :=
  match String.fromUTF8? bytes with
  | some text => text.toList
  | none => decodeMarked mark bytes.size [] bytes.toList

/-- The bytes between which the second byte of a character has to lie, by its first one, and how many
bytes follow the first. -/
def followers? (a : UInt8) : Option (UInt8 × UInt8 × Nat) :=
  if 0xC2 ≤ a ∧ a < 0xE0 then some (0x80, 0xBF, 1)
  else if 0xE0 ≤ a ∧ a < 0xF0 then
    some (if a = 0xE0 then 0xA0 else 0x80, if a = 0xED then 0x9F else 0xBF, 2)
  else if 0xF0 ≤ a ∧ a < 0xF5 then
    some (if a = 0xF0 then 0x90 else 0x80, if a = 0xF4 then 0x8F else 0xBF, 3)
  else none

/-- How many bytes after the first one belong to a broken character. -/
def brokenTail (a : UInt8) (rest : List UInt8) : Nat :=
  match followers? a, rest with
  | some (least, greatest, count), b :: rest =>
    if least ≤ b ∧ b ≤ greatest then
      1 + ((rest.take (count - 1)).takeWhile fun c => (continuation? c).isSome).length
    else 0
  | _, _ => 0

/-- Decode bytes, and replace each broken character. -/
def decodeReplacing : Nat → List UInt8 → List Char
  | 0, _ => []
  | _, [] => []
  | fuel + 1, a :: rest =>
    match decodeChar? (a :: rest) with
    | some (c, rest) => c :: decodeReplacing fuel rest
    | none => '\uFFFD' :: decodeReplacing fuel (rest.drop (brokenTail a rest))

/-- The text of some bytes, in which each broken character is replaced. -/
def lossyText (bytes : List UInt8) : String :=
  match String.fromUTF8? ⟨bytes.toArray⟩ with
  | some text => text
  | none => .ofList (decodeReplacing bytes.length bytes)

end BehaviorMachine
