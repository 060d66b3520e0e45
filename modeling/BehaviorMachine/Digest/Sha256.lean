/-!
SHA-256. A message is padded to blocks of sixteen 32-bit words, and every block is mixed into eight
words of state; all arithmetic is that of 32-bit words.
-/
namespace BehaviorMachine.Sha256

/-- The first 32 bits of the fractional parts of the cube roots of the first 64 primes. -/
def roundConstants : Array UInt32 := #[
  0x428a2f98, 0x71374491, 0xb5c0fbcf, 0xe9b5dba5, 0x3956c25b, 0x59f111f1, 0x923f82a4, 0xab1c5ed5,
  0xd807aa98, 0x12835b01, 0x243185be, 0x550c7dc3, 0x72be5d74, 0x80deb1fe, 0x9bdc06a7, 0xc19bf174,
  0xe49b69c1, 0xefbe4786, 0x0fc19dc6, 0x240ca1cc, 0x2de92c6f, 0x4a7484aa, 0x5cb0a9dc, 0x76f988da,
  0x983e5152, 0xa831c66d, 0xb00327c8, 0xbf597fc7, 0xc6e00bf3, 0xd5a79147, 0x06ca6351, 0x14292967,
  0x27b70a85, 0x2e1b2138, 0x4d2c6dfc, 0x53380d13, 0x650a7354, 0x766a0abb, 0x81c2c92e, 0x92722c85,
  0xa2bfe8a1, 0xa81a664b, 0xc24b8b70, 0xc76c51a3, 0xd192e819, 0xd6990624, 0xf40e3585, 0x106aa070,
  0x19a4c116, 0x1e376c08, 0x2748774c, 0x34b0bcb5, 0x391c0cb3, 0x4ed8aa4a, 0x5b9cca4f, 0x682e6ff3,
  0x748f82ee, 0x78a5636f, 0x84c87814, 0x8cc70208, 0x90befffa, 0xa4506ceb, 0xbef9a3f7, 0xc67178f2]

structure State where
  a : UInt32
  b : UInt32
  c : UInt32
  d : UInt32
  e : UInt32
  f : UInt32
  g : UInt32
  h : UInt32

/-- The first 32 bits of the fractional parts of the square roots of the first eight primes. -/
def State.initial : State :=
  ⟨0x6a09e667, 0xbb67ae85, 0x3c6ef372, 0xa54ff53a, 0x510e527f, 0x9b05688c, 0x1f83d9ab, 0x5be0cd19⟩

def State.add (s t : State) : State :=
  ⟨s.a + t.a, s.b + t.b, s.c + t.c, s.d + t.d, s.e + t.e, s.f + t.f, s.g + t.g, s.h + t.h⟩

def State.words (s : State) : List UInt32 := [s.a, s.b, s.c, s.d, s.e, s.f, s.g, s.h]

def rotateRight (x : UInt32) (n : UInt32) : UInt32 := (x >>> n) ||| (x <<< (32 - n))

/-- The big-endian bytes of a word. -/
def wordBytes (w : UInt32) : List UInt8 :=
  [(w >>> 24).toUInt8, (w >>> 16).toUInt8, (w >>> 8).toUInt8, w.toUInt8]

/-- A one bit, zeros up to the last eight bytes of a block, and the length in bits. -/
def padding (length : Nat) : List UInt8 :=
  (0x80 : UInt8) :: List.replicate ((119 - length % 64) % 64) 0 ++
    ((List.range 8).map fun i => UInt8.ofNat ((length * 8) >>> (8 * (7 - i))))

/-- The word that starts at a byte of the message. -/
def wordAt (message : ByteArray) (start : Nat) : UInt32 :=
  (List.range 4).foldl (fun w i => (w <<< 8) ||| (message.get! (start + i)).toUInt32) 0

/-- The sixty-four words that a block is mixed in as. -/
def schedule (message : ByteArray) (start : Nat) : Array UInt32 :=
  let first := (Array.range 16).map fun i => wordAt message (start + 4 * i)
  (List.range 48).foldl (fun (words : Array UInt32) i =>
    let early := words[i + 1]!
    let late := words[i + 14]!
    let s := rotateRight early 7 ^^^ rotateRight early 18 ^^^ (early >>> 3)
    let t := rotateRight late 17 ^^^ rotateRight late 19 ^^^ (late >>> 10)
    words.push (words[i]! + s + words[i + 9]! + t)) first

def round (words : Array UInt32) (s : State) (i : Nat) : State :=
  let mix := rotateRight s.e 6 ^^^ rotateRight s.e 11 ^^^ rotateRight s.e 25
  let choice := (s.e &&& s.f) ^^^ (~~~s.e &&& s.g)
  let up := s.h + mix + choice + roundConstants[i]! + words[i]!
  let fold := rotateRight s.a 2 ^^^ rotateRight s.a 13 ^^^ rotateRight s.a 22
  let majority := (s.a &&& s.b) ^^^ (s.a &&& s.c) ^^^ (s.b &&& s.c)
  ⟨up + (fold + majority), s.a, s.b, s.c, s.d + up, s.e, s.f, s.g⟩

/-- Mix in the block with the given number. -/
def compress (message : ByteArray) (s : State) (block : Nat) : State :=
  s.add ((List.range 64).foldl (round (schedule message (64 * block))) s)

def hash (message : ByteArray) : List UInt8 :=
  let padded := (padding message.size).foldl ByteArray.push message
  let final := (List.range (padded.size / 64)).foldl (compress padded) .initial
  final.words.flatMap wordBytes

/-- The digest in lower-case hexadecimal digits. -/
def hex (text : String) : String :=
  .ofList ((hash text.toUTF8).flatMap fun byte =>
    [Nat.digitChar (byte.toNat / 16), Nat.digitChar (byte.toNat % 16)])

end BehaviorMachine.Sha256
