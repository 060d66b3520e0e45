import BehaviorMachine.Number.Binary64
/-!
Decimals, their rounding to binary64, and the shortest decimal of a binary64 number: of the decimals
that read back, one with the fewest digits, and of those the nearest.
-/
namespace BehaviorMachine

/-- The number `digits * 10 ^ exponent`. -/
structure Decimal where
  digits : Nat
  exponent : Int
  deriving DecidableEq

def powerOfTen (n : Nat) : Nat := Nat.pow 10 n

/-- The count of decimal digits. -/
def digitCount (n : Nat) : Nat := (Nat.toDigits 10 n).length

namespace Decimal

/-- A decimal as a quotient of whole numbers. -/
def ratio (d : Decimal) : Nat × Nat :=
  (d.digits * powerOfTen d.exponent.toNat, powerOfTen (-d.exponent).toNat)

/-- Round to binary64. The two far cases agree with the exact one and spare it huge powers: the
format ends below `10 ^ 309` and half its least unit lies above `10 ^ (-324)`. -/
def round (negative : Bool) (d : Decimal) : Extended :=
  let top := d.exponent + digitCount d.digits
  if d.digits = 0 ∨ top < -330 then .ofRatio negative 0 1
  else if 330 < top then .infinite negative
  else .ofRatio negative d.ratio.1 d.ratio.2

/-- Move trailing zeros into the exponent. -/
def trim : Nat → Decimal → Decimal
  | 0, d => d
  | fuel + 1, d =>
    if d.digits % 10 = 0 then trim fuel ⟨d.digits / 10, d.exponent + 1⟩ else d

end Decimal

/-- Which of two equally near shortest decimals is written. -/
inductive Tie where
  | even
  | up

namespace Shortest

/-- Does a decimal round to this rank? -/
def reads (rank : Nat) (d : Decimal) : Bool :=
  nearestRank (d.ratio.1 <<< 1074) d.ratio.2 = rank

/-- The position `p` of the decimal point: the magnitude lies between `10 ^ (p - 1)` and `10 ^ p`. -/
def pointPosition (rank : Nat) : Int :=
  digitCount ((unitsOfRank rank * powerOfTen 330) >>> 1074) - 330

/-- Of two neighbouring decimals one that reads back: the upper or the lower one if both do. -/
def neighbour? (rank below : Nat) (step : Int) (upper : Bool) : Option Decimal :=
  if reads rank ⟨below, step⟩ then
    if upper ∧ reads rank ⟨below + 1, step⟩ then some ⟨below + 1, step⟩ else some ⟨below, step⟩
  else if reads rank ⟨below + 1, step⟩ then some ⟨below + 1, step⟩
  else none

/-- The nearest decimal that reads back among the two neighbours with `n` digits. -/
def withDigits? (tie : Tie) (rank n : Nat) : Option Decimal :=
  let step := pointPosition rank - n
  let num := unitsOfRank rank * powerOfTen (-step).toNat
  let den := powerOfTen step.toNat <<< 1074
  let below := num / den
  let rest := 2 * (num % den)
  let upper : Bool :=
    match tie with
    | .even => den < rest ∨ (rest = den ∧ below % 2 = 1)
    | .up => den ≤ rest
  neighbour? rank below step upper

/-- The magnitude of a rank as an exact decimal. -/
def exact (rank : Nat) : Decimal := ⟨unitsOfRank rank * Nat.pow 5 1074, -1074⟩

end Shortest

/-- The shortest decimal of a magnitude, without trailing zeros. Seventeen digits always suffice. -/
def shortestDecimal (tie : Tie) (rank : Nat) : Decimal :=
  let d := ((List.range 17).findSome? fun n => Shortest.withDigits? tie rank (n + 1)).getD
    (Shortest.exact rank)
  d.trim (digitCount d.digits)

/-- How numbers are written in one kind of text. -/
structure NumberLayout where
  tie : Tie
  /-- Positional notation for these positions of the decimal point, exponents for the others. -/
  positional : Int → Bool
  /-- Whole numbers in positional notation end in `.0`. -/
  fraction : Bool
  /-- The negative zero keeps its sign. -/
  signedZero : Bool

namespace NumberLayout

/-- Place the point after the first `point` digits. -/
def place (layout : NumberLayout) (digits : List Char) (point : Int) : List Char :=
  if point ≤ 0 then '0' :: '.' :: List.replicate (-point).toNat '0' ++ digits
  else
    let whole := point.toNat
    if digits.length ≤ whole then
      digits ++ List.replicate (whole - digits.length) '0' ++ if layout.fraction then ['.', '0'] else []
    else digits.take whole ++ '.' :: digits.drop whole

/-- One digit, the others after a point, and a signed exponent. -/
def scientific (digits : List Char) (point : Int) : List Char :=
  let e := point - 1
  digits.take 1 ++ (if digits.length ≤ 1 then [] else '.' :: digits.drop 1) ++
    'e' :: (if e < 0 then '-' else '+') :: Nat.toDigits 10 e.natAbs

def magnitude (layout : NumberLayout) (rank : Nat) : List Char :=
  if rank = 0 then layout.place ['0'] 1
  else
    let d := shortestDecimal layout.tie rank
    let digits := Nat.toDigits 10 d.digits
    let point := d.exponent + digits.length
    if layout.positional point then layout.place digits point else scientific digits point

def text (layout : NumberLayout) (x : Binary64) : List Char :=
  if x.negative ∧ (x.rank ≠ 0 ∨ layout.signedZero) then '-' :: layout.magnitude x.rank
  else layout.magnitude x.rank

end NumberLayout

end BehaviorMachine
