/-!
Finite binary64 numbers. A number is a sign and the rank of its magnitude among all magnitudes of
the format, counted from zero, so that equality is equality of bits and neighbouring ranks are
neighbouring magnitudes. Every magnitude is a whole number of units of `2 ^ (-1074)`, the smallest
positive one, and exact results are rounded by one function, `nearestRank`.
-/
namespace BehaviorMachine

/-- Divide to the nearest whole number; a half goes to the even one. -/
def divNearestEven (n d : Nat) : Nat :=
  let q := n / d
  let r := n % d
  if 2 * r < d then q else if d < 2 * r then q + 1 else q + q % 2

/-- The count of magnitudes from one power of two to the next. -/
def binade : Nat := 1 <<< 52

/-- The count of finite magnitudes. -/
def magnitudes : Nat := 2047 * binade

/-- The magnitude of a rank, in units: those of the first two binades are consecutive, and after
that the steps double with every binade. -/
def unitsOfRank (rank : Nat) : Nat :=
  if rank < 2 * binade then rank else (binade + rank % binade) <<< (rank / binade - 1)

/-- The rank whose magnitude is nearest to `n / d` units, the even one of two. Results from
`magnitudes` on lie beyond the format. -/
def nearestRank (n d : Nat) : Nat :=
  let excess := (n / d).log2 - 52
  excess * binade + divNearestEven n (d <<< excess)

/-- A finite binary64 number; both zeros are kept apart. -/
structure Binary64 where
  negative : Bool
  rank : Nat
  rank_lt : rank < magnitudes
  deriving DecidableEq

/-- A binary64 result that may have overflowed. -/
inductive Extended where
  | finite (x : Binary64)
  | infinite (negative : Bool)
  deriving DecidableEq

namespace Binary64

def zero : Binary64 := ⟨false, 0, by decide⟩

instance : Inhabited Binary64 := ⟨zero⟩

/-- The magnitude in units of `2 ^ (-1074)`. -/
def units (x : Binary64) : Nat := unitsOfRank x.rank

/-- Numeric order is the order of signed ranks, in which both zeros agree. -/
def signedRank (x : Binary64) : Int := if x.negative then -x.rank else x.rank

end Binary64

namespace Extended

/-- Round a signed quotient of units. -/
def ofQuotient (negative : Bool) (n d : Nat) : Extended :=
  let rank := nearestRank n d
  if h : rank < magnitudes then .finite ⟨negative, rank, h⟩ else .infinite negative

/-- Round a signed quotient of whole numbers. -/
def ofRatio (negative : Bool) (n d : Nat) : Extended := ofQuotient negative (n <<< 1074) d

/-- The finite number, if there is one. -/
def finite? : Extended → Option Binary64
  | .finite x => some x
  | .infinite _ => none

def signedRank : Extended → Int
  | .finite x => x.signedRank
  | .infinite true => -magnitudes
  | .infinite false => magnitudes

/-- The quotient of two numbers, the divisor not zero. -/
def div (x y : Binary64) : Extended :=
  ofRatio (x.negative != y.negative) x.units y.units

/-- The product with a positive whole number. -/
def scale (k : Nat) : Extended → Extended
  | .finite x => ofQuotient x.negative (x.units * k) 1
  | .infinite negative => .infinite negative

end Extended

namespace Binary64

/-- The nearest number to a signed whole number below `2 ^ 64`. -/
def ofWord (negative : Bool) (n : UInt64) : Binary64 :=
  ((Extended.ofRatio negative n.toNat 1).finite?).getD zero

/-- Two numbers agree when they differ by at most `2 ^ (-52)`. -/
def agree (x y : Binary64) : Bool :=
  let exact (z : Binary64) : Int := if z.negative then -z.units else z.units
  (exact x - exact y).natAbs ≤ 1 <<< 1022

end Binary64

end BehaviorMachine
