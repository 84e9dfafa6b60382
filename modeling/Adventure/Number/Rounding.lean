/-!
# Rounding to binary64

Every quantity of the game is a binary64 value: a whole multiple of `2 ^ u`, with at most 53
significant bits and `u` at least `-1074`.  An operation on such values is computed exactly, in the
rationals, and rounded once by the functions below.
-/

namespace Adventure.Binary64

/-- The exponent of the leading bit: for `x ≠ 0`, `2 ^ magnitude x ≤ |x| < 2 ^ (magnitude x + 1)`. -/
def magnitude (x : Rat) : Int :=
  let estimate : Int := (x.num.natAbs.log2 : Int) - (x.den.log2 : Int)
  if (2 : Rat) ^ estimate ≤ x.abs then estimate else estimate - 1

/-- The exponent of the last bit that is kept: 53 bits, and nothing below `2 ^ (-1074)`. -/
def unitExponent (x : Rat) : Int := max (magnitude x - 52) (-1074)

/-- The nearest integer; halfway between two, the even one. -/
def nearestInt (x : Rat) : Int :=
  let low := x.floor
  let rest := x - low
  if rest < 1 / 2 then low
  else if 1 / 2 < rest then low + 1
  else if low % 2 = 0 then low
  else low + 1

/-- The nearest value with 53 significant bits, the even one at a tie. -/
def round (x : Rat) : Rat :=
  let unit := (2 : Rat) ^ unitExponent x
  nearestInt (x / unit) * unit

/-- The first power of two that no finite value reaches. -/
def limit : Rat := (2 : Rat) ^ (1024 : Int)

def exactBound : Nat := Nat.pow 2 53

def isSmallInteger (x : Rat) : Bool := x.den == 1 && x.num.natAbs ≤ exactBound

end Adventure.Binary64
