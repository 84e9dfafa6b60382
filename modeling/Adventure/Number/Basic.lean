import Adventure.Number.Rounding
/-!
# Numbers

The numbers of characters, dice, settings and messages.  A number is a rational value, one of the
two infinities, or the result of an operation that has none.  There is one zero: the sign of a zero
is visible in no answer of the game.

Main definitions: `Number`, its arithmetic (exact, then rounded once by `Number.ofRat`), and the
order, in which `nan` is related to nothing.
-/

namespace Adventure

inductive Number where
  | nan
  | infinity (negative : Bool)
  | finite (value : Rat)
deriving DecidableEq

namespace Number

instance : Inhabited Number := ⟨finite 0⟩

instance (n : Nat) : OfNat Number n := ⟨finite n⟩

/-- The number nearest to an exact result; beyond the largest value, an infinity. -/
def ofRat (x : Rat) : Number :=
  if Binary64.isSmallInteger x then finite x
  else
    let y := Binary64.round x
    if Binary64.limit ≤ y then infinity false
    else if y ≤ -Binary64.limit then infinity true
    else finite y

/-- A natural number as it is: counts are small, and the naturals of settings were read as numbers, so
there is nothing to round. -/
def ofNat (n : Nat) : Number := finite n

/-! ## Arithmetic -/

def neg : Number → Number
  | nan => nan
  | infinity s => infinity (!s)
  | finite x => finite (-x)

/-- Opposite infinities have no sum. -/
def add : Number → Number → Number
  | nan, _ => nan
  | _, nan => nan
  | infinity s, infinity t => if s = t then infinity s else nan
  | infinity s, finite _ => infinity s
  | finite _, infinity t => infinity t
  | finite x, finite y => ofRat (x + y)

def sub (x y : Number) : Number := add x (neg y)

/-- Zero times an infinity has no value. -/
def mul : Number → Number → Number
  | nan, _ => nan
  | _, nan => nan
  | infinity s, infinity t => infinity (s != t)
  | infinity s, finite y => if y = 0 then nan else infinity (s != decide (y < 0))
  | finite x, infinity t => if x = 0 then nan else infinity (t != decide (x < 0))
  | finite x, finite y => ofRat (x * y)

instance : Neg Number := ⟨neg⟩
instance : Add Number := ⟨add⟩
instance : Sub Number := ⟨sub⟩
instance : Mul Number := ⟨mul⟩

def floor : Number → Number
  | finite x => finite x.floor
  | x => x

/-! ## Order -/

def less : Number → Number → Bool
  | nan, _ => false
  | _, nan => false
  | infinity s, infinity t => s && !t
  | infinity s, finite _ => s
  | finite _, infinity t => !t
  | finite x, finite y => x < y

def atMost : Number → Number → Bool
  | nan, _ => false
  | _, nan => false
  | infinity s, infinity t => s || !t
  | infinity s, finite _ => s
  | finite _, infinity t => !t
  | finite x, finite y => x ≤ y

instance : LT Number := ⟨fun x y => less x y = true⟩
instance : LE Number := ⟨fun x y => atMost x y = true⟩
instance (x y : Number) : Decidable (x < y) := inferInstanceAs (Decidable (less x y = true))
instance (x y : Number) : Decidable (x ≤ y) := inferInstanceAs (Decidable (atMost x y = true))

/-- The smaller of two numbers, and `nan` if one of them is. -/
def min : Number → Number → Number
  | nan, _ => nan
  | _, nan => nan
  | x, y => if y < x then y else x

/-! ## Integers -/

def isInteger : Number → Bool
  | finite x => x.den == 1
  | _ => false

/-- An integer from `low` to `high`, both included. -/
def isIntegerIn (x low high : Number) : Bool := x.isInteger && low ≤ x && x ≤ high

/-- An integer that is `low` or more. -/
def isIntegerFrom (x low : Number) : Bool := x.isInteger && low ≤ x

def toNat? : Number → Option Nat
  | finite x => if x.den == 1 && 0 ≤ x.num then some x.num.toNat else none
  | _ => none

end Number

end Adventure
