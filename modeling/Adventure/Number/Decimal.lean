import Adventure.Number.Basic
/-!
# Decimal text of numbers

A number is written with the fewest decimal digits that read back to it, and of those with the
digits nearest to it.  The layout is positional from `10 ^ (-6)` to below `10 ^ 21`, and otherwise
has a signed exponent behind the first digit.

Main definitions: `Decimal.toNumber` (reading), `Decimal.shortest` (choosing the digits) and
`Number.text` (writing).
-/

namespace Adventure

/-- The decimal `digits * 10 ^ exponent`. -/
structure Decimal where
  digits : Nat
  exponent : Int
deriving DecidableEq

namespace Decimal

def toRat (d : Decimal) : Rat := d.digits * (10 : Rat) ^ d.exponent

/-- Outside `10 ^ (-400)` to `10 ^ 400` every decimal rounds to zero or to an infinity. -/
def reach : Int := 400

def toNumber (d : Decimal) : Number :=
  if d.digits = 0 then 0
  else if reach < d.exponent then .infinity false
  else if d.exponent + (d.digits.log2 + 1) < -reach then 0
  else .ofRat d.toRat

def numeral (n : Nat) : List Char := Nat.toDigits 10 n

/-! ## The fewest digits -/

/-- The least `k` with `x < 10 ^ k`, for a positive `x`. -/
def scale (x : Rat) : Int :=
  let k : Int := ((numeral x.num.natAbs).length : Int) - ((numeral x.den).length : Int)
  if x < (10 : Rat) ^ k then k else k + 1

def readsBack (x : Rat) (d : Decimal) : Bool := d.toNumber = .finite x

/-- Of the two neighbours of `x` on the grid of step `10 ^ exponent`, the nearest that rounds to
`x`; at a tie the even one. -/
def onGrid? (x : Rat) (exponent : Int) : Option Decimal :=
  let scaled := x / (10 : Rat) ^ exponent
  let low : Nat := scaled.floor.toNat
  let below : Decimal := ⟨low, exponent⟩
  let above : Decimal := ⟨low + 1, exponent⟩
  match readsBack x below, readsBack x above with
  | false, false => none
  | true, false => some below
  | false, true => some above
  | true, true =>
    let gap := scaled - low
    if gap < 1 / 2 then some below
    else if 1 / 2 < gap then some above
    else if low % 2 = 0 then some below
    else some above

/-- Every positive rational whose denominator is a power of two, written out in full. -/
def exact (x : Rat) : Decimal :=
  let places := x.den.log2
  ⟨(x * (10 : Rat) ^ places).floor.toNat, -(places : Int)⟩

/-- Seventeen digits tell any two neighbouring values apart. -/
def enoughDigits : Nat := 17

/-- The same value without up to `n` of the zeros that end its digits. -/
def dropZeros : Nat → Decimal → Decimal
  | 0, d => d
  | n + 1, d =>
    if d.digits ≠ 0 ∧ d.digits % 10 = 0 then dropZeros n ⟨d.digits / 10, d.exponent + 1⟩ else d

/-- The shortest decimal that rounds to a positive `x`.  A neighbour that carried into the next
power of ten loses its zeros. -/
def shortest (x : Rat) : Decimal :=
  let k := scale x
  let found := (List.range enoughDigits).findSome? fun (i : Nat) => onGrid? x (k - (i + 1 : Nat))
  dropZeros enoughDigits (found.getD (exact x))

/-! ## Layout -/

/-- Positional notation ends where more than this many digits would stand before the point. -/
def longestWhole : Int := 21

/-- Positional notation ends where this many zeros would stand between the point and the digits. -/
def mostLeadingZeros : Int := 6

def signed (n : Int) : List Char :=
  (if n < 0 then '-' else '+') :: numeral n.natAbs

def layout (d : Decimal) : List Char :=
  let ds := numeral d.digits
  let count : Int := ds.length
  let point := count + d.exponent
  if count ≤ point ∧ point ≤ longestWhole then
    ds ++ List.replicate (point - count).toNat '0'
  else if 0 < point ∧ point ≤ longestWhole then
    ds.take point.toNat ++ '.' :: ds.drop point.toNat
  else if -mostLeadingZeros < point ∧ point ≤ 0 then
    '0' :: '.' :: (List.replicate (-point).toNat '0' ++ ds)
  else
    let tail := 'e' :: signed (point - 1)
    match ds with
    | first :: second :: rest => first :: '.' :: second :: (rest ++ tail)
    | _ => ds ++ tail

end Decimal

namespace Number

def positiveText (x : Rat) : List Char :=
  if Binary64.isSmallInteger x then Decimal.numeral x.num.natAbs
  else (Decimal.shortest x).layout

/-- The characters of a number, as it stands in messages and in JSON. -/
def chars : Number → List Char
  | nan => "NaN".toList
  | infinity false => "Infinity".toList
  | infinity true => "-Infinity".toList
  | finite x =>
    if x = 0 then ['0']
    else if x < 0 then '-' :: positiveText (-x)
    else positiveText x

def text (x : Number) : String := String.ofList x.chars

end Number

end Adventure
